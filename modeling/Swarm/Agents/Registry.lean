import Mathlib.Data.List.Sort
import Mathlib.Data.String.Basic
import Swarm.Agents

/-!
# The registry of the persistent agents

The calls of `agents.py` on the directory of a team, over whole histories. To its callers the
directory is a map from names to agents, apart from files that are none.
-/

namespace Swarm.Agents

open Lib

/-! ## The files -/

/-- The contents of `<name>.json`, in the order of the directory. -/
abbrev Files := List (String × Content)

/-- What `get` sees of the files. -/
def dirOf (files : Files) : Dir := fun name => (files.lookup name).getD .absent

def path (name : String) : String := name ++ ".json"

/-- `sorted(d.glob("*.json"))` -/
def sortedNames (files : Files) : List String :=
  (files.map (·.1)).insertionSort fun a b => path a ≤ path b

section

variable (py : Builtins) (dictOf : Value → Except PyError Dict)

/-- `register` on the files. -/
def registerIn (now : Num) (s : AgentState) (files : Files) : Files :=
  assocSet files (s.name.toStr py) (.document (.obj { s with lastSeen := .float now }.toDict))

/-- `deregister` -/
def deregister (name : String) (files : Files) : Bool × Files :=
  if (files.lookup name).isSome then (true, files.filter fun kv => kv.1 ≠ name) else (false, files)

/-- `record_dispatch` on the files. -/
def recordDispatchIn (name : String) (call : Dispatch) (files : Files) :
    Except Escape Unit × Files :=
  match get py dictOf call.defaults (dirOf files) name with
  | .error e => (.error e, files)
  | .ok none => (.ok (), files)
  | .ok (some s) => (.ok (), registerIn py call.written (dispatched s call) files)

/-- One file of `list_all`; the errors that it passes over give nothing. -/
def readOne (now : Defaults) (files : Files) (name : String) : Except Escape (Option AgentState) :=
  match get py dictOf now (dirOf files) name with
  | .error (.program (.valueError _)) => .ok none
  | out => out

/-- `list_all` reads the files in the order of their names. -/
def listAll (now : String → Defaults) (files : Files) : Except Escape (List AgentState) :=
  ((sortedNames files).mapM fun name => readOne py dictOf (now name) files name).map fun read => read.filterMap id

/-- `is_alive`: `kill` says whether `os.kill(pid, 0)` returns, or what else it raises than the two
errors that mean no. -/
def AgentState.isAlive (kill : Int → Except PyError Bool) (s : AgentState) : Except PyError Bool :=
  match s.pid with
  | .null => .ok false
  | .int pid => kill pid
  | .bool b => kill (if b then 1 else 0)
  | v => .error (.typeError ("'" ++ v.typeName ++ "' object cannot be interpreted as an integer"))

/-- `[a for a in agents if a.is_alive()]` -/
def living (kill : Int → Except PyError Bool) : List AgentState → Except PyError (List AgentState)
  | [] => .ok []
  | s :: rest => do
    let alive ← s.isAlive kill
    let others ← living kill rest
    return if alive then s :: others else others

/-- `restore` keeps the agents whose process is alive. -/
def restore (kill : Int → Except PyError Bool) (now : String → Defaults) (files : Files) :
    Except Escape (List AgentState) := do
  let all ← listAll py dictOf now files
  (living kill all).mapError .program

theorem dirOf_registerIn (now : Num) (s : AgentState) (files : Files) :
    dirOf (registerIn py now s files) = register py now s (dirOf files) := by
  funext name
  simp only [dirOf, registerIn, lookup_assocSet, register, Function.update_apply]
  split <;> rfl

theorem dirOf_recordDispatchIn (name : String) (call : Dispatch) (files : Files) :
    ((recordDispatchIn py dictOf name call files).1,
      dirOf (recordDispatchIn py dictOf name call files).2) =
      recordDispatch py dictOf name call (dirOf files) := by
  unfold recordDispatchIn recordDispatch
  rcases get py dictOf call.defaults (dirOf files) name with e | _ | s
  · rfl
  · rfl
  · dsimp only
    rw [dirOf_registerIn]
    cases hpid : call.pid <;> simp [register, dispatched, hpid]

end

/-! ## The map -/

inductive Entry
  /-- A file that `list_all` passes over. -/
  | junk
  | agent (s : AgentState)

/-- The agents by name, and the names of files that are no records. -/
abbrev Team := String → Option Entry

inductive Op
  | register (now : Num) (name : String) (s : AgentState)
  | deregister (name : String)
  | recordDispatch (name : String) (call : Dispatch)

/-- What a caller gets back. -/
inductive Reply
  | registered (path : String)
  | deregistered (existed : Bool)
  | recorded
  | raised
  deriving DecidableEq

/-- A state that is registered is a sound one, under its name. -/
def Op.Sound : Op → Prop
  | .register _ name s => Agents.Sound name s
  | .deregister _ | .recordDispatch _ _ => True

/-- What a call means. -/
def Op.meaning (op : Op) (m : Team) : Reply × Team :=
  match op with
  | .register now name s =>
    (.registered (path name), Function.update m name (some (.agent { s with lastSeen := .float now })))
  | .deregister name => (.deregistered (m name).isSome, Function.update m name none)
  | .recordDispatch name call =>
    match m name with
    | none => (.recorded, m)
    | some .junk => (.raised, m)
    | some (.agent s) => (.recorded, Function.update m name (some (.agent (dispatched s call))))

/-- A history of calls on the map. -/
def meanings : List Op → Team → List Reply × Team
  | [], m => ([], m)
  | op :: rest, m =>
    let (reply, m) := op.meaning m
    let (replies, m) := meanings rest m
    (reply :: replies, m)

section

variable (py : Builtins) (dictOf : Value → Except PyError Dict)

def Op.run (op : Op) (files : Files) : Reply × Files :=
  match op with
  | .register now _ s => (.registered (path (s.name.toStr py)), registerIn py now s files)
  | .deregister name =>
    let (existed, files) := Agents.deregister name files
    (.deregistered existed, files)
  | .recordDispatch name call =>
    match recordDispatchIn py dictOf name call files with
    | (.ok (), files) => (.recorded, files)
    | (.error _, files) => (.raised, files)

/-- A history of calls on the files. -/
def runs : List Op → Files → List Reply × Files
  | [], files => ([], files)
  | op :: rest, files =>
    let (reply, files) := op.run py dictOf files
    let (replies, files) := runs rest files
    (reply :: replies, files)

/-- What the file of a name is in the map. A record may have more in it than the state that is read
from it. -/
def Holds (name : String) (file : Option Content) : Option Entry → Prop
  | none => file = none
  | some .junk => ∃ c, file = some c ∧
      ∀ now, ∃ text, get py dictOf now (fun _ => c) name = .error (.program (.valueError text))
  | some (.agent s) =>
    ∃ d, file = some (.document (.obj d)) ∧ Sound name s ∧ ∀ now, fromDict py dictOf now d = .ok s

/-- The files hold the agents of the map, one file for each name. -/
structure Refines (files : Files) (m : Team) : Prop where
  nodup : (files.map (·.1)).Nodup
  holds : ∀ name, Holds py dictOf name (files.lookup name) (m name)

/-- What `get` gives for an entry. -/
def Reads (entry : Option Entry) (out : Except Escape (Option AgentState)) : Prop :=
  match entry with
  | none => out = .ok none
  | some .junk => ∃ text, out = .error (.program (.valueError text))
  | some (.agent s) => out = .ok (some s)

variable {py dictOf} {files : Files} {m : Team}

theorem get_congr {dir dir' : Dir} {name : String} (h : dir name = dir' name) (now : Defaults) :
    get py dictOf now dir name = get py dictOf now dir' name := by
  unfold get
  rw [h]

theorem Holds.get {name : String} {file : Option Content} {entry : Option Entry}
    (h : Holds py dictOf name file entry) (now : Defaults) :
    Reads entry (Agents.get py dictOf now (fun _ => file.getD .absent) name) := by
  rcases entry with _ | _ | s
  · unfold Holds at h
    subst h
    rfl
  · obtain ⟨c, rfl, hread⟩ := h
    exact hread now
  · obtain ⟨d, rfl, -, hread⟩ := h
    exact get_of_document py dictOf rfl (hread now)

theorem Refines.get (h : Refines py dictOf files m) (now : Defaults) (name : String) :
    Reads (m name) (get py dictOf now (dirOf files) name) := by
  have hfile : Agents.get py dictOf now (dirOf files) name =
      Agents.get py dictOf now (fun _ => (files.lookup name).getD .absent) name := get_congr rfl now
  rw [hfile]
  exact (h.holds name).get now

/-! ## Each call -/

theorem Sound.holds {name : String} {s : AgentState} (hs : Sound name s) :
    Holds py dictOf name (some (.document (.obj s.toDict))) (some (.agent s)) :=
  ⟨s.toDict, rfl, hs, fun now => (fromDict_toDict_iff py dictOf hs.complete now).mpr hs.current⟩

theorem Refines.write (h : Refines py dictOf files m) {name : String} {s : AgentState}
    (hs : Sound name s) :
    Refines py dictOf (assocSet files name (.document (.obj s.toDict)))
      (Function.update m name (some (.agent s))) := by
  refine ⟨assocSet_nodup h.nodup _ _, fun other => ?_⟩
  rw [lookup_assocSet, Function.update_apply]
  split
  · next heq =>
    subst heq
    exact hs.holds
  · exact h.holds other

theorem Sound.seen {name : String} {s : AgentState} (h : Sound name s) (now : Num) :
    Sound name { s with lastSeen := .float now } :=
  ⟨⟨h.complete.team, h.complete.name, h.complete.head, h.complete.persistent, h.complete.registeredAt, rfl,
    h.complete.schemaVersion⟩, h.current, h.named⟩

theorem Refines.register (h : Refines py dictOf files m) {name : String} {s : AgentState}
    (hs : Sound name s) (now : Num) : Refines py dictOf (registerIn py now s files)
      (Function.update m name (some (.agent { s with lastSeen := .float now }))) := by
  have hname : s.name.toStr py = name := by rw [hs.named]; rfl
  unfold registerIn
  rw [hname]
  exact h.write (hs.seen now)

theorem Refines.isSome_iff (h : Refines py dictOf files m) (name : String) :
    (files.lookup name).isSome = (m name).isSome := by
  have hname := h.holds name
  rcases hm : m name with _ | _ | s
  · rw [hm] at hname
    rw [show files.lookup name = none from hname]
    rfl
  · rw [hm] at hname
    obtain ⟨c, hfile, -⟩ := hname
    rw [hfile]
    rfl
  · rw [hm] at hname
    obtain ⟨d, hfile, -⟩ := hname
    rw [hfile]
    rfl

theorem Refines.deregister (h : Refines py dictOf files m) (name : String) :
    (Agents.deregister name files).1 = (m name).isSome ∧
      Refines py dictOf (Agents.deregister name files).2 (Function.update m name none) := by
  unfold Agents.deregister
  rw [h.isSome_iff name]
  split
  · next hsome =>
    refine ⟨hsome.symm, (List.Sublist.map _ List.filter_sublist).nodup h.nodup, fun other => ?_⟩
    rw [lookup_filter h.nodup, Function.update_apply]
    by_cases hother : other = name
    · rw [if_pos hother]
      cases files.lookup other <;> simp [Holds, hother]
    · rw [if_neg hother]
      have hkept : ((files.lookup other).filter fun _ => decide (other ≠ name)) = files.lookup other := by
        cases files.lookup other <;> simp [hother]
      exact hkept.symm ▸ h.holds other
  · next hnone =>
    have hm : m name = none := by simpa using hnone
    have hsame : Function.update m name none = m := by rw [← hm, Function.update_eq_self]
    rw [hsame]
    exact ⟨by simp [hm], h⟩

theorem Refines.step (h : Refines py dictOf files m) (op : Op) (hop : op.Sound) :
    (op.run py dictOf files).1 = (op.meaning m).1 ∧
      Refines py dictOf (op.run py dictOf files).2 (op.meaning m).2 := by
  cases op with
  | register now name s =>
    have hs : Sound name s := hop
    exact ⟨by simp only [Op.run, Op.meaning, hs.named, Value.toStr], h.register hs now⟩
  | deregister name =>
    obtain ⟨hreply, hrefines⟩ := h.deregister name
    exact ⟨congrArg Reply.deregistered hreply, hrefines⟩
  | recordDispatch name call =>
    have hread := h.get call.defaults name
    have hname := h.holds name
    simp only [Op.run, Op.meaning, recordDispatchIn]
    rcases hm : m name with _ | _ | s
    · rw [hm] at hread
      rw [show Agents.get py dictOf call.defaults (dirOf files) name = .ok none from hread]
      exact ⟨rfl, h⟩
    · rw [hm] at hread
      obtain ⟨text, hget⟩ := hread
      rw [hget]
      exact ⟨rfl, h⟩
    · rw [hm] at hread hname
      obtain ⟨-, -, hs, -⟩ := hname
      rw [show Agents.get py dictOf call.defaults (dirOf files) name = .ok (some s) from hread]
      exact ⟨rfl, h.register (hs.dispatched call) call.written⟩

/-! ## What the readers give -/

def agentAt (m : Team) (name : String) : Option AgentState :=
  match m name with
  | some (.agent s) => some s
  | _ => none

theorem Refines.readOne (h : Refines py dictOf files m) (now : Defaults) (name : String) :
    Agents.readOne py dictOf now files name = .ok (agentAt m name) := by
  have hread := h.get now name
  unfold Agents.readOne agentAt
  rcases hm : m name with _ | _ | s
  · rw [hm] at hread
    rw [show Agents.get py dictOf now (dirOf files) name = .ok none from hread]
  · rw [hm] at hread
    obtain ⟨text, hget⟩ := hread
    rw [hget]
  · rw [hm] at hread
    rw [show Agents.get py dictOf now (dirOf files) name = .ok (some s) from hread]

/-- The names of the agents, in the order of their files. -/
structure InOrder (m : Team) (names : List String) : Prop where
  order : names.Pairwise fun a b => path a < path b
  all : ∀ name, name ∈ names ↔ ∃ s, m name = some (.agent s)

theorem path_injective : Function.Injective path :=
  fun a b h => by simpa [path, String.append_left_inj] using h

theorem sortedNames_perm (files : Files) : (sortedNames files).Perm (files.map (·.1)) :=
  List.perm_insertionSort _ _

theorem sortedNames_order (h : Refines py dictOf files m) :
    (sortedNames files).Pairwise fun a b => path a < path b := by
  have hle : (sortedNames files).Pairwise fun a b => path a ≤ path b :=
    List.pairwise_insertionSort (fun a b => path a ≤ path b) _
  have hnodup : (sortedNames files).Nodup := (sortedNames_perm files).nodup_iff.mpr h.nodup
  exact (hle.and hnodup).imp fun ⟨hab, hne⟩ => lt_of_le_of_ne hab fun heq => hne (path_injective heq)

theorem Refines.listAll (h : Refines py dictOf files m) (now : String → Defaults) :
    ∃ names agents, Agents.listAll py dictOf now files = .ok agents ∧ InOrder m names ∧
      names.map (agentAt m) = agents.map some := by
  have hmap : (sortedNames files).mapM (fun name => Agents.readOne py dictOf (now name) files name) =
      .ok ((sortedNames files).map (agentAt m)) := by
    simp only [h.readOne]
    exact List.mapM_pure
  refine ⟨(sortedNames files).filter fun name => (agentAt m name).isSome, (sortedNames files).filterMap (agentAt m),
    ?_, ⟨(sortedNames_order h).filter _, fun name => ?_⟩, ?_⟩
  · rw [Agents.listAll, hmap]
    exact congrArg Except.ok (List.filterMap_map ..)
  · rw [List.mem_filter, (sortedNames_perm files).mem_iff, ← lookup_isSome_iff, h.isSome_iff]
    unfold agentAt
    rcases m name with _ | _ | s <;> simp
  · induction sortedNames files with
    | nil => rfl
    | cons name rest ih =>
      cases hname : agentAt m name with
      | none => simpa [hname] using ih
      | some s => simpa [hname] using ih

theorem living_ok {kill : Int → Except PyError Bool} {alive : AgentState → Bool}
    {l : List AgentState} (h : ∀ s ∈ l, s.isAlive kill = .ok (alive s)) :
    living kill l = .ok (l.filter alive) := by
  induction l with
  | nil => rfl
  | cons s rest ih =>
    obtain ⟨hs, hrest⟩ := List.forall_mem_cons.mp h
    rw [living, hs, ih hrest, List.filter_cons]
    cases alive s <;> rfl

theorem Refines.restore (h : Refines py dictOf files m) {kill : Int → Except PyError Bool}
    {alive : AgentState → Bool} (hkill : ∀ name s, m name = some (.agent s) →
      s.isAlive kill = .ok (alive s))
    (now : String → Defaults) : ∃ agents, Agents.listAll py dictOf now files = .ok agents ∧
      Agents.restore py dictOf kill now files = .ok (agents.filter alive) := by
  obtain ⟨names, agents, hlist, -, hagents⟩ := h.listAll now
  refine ⟨agents, hlist, ?_⟩
  have hall : ∀ s ∈ agents, s.isAlive kill = .ok (alive s) := by
    intro s hs
    have hmem : some s ∈ names.map (agentAt m) := hagents ▸ List.mem_map_of_mem hs
    obtain ⟨name, -, hname⟩ := List.mem_map.mp hmem
    unfold agentAt at hname
    split at hname
    · next s' hm =>
      obtain rfl := Option.some.inj hname
      exact hkill name s' hm
    · simp at hname
  unfold Agents.restore
  rw [hlist]
  change (living kill agents).mapError Escape.program = _
  rw [living_ok hall]
  rfl

/-! ## Every history -/

/-- What the readers say of a map. -/
structure Serves (py : Builtins) (dictOf : Value → Except PyError Dict) (files : Files)
    (m : Team) : Prop where
  get : ∀ now name, Reads (m name) (get py dictOf now (dirOf files) name)
  listAll : ∀ now, ∃ names agents, listAll py dictOf now files = .ok agents ∧ InOrder m names ∧
    names.map (agentAt m) = agents.map some
  restore : ∀ (kill : Int → Except PyError Bool) (alive : AgentState → Bool), (∀ name s, m name = some (.agent s) →
      s.isAlive kill = .ok (alive s)) → ∀ now, ∃ agents, Agents.listAll py dictOf now files = .ok agents ∧
        Agents.restore py dictOf kill now files = .ok (agents.filter alive)

theorem Refines.serves (h : Refines py dictOf files m) : Serves py dictOf files m :=
  ⟨h.get, h.listAll, fun _ _ hkill => h.restore hkill⟩

end

/-- A builder is registered beside a file that is no JSON, picks up a task, and another one comes
and goes. -/
def shift : List Op :=
  [.register (.finite 5) "worker-a" builder, .recordDispatch "worker-a" pickUp, .recordDispatch "stray" pickUp,
    .register (.finite 6) "worker-b" { builder with name := .str "worker-b" }, .deregister "worker-b",
    .deregister "worker-c"]

/-- A directory with one file that is no JSON. -/
def stray : Files := [("stray", .unreadable)]

def strayTeam : Team := fun name => if name = "stray" then some .junk else none

theorem stray_refines : Refines noNumbers refuse stray strayTeam := by
  refine ⟨by decide, fun name => ?_⟩
  by_cases hname : name = "stray"
  · subst hname
    exact ⟨.unreadable, rfl, fun now => ⟨_, rfl⟩⟩
  · have hne : (name == "stray") = false := by simpa using hname
    have hteam : strayTeam name = none := if_neg hname
    rw [hteam]
    simp [Holds, stray, List.lookup_cons, hne]

theorem shift_sound : ∀ op ∈ shift, op.Sound := by
  have hbuilder : ∀ name, Sound name { builder with name := .str name } :=
    fun name => ⟨⟨rfl, rfl, rfl, rfl, rfl, rfl, rfl⟩, rfl, rfl⟩
  intro op hop
  simp only [shift, List.mem_cons, List.not_mem_nil] at hop
  rcases hop with rfl | rfl | rfl | rfl | rfl | rfl | hnone
  · exact hbuilder "worker-a"
  · trivial
  · trivial
  · exact hbuilder "worker-b"
  · trivial
  · trivial
  · exact hnone.elim

end Swarm.Agents
