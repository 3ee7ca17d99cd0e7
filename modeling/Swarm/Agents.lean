import Mathlib.Logic.Function.Basic
import Swarm.Lib.Assoc
import Swarm.Value

/-!
# The records of the persistent agents, as `agents.py` reads and writes them

The dataclass does not check its types, so a field holds any JSON value. A file holds what
`json.loads` makes of it, which for a record that was just written is the record.
-/

namespace Swarm.Agents

open Lib

abbrev Dict := List (String × Value)

def SCHEMA_VERSION : Int := 1

structure AgentState where
  team : Value
  name : Value
  head : Value
  pid : Value
  persistent : Value
  currentTaskId : Value
  conversationPath : Value
  registeredAt : Value
  lastSeen : Value
  schemaVersion : Value
  extra : Dict

/-- The fields of the dataclass but `extra`. -/
def known : List String :=
  ["team", "name", "head", "pid", "persistent", "current_task_id", "conversation_path", "registered_at",
    "last_seen", "schema_version"]

/-- `asdict(self)` -/
def AgentState.asdict (s : AgentState) : Dict :=
  [("team", s.team), ("name", s.name), ("head", s.head), ("pid", s.pid), ("persistent", s.persistent),
    ("current_task_id", s.currentTaskId), ("conversation_path", s.conversationPath),
    ("registered_at", s.registeredAt), ("last_seen", s.lastSeen), ("schema_version", s.schemaVersion),
    ("extra", .obj s.extra)]

def isNull : Value → Bool
  | .null => true
  | _ => false

/-- `to_dict` leaves out what is null. -/
def AgentState.toDict (s : AgentState) : Dict := s.asdict.filter fun kv => !isNull kv.2

/-- `d.get(key, default)` -/
def getD (d : Dict) (key : String) (default : Value) : Value := (d.lookup key).getD default

/-- `version == SCHEMA_VERSION`: a true bool and a float are equal to the int, too. -/
def isCurrent : Value → Bool
  | .int n => n == SCHEMA_VERSION
  | .bool b => b
  | .float x => x == .finite SCHEMA_VERSION
  | _ => false

/-- The top-level fields that this version does not know. -/
def additional (d : Dict) : Dict := d.filter fun kv => kv.1 ∉ known ∧ kv.1 ≠ "extra"

/-- The readings of `time.time()` for the two times that a record may lack. -/
structure Defaults where
  registeredAt : Num
  lastSeen : Num

section

-- `dictOf` is what `dict` makes of a value that is no dict.
variable (py : Builtins) (dictOf : Value → Except PyError Dict)

/-- `dict(v)` -/
def toBag : Value → Except PyError Dict
  | .obj entries => .ok entries
  | v => dictOf v

/-- `data[key]`. -/
def required (d : Dict) (key : String) : Except PyError Value :=
  match d.lookup key with
  | some v => .ok v
  | none => .error (.keyError key)

/-- `from_dict`: a newer schema version is refused, and the fields it does not know go to
`extra`. -/
def fromDict (now : Defaults) (d : Dict) : Except PyError AgentState := do
  let version := getD d "schema_version" (.int 1)
  if !isCurrent version then
    throw (.valueError ("AgentState schema version mismatch: file has " ++ version.toStr py ++
      ", code expects " ++ toString SCHEMA_VERSION ++ ". Migrate or bump."))
  let bag ← toBag dictOf (getD d "extra" (.obj []))
  let extra := assocUpdate bag (additional d)
  let team ← required d "team"
  let name ← required d "name"
  return {
    team := team
    name := name
    head := getD d "head" (.str "builder")
    pid := Value.get d "pid"
    persistent := getD d "persistent" (.bool true)
    currentTaskId := Value.get d "current_task_id"
    conversationPath := Value.get d "conversation_path"
    registeredAt := getD d "registered_at" (.float now.registeredAt)
    lastSeen := getD d "last_seen" (.float now.lastSeen)
    schemaVersion := version
    extra := extra }

/-! ## The directory -/

/-- The contents of `<name>.json` for every name. -/
abbrev Dir := String → Content

/-- `get`: without a file there is no agent, and a file that is no record raises. -/
def get (now : Defaults) (dir : Dir) (name : String) : Except Escape (Option AgentState) :=
  match dir name with
  | .absent => .ok none
  | .unreadable => .error (.program (.valueError "Expecting value"))
  | .tooDeep => .error .recursionError
  | .document (.obj d) => ((fromDict py dictOf now d).map some).mapError .program
  | .document v =>
    .error (.program (.attributeError ("'" ++ v.typeName ++ "' object has no attribute 'get'")))

/-- `register` stamps `last_seen` and writes the whole record. -/
def register (now : Num) (s : AgentState) (dir : Dir) : Dir :=
  let s := { s with lastSeen := .float now }
  Function.update dir (s.name.toStr py) (.document (.obj s.toDict))

/-- A call of `record_dispatch` with its clock readings, of which that of `register` comes last. -/
structure Dispatch where
  taskId : String
  pid : Option Int
  defaults : Defaults
  seen : Num
  written : Num

/-- `record_dispatch`: read, change, write, with no lock around them. -/
def recordDispatch (name : String) (call : Dispatch) (dir : Dir) : Except Escape Unit × Dir :=
  match get py dictOf call.defaults dir name with
  | .error e => (.error e, dir)
  | .ok none => (.ok (), dir)
  | .ok (some s) =>
    let s := { s with currentTaskId := .str call.taskId }
    let s := match call.pid with
      | some pid => { s with pid := .int pid }
      | none => s
    let s := { s with lastSeen := .float call.seen }
    (.ok (), register py call.written s dir)

/-- Calls for one agent, of which one that raises leaves the directory alone. -/
def dispatches (name : String) (calls : List Dispatch) (dir : Dir) : Dir :=
  calls.foldl (fun dir call => (recordDispatch py dictOf name call dir).2) dir

end

/-! ## A state and its dict -/

/-- What the annotations ask of a state: only these three fields may be `None`. -/
structure Complete (s : AgentState) : Prop where
  team : isNull s.team = false
  name : isNull s.name = false
  head : isNull s.head = false
  persistent : isNull s.persistent = false
  registeredAt : isNull s.registeredAt = false
  lastSeen : isNull s.lastSeen = false
  schemaVersion : isNull s.schemaVersion = false

theorem eq_null_of_isNull {v : Value} (h : isNull v = true) : v = .null := by
  cases v <;> first | rfl | cases h

theorem asdict_keys (s : AgentState) : s.asdict.map (·.1) = known ++ ["extra"] := rfl

theorem asdict_nodup (s : AgentState) : (s.asdict.map (·.1)).Nodup := by
  rw [asdict_keys]
  decide

theorem lookup_toDict (s : AgentState) (key : String) :
    s.toDict.lookup key = (s.asdict.lookup key).filter fun v => !isNull v :=
  lookup_filter (asdict_nodup s) _ key

theorem getD_toDict {s : AgentState} {key : String} {v : Value}
    (hfield : s.asdict.lookup key = some v) (hv : isNull v = false) (default : Value) :
    getD s.toDict key default = v := by
  rw [getD, lookup_toDict, hfield, Option.filter_some, hv]
  rfl

theorem get_toDict {s : AgentState} {key : String} {v : Value}
    (hfield : s.asdict.lookup key = some v) :
    Value.get s.toDict key = v := by
  rw [Value.get, lookup_toDict, hfield, Option.filter_some]
  cases hv : isNull v with
  | false => rfl
  | true => rw [eq_null_of_isNull hv]; rfl

theorem required_toDict {s : AgentState} {key : String} {v : Value}
    (hfield : s.asdict.lookup key = some v) (hv : isNull v = false) :
    required s.toDict key = .ok v := by
  rw [required, lookup_toDict, hfield, Option.filter_some, hv]
  rfl

theorem additional_toDict (s : AgentState) : additional s.toDict = [] := by
  refine List.filter_eq_nil_iff.mpr fun kv hkv => ?_
  have hkey : kv.1 ∈ known ++ ["extra"] := by
    rw [← asdict_keys s]
    exact List.mem_map_of_mem (List.mem_filter.mp hkv).1
  simpa [List.mem_append, or_iff_not_imp_left] using hkey

section

variable (py : Builtins) (dictOf : Value → Except PyError Dict)

/-- Every state of this version comes back, and no other one. -/
theorem fromDict_toDict_iff {s : AgentState} (h : Complete s) (now : Defaults) :
    fromDict py dictOf now s.toDict = .ok s ↔ isCurrent s.schemaVersion = true := by
  have hversion : getD s.toDict "schema_version" (.int 1) = s.schemaVersion :=
    getD_toDict rfl h.schemaVersion _
  cases hcurrent : isCurrent s.schemaVersion with
  | false =>
    refine iff_of_false (fun hok => ?_) Bool.false_ne_true
    simp only [fromDict, hversion, hcurrent] at hok
    cases hok
  | true =>
    refine iff_of_true ?_ rfl
    have hextra : getD s.toDict "extra" (.obj []) = .obj s.extra := getD_toDict rfl rfl _
    have hteam : required s.toDict "team" = .ok s.team := required_toDict rfl h.team
    have hname : required s.toDict "name" = .ok s.name := required_toDict rfl h.name
    have hhead : getD s.toDict "head" (.str "builder") = s.head := getD_toDict rfl h.head _
    have hpersistent : getD s.toDict "persistent" (.bool true) = s.persistent :=
      getD_toDict rfl h.persistent _
    have hregistered : getD s.toDict "registered_at" (.float now.registeredAt) = s.registeredAt :=
      getD_toDict rfl h.registeredAt _
    have hseen : getD s.toDict "last_seen" (.float now.lastSeen) = s.lastSeen :=
      getD_toDict rfl h.lastSeen _
    have hpid : Value.get s.toDict "pid" = s.pid := get_toDict rfl
    have htask : Value.get s.toDict "current_task_id" = s.currentTaskId := get_toDict rfl
    have hpath : Value.get s.toDict "conversation_path" = s.conversationPath := get_toDict rfl
    simp only [fromDict, hversion, hcurrent, hextra, hteam, hname, hhead, hpersistent, hregistered, hseen, hpid,
      htask, hpath, additional_toDict]
    rfl

/-! ## A record of another program -/

/-- The entries of the bag. -/
def bag (d : Dict) : Dict :=
  match getD d "extra" (.obj []) with
  | .obj entries => entries
  | _ => []

/-- A record of this version in the file of its name. Besides the declared fields, which are null
only where they may be, it has any other fields and any bag. -/
structure Record (name : String) (d : Dict) : Prop where
  distinct : (d.map (·.1)).Nodup
  current : isCurrent (getD d "schema_version" (.int 1)) = true
  team : ∃ v, d.lookup "team" = some v ∧ isNull v = false
  named : d.lookup "name" = some (.str name)
  present : ∀ key ∈ ["head", "persistent", "registered_at", "last_seen"], d.lookup key ≠ some .null
  extra : ∃ entries, getD d "extra" (.obj []) = .obj entries

theorem getD_not_null {d : Dict} {key : String} {default : Value} (hkey : d.lookup key ≠ some .null)
    (hdefault : isNull default = false) : isNull (getD d key default) = false := by
  unfold getD
  cases hv : d.lookup key with
  | none => exact hdefault
  | some v =>
    rw [Option.getD_some, Bool.eq_false_iff]
    intro hnull
    rw [hv, eq_null_of_isNull hnull] at hkey
    exact hkey rfl

/-- What the reader makes of such a record. -/
structure ReadAs (name : String) (d : Dict) (s : AgentState) : Prop where
  complete : Complete s
  current : isCurrent s.schemaVersion = true
  named : s.name = .str name
  extra : s.extra = assocUpdate (bag d) (additional d)
  declared : ∀ key ∈ known, ∀ v, d.lookup key = some v → s.asdict.lookup key = some v

theorem fromDict_record {name : String} {d : Dict} (h : Record name d) (now : Defaults) :
    ∃ s, fromDict py dictOf now d = .ok s ∧ ReadAs name d s := by
  obtain ⟨team, hteam, hteamSet⟩ := h.team
  obtain ⟨entries, hentries⟩ := h.extra
  have hbag : bag d = entries := by
    unfold bag
    rw [hentries]
  have hcurrent := h.current
  have hversion : isNull (getD d "schema_version" (.int 1)) = false := by
    rw [Bool.eq_false_iff]
    intro hnull
    rw [eq_null_of_isNull hnull] at hcurrent
    cases hcurrent
  refine ⟨⟨team, .str name, getD d "head" (.str "builder"), Value.get d "pid", getD d "persistent" (.bool true),
    Value.get d "current_task_id", Value.get d "conversation_path",
    getD d "registered_at" (.float now.registeredAt), getD d "last_seen" (.float now.lastSeen),
    getD d "schema_version" (.int 1), assocUpdate entries (additional d)⟩, ?_, ?_⟩
  · simp only [fromDict, hcurrent, hentries, required, hteam, h.named]
    rfl
  · refine ⟨⟨hteamSet, rfl, ?_, ?_, ?_, ?_, hversion⟩, hcurrent, rfl, by rw [hbag], ?_⟩
    · exact getD_not_null (h.present _ (by simp)) rfl
    · exact getD_not_null (h.present _ (by simp)) rfl
    · exact getD_not_null (h.present _ (by simp)) rfl
    · exact getD_not_null (h.present _ (by simp)) rfl
    · intro key hkey v hv
      have hread : ∀ default, getD d key default = v :=
        fun default => by rw [getD, hv, Option.getD_some]
      have hget : Value.get d key = v := hread .null
      simp only [known, List.mem_cons, List.not_mem_nil] at hkey
      rcases hkey with rfl | rfl | rfl | rfl | rfl | rfl | rfl | rfl | rfl | rfl | hnone
      · exact hteam.symm.trans hv
      · exact h.named.symm.trans hv
      all_goals first | exact congrArg some (hread _) | exact congrArg some hget | exact hnone.elim

/-! ## Dispatches -/

/-- The state after a call. -/
def dispatched (s : AgentState) (call : Dispatch) : AgentState :=
  { s with
    currentTaskId := .str call.taskId
    pid := (call.pid.map Value.int).getD s.pid
    lastSeen := .float call.written }

theorem recordDispatch_of_get {name : String} {call : Dispatch} {dir : Dir} {s : AgentState}
    (hget : get py dictOf call.defaults dir name = .ok (some s)) (hname : s.name = .str name) :
    recordDispatch py dictOf name call dir =
      (.ok (), Function.update dir name (.document (.obj (dispatched s call).toDict))) := by
  simp only [recordDispatch, hget, register, dispatched]
  cases call.pid <;> simp only [hname, Value.toStr, Option.map_none,
    Option.map_some, Option.getD_none, Option.getD_some]

theorem dispatches_cons {name : String} {call : Dispatch} {dir : Dir} {s : AgentState}
    (hget : get py dictOf call.defaults dir name = .ok (some s)) (hname : s.name = .str name)
    (rest : List Dispatch) :
    dispatches py dictOf name (call :: rest) dir = dispatches py dictOf name rest
      (Function.update dir name (.document (.obj (dispatched s call).toDict))) := by
  rw [dispatches, List.foldl_cons, recordDispatch_of_get py dictOf hget hname]
  rfl

theorem get_of_document {name : String} {dir : Dir} {d : Dict} {s : AgentState} {now : Defaults}
    (hdir : dir name = .document (.obj d)) (hread : fromDict py dictOf now d = .ok s) :
    get py dictOf now dir name = .ok (some s) := by
  simp only [get, hdir, hread]
  rfl

/-- A state of this version, which the file of its name can hold. -/
structure Sound (name : String) (s : AgentState) : Prop where
  complete : Complete s
  current : isCurrent s.schemaVersion = true
  named : s.name = .str name

theorem Sound.dispatched {name : String} {s : AgentState} (h : Sound name s) (call : Dispatch) :
    Sound name (dispatched s call) :=
  ⟨⟨h.complete.team, h.complete.name, h.complete.head, h.complete.persistent, h.complete.registeredAt, rfl,
    h.complete.schemaVersion⟩, h.current, h.named⟩

theorem Sound.get {name : String} {s : AgentState} (h : Sound name s) {dir : Dir}
    (hdir : dir name = .document (.obj s.toDict)) (now : Defaults) :
    get py dictOf now dir name = .ok (some s) :=
  get_of_document py dictOf hdir ((fromDict_toDict_iff py dictOf h.complete now).mpr h.current)

theorem dispatches_written {name : String} {s : AgentState} (h : Sound name s) {dir : Dir}
    (hdir : dir name = .document (.obj s.toDict)) (calls : List Dispatch) :
    Sound name (calls.foldl dispatched s) ∧
      dispatches py dictOf name calls dir name =
        .document (.obj (calls.foldl dispatched s).toDict) ∧
      ∀ other, other ≠ name → dispatches py dictOf name calls dir other = dir other := by
  -- Once it was written, every call reads what the one before wrote.
  induction calls generalizing s dir with
  | nil => exact ⟨h, hdir, fun _ _ => rfl⟩
  | cons call rest ih =>
    rw [dispatches_cons py dictOf (h.get py dictOf hdir call.defaults) h.named]
    obtain ⟨hsound, hfile, hothers⟩ := ih (h.dispatched call) (Function.update_self name _ dir)
    refine ⟨hsound, hfile, fun other hother => ?_⟩
    rw [hothers other hother, Function.update_of_ne hother]

theorem dispatched_fields (s : AgentState) (calls : List Dispatch) :
    (calls.foldl dispatched s).extra = s.extra ∧
      ∀ key, key ∉ ["current_task_id", "pid", "last_seen"] →
        (calls.foldl dispatched s).asdict.lookup key = s.asdict.lookup key := by
  induction calls generalizing s with
  | nil => exact ⟨rfl, fun _ _ => rfl⟩
  | cons call rest ih =>
    obtain ⟨hextra, hfields⟩ := ih (dispatched s call)
    refine ⟨hextra, fun key hkey => (hfields key hkey).trans ?_⟩
    simp only [List.mem_cons, List.not_mem_nil, not_or] at hkey
    obtain ⟨htask, hpid, hseen, -⟩ := hkey
    simp only [AgentState.asdict, dispatched, List.lookup_cons, beq_eq_false_iff_ne.mpr htask,
      beq_eq_false_iff_ne.mpr hpid, beq_eq_false_iff_ne.mpr hseen]

/-! ## What a newer program finds -/

/-- Of the record `d`, the file keeps the declared fields that a call does not set and the entries
of the bag, and the state that is read from it has the additional fields as well. -/
structure Kept (d file : Dict) (s : AgentState) : Prop where
  declared : ∀ key ∈ known, key ∉ ["current_task_id", "pid", "last_seen"] → ∀ v, isNull v = false →
    d.lookup key = some v → file.lookup key = some v
  entries : ∀ key, (additional d).lookup key = none → (bag file).lookup key = (bag d).lookup key
  additional : ∀ key v, (additional d).lookup key = some v → s.extra.lookup key = some v

theorem lookup_extra {name : String} {d : Dict} {s : AgentState} (h : Record name d)
    (hs : ReadAs name d s) (key : String) :
    s.extra.lookup key = ((additional d).lookup key).or ((bag d).lookup key) := by
  rw [hs.extra]
  exact lookup_assocUpdate _ (h.distinct.sublist (List.filter_sublist.map _)) key

/-- **Records are forward compatible** as far as a state of this version goes: it comes back from
its dict, and through any number of dispatches a record of this version stays readable, with its
fields, its bag and its additional fields. -/
theorem record_kept :
    (∀ s now, Complete s → (fromDict py dictOf now s.toDict = .ok s ↔
      isCurrent s.schemaVersion = true)) ∧
      ∀ dir name d, dir name = .document (.obj d) → Record name d → ∀ calls now,
        ∃ file s, dispatches py dictOf name calls dir name = .document (.obj file) ∧
          get py dictOf now (dispatches py dictOf name calls dir) name = .ok (some s) ∧
            Kept d file s ∧
          ∀ other, other ≠ name → dispatches py dictOf name calls dir other = dir other := by
  refine ⟨fun s now h => fromDict_toDict_iff py dictOf h now, fun dir name d hdir hrecord calls now => ?_⟩
  cases calls with
  | nil =>
    obtain ⟨s, hread, hs⟩ := fromDict_record py dictOf hrecord now
    refine ⟨d, s, hdir, get_of_document py dictOf hdir hread, ⟨fun _ _ _ _ _ hv => hv, fun _ _ => rfl, ?_⟩,
      fun _ _ => rfl⟩
    intro key v hv
    rw [lookup_extra hrecord hs, hv, Option.some_or]
  | cons call rest =>
    obtain ⟨s, hread, hs⟩ := fromDict_record py dictOf hrecord call.defaults
    have hsound : Sound name s := ⟨hs.complete, hs.current, hs.named⟩
    have hstep := dispatches_cons py dictOf (get_of_document py dictOf hdir hread) hs.named rest
    obtain ⟨hfinal, hfile, hothers⟩ := dispatches_written py dictOf (hsound.dispatched call)
      (Function.update_self name _ dir) rest
    obtain ⟨hextra, hfields⟩ := dispatched_fields s (call :: rest)
    rw [List.foldl_cons] at hextra hfields
    rw [hstep]
    refine ⟨_, _, hfile, hfinal.get py dictOf hfile now, ⟨?_, ?_, ?_⟩, fun other hother => ?_⟩
    · intro key hkey hset v hv hd
      rw [lookup_toDict, hfields key hset, hs.declared key hkey v hd, Option.filter_some, hv]
      rfl
    · intro key hnone
      have hbag : ∀ t : AgentState, bag t.toDict = t.extra := by
        intro t
        rw [bag, getD_toDict (v := .obj t.extra) rfl rfl]
      rw [hbag, hextra, lookup_extra hrecord hs, hnone, Option.none_or]
    · intro key v hv
      rw [hextra, lookup_extra hrecord hs, hv, Option.some_or]
    · rw [hothers other hother, Function.update_of_ne hother]

end

/-! ## A field of a newer program -/

/-- `dict` of a value that is no dict, for values that it cannot take. -/
def refuse (v : Value) : Except PyError Dict :=
  .error (.typeError ("'" ++ v.typeName ++ "' object is not iterable"))

def builder : AgentState :=
  ⟨.str "t1", .str "worker-a", .str "builder", .null, .bool true, .null, .null, .int 10, .int 10, .int 1,
    [("colour", .str "red")]⟩

/-- The record of a program that also writes a lease. -/
def leased : Dict := builder.toDict ++ [("lease", .int 300)]

def shelf : Dir := fun name => if name = "worker-a" then .document (.obj leased) else .absent

/-- A dispatch of task-42 to the process 4711. -/
def pickUp : Dispatch := ⟨"task-42", some 4711, ⟨.finite 20, .finite 20⟩, .finite 20, .finite 20⟩

theorem leased_record : Record "worker-a" leased where
  distinct := by decide
  current := rfl
  team := ⟨.str "t1", rfl, rfl⟩
  named := rfl
  present key hkey := by
    simp only [List.mem_cons, List.not_mem_nil] at hkey
    rcases hkey with rfl | rfl | rfl | rfl | hnone
    all_goals
      first
        | exact hnone.elim
        | simp [leased, builder, AgentState.toDict, AgentState.asdict, isNull, List.lookup_cons]
  extra := ⟨_, rfl⟩

theorem builder_complete : Complete builder := ⟨rfl, rfl, rfl, rfl, rfl, rfl, rfl⟩

theorem leased_kept :
    fromDict noNumbers refuse pickUp.defaults builder.toDict = .ok builder ∧
      ∃ file s, dispatches noNumbers refuse "worker-a" [pickUp] shelf "worker-a" =
        .document (.obj file) ∧
        get noNumbers refuse pickUp.defaults (dispatches noNumbers refuse "worker-a" [pickUp] shelf) "worker-a" =
          .ok (some s) ∧ Kept leased file s := by
  obtain ⟨hround, hkept⟩ := record_kept noNumbers refuse
  obtain ⟨file, s, hfile, hget, hkept, -⟩ :=
    hkept shelf "worker-a" leased rfl leased_record [pickUp] pickUp.defaults
  exact ⟨(hround builder pickUp.defaults builder_complete).mpr rfl, file, s, hfile, hget, hkept⟩

/-- One dispatch takes the lease from the top level, and a state of the next version does not come
back. -/
theorem leased_moved :
    (∃ text, fromDict noNumbers refuse pickUp.defaults { builder with schemaVersion := .int 2 }.toDict =
        .error (.valueError text)) ∧
      ∃ file, dispatches noNumbers refuse "worker-a" [pickUp] shelf "worker-a" = .document (.obj file) ∧
        leased.lookup "lease" = some (.int 300) ∧ file.lookup "lease" = none := by
  exact ⟨⟨_, rfl⟩, _, rfl, rfl, rfl⟩

end Swarm.Agents
