import Swarm.Agents.Registry
import Swarm.AtomicWrite

/-!
# The registry among several processes

Any number of processes register, read and remove agents at once, step by step as `_atomic_write`
and `get` work. `record_dispatch` is a `get` and a `register` of one process.
-/

namespace Swarm.Agents

open Lib AtomicWrite

/-- A call of `register`. -/
structure Registration where
  state : AgentState
  now : Num

/-- What is written of it. -/
def Registration.seen (r : Registration) : AgentState := { r.state with lastSeen := .float r.now }

section

-- `dumps` is `json.dumps(d, indent=2) + "\n"`, `loads` is `json.loads`.
variable (dumps : Dict → Chars) (loads : Chars → Content)

/-- The text that `register` writes. -/
def Registration.text (r : Registration) : Chars := dumps r.seen.toDict

/-- The file of a name as the callers find it. -/
def fileOf (text : Option Chars) : Option Content := text.map loads

/-- A sound state under its own name, whose text reads as what was written. -/
structure Registration.Sound (name : String) (r : Registration) : Prop where
  state : Agents.Sound name r.state
  loads : loads (r.text dumps) = .document (.obj r.seen.toDict)

end

variable {Proc : Type*}

/-- What an event means to the map. -/
def onTeam (e : Event Proc Registration) (m : Team) : Team :=
  match e with
  | .replaced name r => Function.update m name (some (.agent r.seen))
  | .removed name => Function.update m name none
  | .opened _ _ | .answered _ _ _ | .lost _ _ | .raised _ _ | .left _ => m

/-- The map after whole registrations and removals, one after the other. -/
def teamAfter (m : Team) (log : List (Event Proc Registration)) : Team :=
  log.foldl (fun m e => onTeam e m) m

section

variable {py : Builtins} {dictOf : Value → Except PyError Dict} {dumps : Dict → Chars}
    {loads : Chars → Content}

theorem onTeam_holds {e : Event Proc Registration}
    (he : ∀ name r, e = .replaced name r → r.Sound dumps loads name)
    {files : String → Option Chars} {m : Team}
    (h : ∀ name, Holds py dictOf name (fileOf loads (files name)) (m name)) :
    ∀ name, Holds py dictOf name (fileOf loads (e.apply (Registration.text dumps) files name))
      (onTeam e m name) := by
  intro name
  cases e with
  | replaced other r =>
    simp only [Event.apply, onTeam, Function.update_apply]
    split
    · next heq =>
      subst heq
      obtain ⟨hstate, hloads⟩ := he name r rfl
      rw [fileOf, Option.map_some, hloads]
      exact (hstate.seen r.now).holds
    · exact h name
  | removed other =>
    simp only [Event.apply, onTeam, Function.update_apply]
    split
    · exact rfl
    · exact h name
  | opened _ _ | answered _ _ _ | lost _ _ | raised _ _ | left _ => exact h name

theorem teamAfter_holds {log : List (Event Proc Registration)}
    (hlog : ∀ name r, .replaced name r ∈ log → r.Sound dumps loads name)
    {files : String → Option Chars} {m : Team}
    (h : ∀ name, Holds py dictOf name (fileOf loads (files name)) (m name)) (name : String) :
    Holds py dictOf name (fileOf loads (replay (Registration.text dumps) files log name))
      (teamAfter m log name) := by
  induction log generalizing files m with
  | nil => exact h name
  | cons e rest ih =>
    exact ih (fun other r hmem => hlog other r (List.mem_cons_of_mem _ hmem))
      (onTeam_holds (fun other r heq => hlog other r (heq ▸ List.mem_cons_self)) h)

end

variable [DecidableEq Proc]

/-- **Under any interleaving of processes that register, read and remove agents, with failed writes
and kills anywhere, the directory is the map after whole registrations and removals, and every
`get` gives what the map had when it opened the file: never a part of a record.** -/
theorem shared_registry (py : Builtins) (dictOf : Value → Except PyError Dict)
    (dumps : Dict → Chars) (loads : Chars → Content) {disk : Disk String Char}
    (hdisk : disk.Valid) (m : Team)
    (hm : ∀ name, Holds py dictOf name (fileOf loads (disk.contents (jsonPath name))) (m name))
    (labels : List (Label Proc Registration))
    (hlabels : ∀ l ∈ labels, ∀ name r suffix, l.act = .mkstemp name r suffix →
      r.Sound dumps loads name) :
    let s := final (AtomicWrite.step (Registration.text dumps)) (start disk) labels
    (∀ name, Holds py dictOf name (fileOf loads (s.disk.contents (jsonPath name))) (teamAfter m s.log name)) ∧
      ∀ before after p name answer, s.log = before ++ .answered p name answer :: after →
        ∃ earlier since, before = earlier ++ .opened p name :: since ∧ (∀ n, .opened p n ∉ since) ∧
          ∀ now, Reads (teamAfter m earlier name)
            (get py dictOf now (fun _ => (fileOf loads answer).getD .absent) name) := by
  intro s
  have hwritten := (written_final (Registration.text dumps) disk labels hlabels).log
  obtain ⟨hview, hanswered⟩ := writes_atomic (Registration.text dumps) hdisk labels
  refine ⟨fun name => hview name ▸ teamAfter_holds hwritten hm name, ?_⟩
  intro before after p name answer hlog
  obtain ⟨earlier, since, rfl, hsince, hanswer⟩ := hanswered before after p name answer hlog
  refine ⟨earlier, since, rfl, hsince, fun now => ?_⟩
  have hearlier : ∀ other r, .replaced other r ∈ earlier → r.Sound dumps loads other := by
    intro other r hmem
    have hlogged : .replaced other r ∈ s.log := by
      rw [hlog]
      simp [hmem]
    exact hwritten other r hlogged
  have hholds := teamAfter_holds hearlier hm name
  rw [hanswer] at hholds
  exact hholds.get now

/-! ## A reader that is overtaken -/

def arrival : Registration := ⟨builder, .finite 5⟩

def arrivalText : Chars :=
  ("\x7b\n  \"team\": \"t1\",\n  \"name\": \"worker-a\",\n  \"head\": \"builder\",\n  \"persistent\": true,\n" ++
    "  \"registered_at\": 10,\n  \"last_seen\": 5.0,\n  \"schema_version\": 1,\n" ++
    "  \"extra\": \x7b\n    \"colour\": \"red\"\n  \x7d\n\x7d\n").toList

def arrivalLoads (text : Chars) : Content :=
  if text = arrivalText then .document (.obj arrival.seen.toDict) else .unreadable

/-- One process writes twice, and is killed the second time; the other opens the first record
before it is removed. -/
def overtaking : List (Label Bool Registration) :=
  [⟨false, .mkstemp "worker-a" arrival "k3x_9f0q".toList⟩, ⟨true, .exists "worker-a"⟩, ⟨false, .flush 300⟩,
    ⟨false, .close⟩, ⟨false, .replace⟩, ⟨true, .exists "worker-a"⟩, ⟨true, .open⟩, ⟨true, .read 20⟩,
    ⟨false, .remove "worker-a"⟩,
    ⟨false, .mkstemp "worker-a" arrival "0_ab12cd".toList⟩, ⟨false, .flush 9⟩, ⟨false, .stop⟩, ⟨true, .read 300⟩,
    ⟨true, .eof⟩]

theorem overtaking_sound : ∀ l ∈ overtaking, ∀ name r suffix, l.act = .mkstemp name r suffix →
    r.Sound (fun _ => arrivalText) arrivalLoads name := by
  have harrival : arrival.Sound (fun _ => arrivalText) arrivalLoads "worker-a" :=
    ⟨⟨builder_complete, rfl, rfl⟩, if_pos rfl⟩
  intro l hl name r suffix hact
  simp only [overtaking, List.mem_cons, List.not_mem_nil] at hl
  rcases hl with rfl | rfl | rfl | rfl | rfl | rfl | rfl | rfl | rfl | rfl | rfl | rfl | rfl | rfl | hnone
  all_goals
    first
      | exact hnone.elim
      | cases hact
        exact harrival
      | cases hact

theorem overtaking_shared :
    let s := final (AtomicWrite.step (Registration.text fun _ => arrivalText)) (start bare) overtaking
    (∀ name, Holds noNumbers refuse name (fileOf arrivalLoads (s.disk.contents (jsonPath name)))
        (teamAfter (fun _ => none) s.log name)) ∧
      ∀ before after p name answer, s.log = before ++ .answered p name answer :: after →
        ∃ earlier since, before = earlier ++ .opened p name :: since ∧ (∀ n, .opened p n ∉ since) ∧
          ∀ now, Reads (teamAfter (fun _ => none) earlier name)
            (get noNumbers refuse now (fun _ => (fileOf arrivalLoads answer).getD .absent) name) :=
  shared_registry noNumbers refuse (fun _ => arrivalText) arrivalLoads bare_valid (fun _ => none) (fun _ => rfl)
    overtaking overtaking_sound

end Swarm.Agents
