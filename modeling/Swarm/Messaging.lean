import Mathlib.Data.List.Perm.Basic
import Mathlib.Data.Rat.Defs
import Mathlib.Logic.Function.Basic
import Swarm.Lib.Runs

/-!
# An inbox that processes share, as `messaging.py` keeps it

A call reads the file in one step and replaces it in another. Other calls may come between.
-/

namespace Swarm.Messaging

open Swarm.Lib

variable {Proc Message : Type*}

/-! ## The file -/

/-- What a reader finds at the path of an inbox. -/
inductive File (Message : Type*)
  | missing
  /-- Text that is not a JSON array. -/
  | unreadable
  | messages (msgs : List Message)

/-- `_read_raw` -/
def File.readRaw : File Message → List Message
  | .missing | .unreadable => []
  | .messages msgs => msgs

@[simp] theorem readRaw_messages (msgs : List Message) : (File.messages msgs).readRaw = msgs := rfl

/-- `xs[start:]` -/
def sliceFrom (start : Int) (xs : List Message) : List Message :=
  xs.drop (if start < 0 then max 0 (xs.length + start) else start).toNat

/-- The last `maxMessages` of a list that is too long. -/
def bounded (maxMessages : Int) (msgs : List Message) : List Message :=
  if (msgs.length : Int) > maxMessages then sliceFrom (-maxMessages) msgs else msgs

/-! ## Calls -/

/-- A call between its two steps, with what it read. -/
inductive Call (Message : Type*)
  | append (message : Message) (msgs : List Message)
  | drain (msgs : List Message)

/-- What a call writes. -/
def Call.payload (maxMessages : Int) : Call Message → List Message
  | .append message msgs => bounded maxMessages (msgs ++ [message])
  | .drain _ => []

/-- `returned` has the message of each `append` that returned, `drained` the result of each
`drain`. -/
structure State (Proc Message : Type*) where
  file : File Message
  calls : Proc → Option (Call Message)
  returned : List Message
  drained : List (List Message)

/-- One step of one process. -/
inductive Label (Proc Message : Type*)
  | append (p : Proc) (message : Message)
  | drain (p : Proc)
  /-- `os.replace`, which may raise. -/
  | replace (p : Proc) (succeeds : Bool)

variable [DecidableEq Proc]

def State.setCall (s : State Proc Message) (p : Proc) (call : Option (Call Message)) :
    State Proc Message :=
  { s with calls := Function.update s.calls p call }

def State.finish (s : State Proc Message) (maxMessages : Int) (call : Call Message) :
    State Proc Message :=
  match call with
  | .append message _ =>
    { s with file := .messages (call.payload maxMessages), returned := s.returned ++ [message] }
  | .drain msgs =>
    { s with file := .messages (call.payload maxMessages), drained := s.drained ++ [msgs] }

/-- A step that the process cannot make where it stands gives `none`. -/
def step (maxMessages : Int) (l : Label Proc Message) (s : State Proc Message) :
    Option (State Proc Message) :=
  match l with
  | .append p message =>
    match s.calls p with
    | none => some (s.setCall p (some (.append message s.file.readRaw)))
    | some _ => none
  | .drain p =>
    match s.calls p with
    | none => some (s.setCall p (some (.drain s.file.readRaw)))
    | some _ => none
  | .replace p succeeds =>
    match s.calls p with
    | none => none
    | some call =>
      some (if succeeds then (s.finish maxMessages call).setCall p none else s.setCall p none)

/-! ## What must not be lost -/

/-- `before` was in the file at the start. Every message whose `append` returned is in one result
of a `drain` or in the file, and nothing else is. -/
def Accounted (before : List Message) (s : State Proc Message) : Prop :=
  (before ++ s.returned).Perm (s.drained.flatten ++ s.file.readRaw)

/-- No more than `maxMessages` messages are neither drained nor on their way. -/
def Within (maxMessages : Int) (before : List Message) (s : State Proc Message) : Prop :=
  ((before ++ s.returned).length : Int) ≤ s.drained.flatten.length + maxMessages

/-- What the call would have read now. -/
def Call.reread (msgs : List Message) : Call Message → Call Message
  | .append message _ => .append message msgs
  | .drain _ => .drain msgs

/-- The messages that the call writes and returns. -/
def Call.outcome (maxMessages : Int) (call : Call Message) : List Message :=
  match call with
  | .append .. => call.payload maxMessages
  | .drain msgs => msgs

/-- A call that replaces the file comes to what it would have come to by reading the file now. -/
def UpToDate (maxMessages : Int) (s : State Proc Message) : Label Proc Message → Prop
  | .replace p true => ∀ call, s.calls p = some call →
    (call.outcome maxMessages).Perm ((call.reread s.file.readRaw).outcome maxMessages)
  | _ => True

/-! ## One step -/

theorem bounded_of_length_le {maxMessages : Int} {msgs : List Message}
    (h : (msgs.length : Int) ≤ maxMessages) : bounded maxMessages msgs = msgs := by
  rw [bounded, if_neg (by omega)]

theorem accounted_step_iff {maxMessages : Int} {before : List Message} {s s' : State Proc Message}
    {l : Label Proc Message} (h : Accounted before s) (hwithin : Within maxMessages before s')
    (hstep : step maxMessages l s = some s') : Accounted before s' ↔ UpToDate maxMessages s l := by
  -- Only a replace that succeeds changes the file.
  cases l with
  | append p message =>
    simp only [step] at hstep
    split at hstep
    · obtain rfl := Option.some.inj hstep
      exact iff_of_true h trivial
    · simp at hstep
  | drain p =>
    simp only [step] at hstep
    split at hstep
    · obtain rfl := Option.some.inj hstep
      exact iff_of_true h trivial
    · simp at hstep
  | replace p succeeds =>
    simp only [step] at hstep
    cases hcall : s.calls p with
    | none => simp [hcall] at hstep
    | some call =>
      simp only [hcall, Option.some.injEq] at hstep
      cases succeeds with
      | false =>
        obtain rfl := hstep
        exact iff_of_true h trivial
      | true =>
        obtain rfl : (s.finish maxMessages call).setCall p none = s' := by simpa using hstep
        have hlen := h.length_eq
        simp only [UpToDate, hcall, Option.some.injEq, forall_eq']
        cases call with
        | append message msgs =>
          -- The box is not full, so nothing is sliced off.
          have hfits : bounded maxMessages (s.file.readRaw ++ [message]) = s.file.readRaw ++ [message] := by
            refine bounded_of_length_le ?_
            simp only [Within, State.finish, State.setCall,
              List.length_append, List.length_singleton] at hwithin hlen ⊢
            omega
          have hsum : (before ++ (s.returned ++ [message])).Perm
              (s.drained.flatten ++ (s.file.readRaw ++ [message])) := by
            rw [← List.append_assoc, ← List.append_assoc]
            exact h.append_right [message]
          simp only [Accounted, State.finish, State.setCall, readRaw_messages, Call.outcome, Call.payload,
            Call.reread, hfits]
          rw [hsum.congr_left, List.perm_append_left_iff, List.perm_comm]
        | drain msgs =>
          simp only [Accounted, State.finish, State.setCall, readRaw_messages, Call.outcome, Call.payload,
            Call.reread, List.flatten_append, List.flatten_singleton, List.append_nil]
          rw [h.congr_left, List.perm_append_left_iff, List.perm_comm]

/-! ## Any interleaving -/

def start (file : File Message) : State Proc Message := ⟨file, fun _ => none, [], []⟩

/-- **When no message is lost and none is returned twice.** -/
theorem accounted_iff (maxMessages : Int) (file : File Message) (labels : List (Label Proc Message))
    (hwithin : ∀ taken ∈ path (step maxMessages) (start file) labels,
      Within maxMessages file.readRaw taken.after) :
    (∀ taken ∈ path (step maxMessages) (start file) labels, Accounted file.readRaw taken.after) ↔
      ∀ taken ∈ path (step maxMessages) (start file) labels,
        UpToDate maxMessages taken.before taken.label :=
  path_good_iff_of_allowed (fun _ _ _ (_ : True) _ _ => trivial)
    (fun _ _ _ _ h hallowed hstep => accounted_step_iff h hallowed hstep) (start file) labels trivial
    (by simp [Accounted, start]) hwithin

/-! ## Two appends at once -/

def inTurn : List (Label Nat String) :=
  [.append 0 "hello", .replace 0 true, .drain 1, .replace 1 true]

theorem inTurn_accounted :
    (final (step 256) (start .missing) inTurn).drained = [["hello"]] ∧
      ∀ taken ∈ path (step 256) (start .missing) inTurn, Accounted [] taken.after := by
  refine ⟨rfl, (accounted_iff 256 .missing inTurn ?_).mpr ?_⟩
  · simp [path, inTurn, step, start, State.setCall, State.finish, Within, File.readRaw, Call.payload, bounded]
  · simp [path, inTurn, step, start, State.setCall, State.finish, UpToDate, Call.outcome, Call.reread,
      Call.payload, bounded]

/-- Both read the empty inbox, and the second replaces what the first wrote. -/
def overtaken : List (Label Nat String) :=
  [.append 0 "hello", .append 1 "there", .replace 0 true, .replace 1 true]

theorem overtaken_loses :
    (∀ taken ∈ path (step 256) (start .missing) overtaken, Within 256 [] taken.after) ∧
      ¬ ∀ taken ∈ path (step 256) (start .missing) overtaken, Accounted [] taken.after := by
  constructor
  · simp [path, overtaken, step, start, State.setCall, State.finish, Within]
  · simp [path, overtaken, step, start, State.setCall, State.finish, Accounted, File.readRaw, Call.payload,
      bounded]

end Swarm.Messaging
