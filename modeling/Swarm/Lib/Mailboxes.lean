import Mathlib.Data.List.DropRight
import Mathlib.Logic.Function.Basic

/-!
# Mailboxes with a bound

Every recipient has a mailbox, from the first message to it or the first drain of it on. A broadcast
goes to the mailboxes that are there. A bounded mailbox drops its oldest messages.
-/

namespace Swarm.Lib

variable {Recipient Message α : Type*} [DecidableEq Recipient]

/-! ## The last of a list -/

theorem rtake_of_length_le {n : Nat} {xs : List α} (h : xs.length ≤ n) : xs.rtake n = xs := by
  rw [List.rtake, Nat.sub_eq_zero_of_le h, List.drop_zero]

theorem rtake_rtake_succ (n : Nat) (xs : List α) : (xs.rtake (n + 1)).rtake n = xs.rtake n := by
  simp only [List.rtake_eq_reverse_take_reverse, List.reverse_reverse, List.take_take]
  rw [Nat.min_eq_left (Nat.le_succ n)]

theorem rtake_snoc (n : Nat) (xs : List α) (x : α) :
    (xs.rtake n ++ [x]).rtake n = (xs ++ [x]).rtake n := by
  -- What was dropped before is not missed.
  cases n with
  | zero => rw [List.rtake_zero, List.rtake_zero]
  | succ n => rw [List.rtake_concat_succ, List.rtake_concat_succ, rtake_rtake_succ]

/-! ## Events -/

/-- What happens to mailboxes. -/
inductive Mail (Recipient Message : Type*)
  | send (recipient : Recipient) (message : Message)
  | broadcast (message : Message)
  | drain (recipient : Recipient)

def Mail.map {Message' : Type*} (f : Message → Message') :
    Mail Recipient Message → Mail Recipient Message'
  | .send recipient message => .send recipient (f message)
  | .broadcast message => .broadcast (f message)
  | .drain recipient => .drain recipient

/-- One mailbox without a bound, after one event more. -/
def arrive (r : Recipient) (box : Option (List Message)) :
    Mail Recipient Message → Option (List Message)
  | .send r' message => if r' = r then some (box.getD [] ++ [message]) else box
  | .broadcast message => box.map (· ++ [message])
  | .drain r' => if r' = r then some [] else box

/-- The messages to `r` since its last drain: those sent to it, and the broadcasts that found its
mailbox. -/
def pending (r : Recipient) (history : List (Mail Recipient Message)) : Option (List Message) :=
  history.foldl (arrive r) none

/-- The mailboxes with their bound, after one event more. -/
def deliverMail (n : Nat) (boxes : Recipient → Option (List Message)) :
    Mail Recipient Message → Recipient → Option (List Message)
  | .send r' message =>
    fun r => if r' = r then some (((boxes r).getD [] ++ [message]).rtake n) else boxes r
  | .broadcast message => fun r => (boxes r).map fun msgs => (msgs ++ [message]).rtake n
  | .drain r' => fun r => if r' = r then some [] else boxes r

/-- The mailboxes after a history, each with `n` messages at most. -/
def mailboxes (n : Nat) (history : List (Mail Recipient Message)) :
    Recipient → Option (List Message) :=
  history.foldl (deliverMail n) fun _ => none

theorem pending_snoc (r : Recipient) (history : List (Mail Recipient Message))
    (event : Mail Recipient Message) :
    pending r (history ++ [event]) = arrive r (pending r history) event := by
  simp [pending]

theorem mailboxes_snoc (n : Nat) (history : List (Mail Recipient Message))
    (event : Mail Recipient Message) :
    mailboxes n (history ++ [event]) = deliverMail n (mailboxes n history) event := by
  simp [mailboxes]

theorem deliverMail_send (n : Nat) (boxes : Recipient → Option (List Message)) (r : Recipient)
    (message : Message) :
    deliverMail n boxes (.send r message) =
      Function.update boxes r (some (((boxes r).getD [] ++ [message]).rtake n)) := by
  funext r'
  rw [Function.update_apply]
  by_cases heq : r' = r
  · simp [deliverMail, heq]
  · have hne : r ≠ r' := fun h => heq h.symm
    simp [deliverMail, heq, hne]

theorem deliverMail_drain (n : Nat) (boxes : Recipient → Option (List Message)) (r : Recipient) :
    deliverMail n boxes (.drain r) = Function.update boxes r (some []) := by
  funext r'
  rw [Function.update_apply]
  by_cases heq : r' = r
  · simp [deliverMail, heq]
  · have hne : r ≠ r' := fun h => heq h.symm
    simp [deliverMail, heq, hne]

/-! ## What a mailbox holds -/

/-- The bound may be applied at every event, or at the end. -/
theorem deliverMail_rtake {n : Nat} {boxes : Recipient → Option (List Message)} {r : Recipient}
    {box : Option (List Message)} (hbox : boxes r = box.map (·.rtake n))
    (event : Mail Recipient Message) :
    deliverMail n boxes event r = (arrive r box event).map (·.rtake n) := by
  cases event with
  | send r' message =>
    simp only [deliverMail, arrive]
    split
    · rw [hbox, Option.map_some]
      cases box with
      | none => rfl
      | some msgs => exact congrArg some (rtake_snoc n msgs message)
    · exact hbox
  | broadcast message =>
    simp only [deliverMail, arrive, hbox]
    cases box with
    | none => rfl
    | some msgs => exact congrArg some (rtake_snoc n msgs message)
  | drain r' =>
    simp only [deliverMail, arrive]
    split
    · rw [Option.map_some, List.rtake_nil]
    · exact hbox

/-- **A mailbox holds the last `n` of what it would hold without a bound.** -/
theorem mailboxes_eq (n : Nat) (history : List (Mail Recipient Message)) (r : Recipient) :
    mailboxes n history r = (pending r history).map (·.rtake n) := by
  induction history using List.reverseRecOn with
  | nil => rfl
  | append_singleton history event ih =>
    rw [mailboxes_snoc, pending_snoc]
    exact deliverMail_rtake ih event

/-! ## What arrives -/

theorem arrive_grows {r : Recipient} (box : Option (List Message)) {event : Mail Recipient Message}
    (hdrain : event ≠ .drain r) :
    ∃ more, (arrive r box event).getD [] = box.getD [] ++ more ∧
      ∀ m ∈ more, event = .broadcast m ∨ event = .send r m := by
  cases event with
  | send r' message =>
    simp only [arrive]
    split
    · next heq =>
      subst heq
      exact ⟨[message], rfl, fun m hm => .inr (by rw [List.mem_singleton.mp hm])⟩
    · exact ⟨[], by rw [List.append_nil], by simp⟩
  | broadcast message =>
    cases box with
    | none => exact ⟨[], rfl, by simp⟩
    | some msgs => exact ⟨[message], rfl, fun m hm => .inl (by rw [List.mem_singleton.mp hm])⟩
  | drain r' =>
    have hother : r' ≠ r := fun heq => hdrain (by rw [heq])
    simp only [arrive, if_neg hother]
    exact ⟨[], by rw [List.append_nil], by simp⟩

theorem pending_append {r : Recipient} (past : List (Mail Recipient Message))
    {later : List (Mail Recipient Message)} (hdrain : .drain r ∉ later) :
    ∃ more, (pending r (past ++ later)).getD [] = (pending r past).getD [] ++ more ∧
      ∀ m ∈ more, .broadcast m ∈ later ∨ .send r m ∈ later := by
  induction later using List.reverseRecOn with
  | nil => exact ⟨[], by simp, by simp⟩
  | append_singleton later event ih =>
    rw [List.mem_append, not_or] at hdrain
    obtain ⟨more, hmore, hfrom⟩ := ih hdrain.1
    have hother : event ≠ .drain r := fun heq => hdrain.2 (by rw [heq, List.mem_singleton])
    obtain ⟨new, hnew, hevent⟩ := arrive_grows (pending r (past ++ later)) hother
    refine ⟨more ++ new, ?_, fun m hm => ?_⟩
    · rw [← List.append_assoc, pending_snoc, hnew, hmore, List.append_assoc]
    simp only [List.mem_append, List.mem_singleton]
    rcases List.mem_append.mp hm with hold | hm
    · exact (hfrom m hold).imp .inl .inl
    · exact (hevent m hm).imp (fun h => .inr h.symm) fun h => .inr h.symm

theorem mem_pending {r : Recipient} {history : List (Mail Recipient Message)} {m : Message}
    (hm : m ∈ (pending r history).getD []) : .broadcast m ∈ history ∨ .send r m ∈ history := by
  induction history using List.reverseRecOn with
  | nil => simp [pending] at hm
  | append_singleton history event ih =>
    rw [pending_snoc] at hm
    simp only [List.mem_append, List.mem_singleton]
    by_cases hdrain : event = .drain r
    · simp [hdrain, arrive] at hm
    · obtain ⟨new, hnew, hevent⟩ := arrive_grows (pending r history) hdrain
      rw [hnew] at hm
      rcases List.mem_append.mp hm with hold | hm
      · exact (ih hold).imp .inl .inl
      · exact (hevent m hm).imp (fun h => .inr h.symm) fun h => .inr h.symm

theorem pending_map {Message' : Type*} (f : Message → Message') (r : Recipient)
    (history : List (Mail Recipient Message)) :
    pending r (history.map (Mail.map f)) = (pending r history).map (List.map f) := by
  induction history using List.reverseRecOn with
  | nil => rfl
  | append_singleton history event ih =>
    rw [List.map_append, List.map_singleton, pending_snoc, pending_snoc, ih]
    cases event with
    | send r' message =>
      simp only [Mail.map, arrive]
      split
      · cases pending r history <;> simp
      · rfl
    | broadcast message => cases pending r history <;> simp [Mail.map, arrive]
    | drain r' =>
      simp only [Mail.map, arrive]
      split <;> rfl

end Swarm.Lib
