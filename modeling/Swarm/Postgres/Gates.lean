import Swarm.Postgres.Code
import Swarm.Postgres.Migration

/-!
# The gate of Python and the gate of the database

`validate_send` takes literals, the broadcast and a wildcard for each class. The checks take
literals, and no broadcast lane as a sender.
-/

namespace Swarm.Postgres

open Swarm.Bus Swarm.Kanban

/-! ## The gate of Python -/

def ClassWildcard (name : String) : Prop := ∃ c : AgentClass, name = WILDCARD_PREFIX ++ c.value

def Addressable (name : String) : Prop :=
  name ∈ VALID_PARTICIPANTS ∨ name = BROADCAST ∨ ClassWildcard name

theorem mem_all (c : AgentClass) : c ∈ AgentClass.all := by cases c <;> decide

theorem startsWildcard_iff (name : String) :
    startsWildcard name = true ↔ ∃ rest, name = WILDCARD_PREFIX ++ String.ofList rest := by
  unfold startsWildcard
  rw [List.isPrefixOf_iff_prefix]
  constructor
  · rintro ⟨rest, hrest⟩
    refine ⟨rest, String.toList_injective ?_⟩
    rw [String.toList_append, String.toList_ofList, hrest]
  · rintro ⟨rest, rfl⟩
    rw [String.toList_append]
    exact List.prefix_append _ _

theorem classWildcard_iff (name : String) :
    ClassWildcard name ↔ startsWildcard name = true ∧
      String.ofList (name.toList.drop WILDCARD_PREFIX.toList.length) ∈ AgentClass.all.map (·.value) := by
  have hdrop : ∀ rest : List Char,
      String.ofList ((WILDCARD_PREFIX ++ String.ofList rest).toList.drop WILDCARD_PREFIX.toList.length) =
        String.ofList rest := by
    intro rest
    rw [String.toList_append, List.drop_left, String.toList_ofList]
  rw [startsWildcard_iff]
  constructor
  · rintro ⟨c, rfl⟩
    have hvalue : c.value = String.ofList c.value.toList := String.ofList_toList.symm
    refine ⟨⟨c.value.toList, by rw [← hvalue]⟩, ?_⟩
    rw [hvalue, hdrop, ← hvalue]
    exact List.mem_map_of_mem (mem_all c)
  · rintro ⟨⟨rest, rfl⟩, hclass⟩
    rw [hdrop] at hclass
    obtain ⟨c, -, hc⟩ := List.mem_map.mp hclass
    exact ⟨c, by rw [← hc]⟩

theorem validParticipant_iff (name : String) :
    (validParticipant name false = true ↔ name ∈ VALID_PARTICIPANTS) ∧
      (validParticipant name true = true ↔ Addressable name) := by
  unfold validParticipant Addressable
  rw [classWildcard_iff]
  constructor
  · split
    · next hmem => simp [hmem]
    · next hmem => simp [hmem]
  · split
    · next hmem => simp [hmem]
    · next hmem =>
      simp only [Bool.not_true, Bool.false_eq_true, if_false, hmem, false_or]
      split
      · next hall => simp [hall]
      · next hall =>
        split
        · next hstarts => simp [hall, hstarts]
        · next hstarts => simp [hall, hstarts]

theorem validateSend_ok_iff (sp : Spelling) (sender recipient msgType : String) :
    validateSend sp sender recipient msgType = .ok () ↔
      sender ∈ VALID_PARTICIPANTS ∧ Addressable recipient ∧ msgType ∈ VALID_MSG_TYPES := by
  rw [← (validParticipant_iff sender).1, ← (validParticipant_iff recipient).2]
  unfold validateSend
  split
  · next hsender => simp_all
  · next hsender =>
    split
    · next hrecipient => simp_all
    · next hrecipient =>
      split
      · next htype => simp_all
      · next htype => simp_all

/-! ## The gate of the database -/

theorem lane_valid_iff (recipient : String) :
    lane recipient ∈ VALID_PARTICIPANTS ↔
      recipient ∈ VALID_PARTICIPANTS ∨ recipient = BROADCAST := by
  unfold lane
  split
  · next hall => exact iff_of_true (by decide) (.inr hall)
  · next hall => simp [hall]

/-- What `send` stores for a message. -/
def stored (v : Values) (id : Nat) (now : ℚ) : Row :=
  ({ v with recipient := lane v.recipient } : Values).row id now

theorem stored_known_iff (v : Values) (id : Nat) (now : ℚ) :
    Known (stored v id now) ↔ (v.sender ∈ VALID_PARTICIPANTS ∧ v.sender ≠ "all") ∧
      (v.recipient ∈ VALID_PARTICIPANTS ∨ v.recipient = BROADCAST) ∧
        v.msgType ∈ VALID_MSG_TYPES := by
  rw [← lane_valid_iff]
  simp [Known, stored, Values.row, SENDER_VALUES, RECIPIENT_VALUES, MSG_TYPE_VALUES, mem_sortedSet]

theorem not_valid_of_classWildcard {name : String} (h : ClassWildcard name) :
    name ∉ VALID_PARTICIPANTS ∧ name ≠ BROADCAST := by
  obtain ⟨c, rfl⟩ := h
  cases c <;> decide +kernel

/-- A message from the broadcast lane, or to a class. -/
def Drifts (v : Values) : Prop :=
  v.sender ∈ VALID_PARTICIPANTS ∧ v.msgType ∈ VALID_MSG_TYPES ∧
    (v.sender = "all" ∧ Addressable v.recipient ∨ ClassWildcard v.recipient)

/-- **When the two gates agree.** -/
theorem gates_agree_iff (sp : Spelling) (v : Values) (id : Nat) (now : ℚ) :
    (validateSend sp v.sender v.recipient v.msgType = .ok () ↔
      ∀ w ∈ widenings, w.constraint.accepts (stored v id now) = true) ↔ ¬ Drifts v := by
  rw [validateSend_ok_iff, ← known_iff, stored_known_iff]
  have hclass : ClassWildcard v.recipient → v.recipient ∉ VALID_PARTICIPANTS ∧ v.recipient ≠ BROADCAST :=
    not_valid_of_classWildcard
  unfold Drifts Addressable
  tauto

/-! ## A message to a class -/

def toEveryCodex : Values :=
  ⟨"dispatch", "agent:codex", "task_delegated", "delegated t1", some "t1", none, none, [], none⟩

theorem class_refused :
    ¬ (validateSend plainSpelling toEveryCodex.sender toEveryCodex.recipient toEveryCodex.msgType =
      .ok () ↔
      ∀ w ∈ widenings, w.constraint.accepts (stored toEveryCodex 1 0) = true) := by
  intro h
  have hclass : ClassWildcard toEveryCodex.recipient := ⟨.codex, by decide +kernel⟩
  have hgate := (validateSend_ok_iff plainSpelling _ _ _).mpr
    ⟨show toEveryCodex.sender ∈ VALID_PARTICIPANTS by decide, .inr (.inr hclass),
      show toEveryCodex.msgType ∈ VALID_MSG_TYPES by decide⟩
  have hknown := (stored_known_iff toEveryCodex 1 0).mp ((known_iff _).mpr (h.mp hgate))
  obtain ⟨hvalid, hall⟩ := not_valid_of_classWildcard hclass
  exact hknown.2.1.elim hvalid hall

end Swarm.Postgres
