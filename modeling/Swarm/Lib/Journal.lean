import Mathlib.Data.List.Basic

/-!
# Journals

A journal lists the changes of one value: where each change started, nothing at first,
and where it led. Replaying a linked journal gives the value it keeps.
-/

namespace Swarm.Lib

variable {α : Type*}

/-- Each change starts where the one before it led, and leads somewhere else. -/
def Linked (start : Option α) : List (Option α × α) → Prop
  | [] => True
  | (src, dst) :: rest => src = start ∧ src ≠ some dst ∧ Linked (some dst) rest

/-- What a log of changes comes to. -/
def replay (start : Option α) (log : List (Option α × α)) : Option α :=
  log.foldl (fun _ change => some change.2) start

/-- The journal of a value that is now `cur`. -/
def Journal (log : List (Option α × α)) (cur : α) : Prop :=
  Linked none log ∧ replay none log = some cur

theorem replay_snoc (start : Option α) (log : List (Option α × α)) (change : Option α × α) :
    replay start (log ++ [change]) = some change.2 := by
  simp [replay]

theorem linked_snoc (start : Option α) (log : List (Option α × α)) (src : Option α) (dst : α) :
    Linked start (log ++ [(src, dst)]) ↔
      Linked start log ∧ src = replay start log ∧ src ≠ some dst := by
  induction log generalizing start with
  | nil => simp [Linked, replay]
  | cons change rest ih =>
    obtain ⟨s, d⟩ := change
    simp only [List.cons_append, Linked, ih]
    tauto

theorem Journal.first (a : α) : Journal [(none, a)] a :=
  ⟨⟨rfl, by simp, trivial⟩, rfl⟩

theorem Journal.next {log : List (Option α × α)} {a b : α} (h : Journal log a) (hab : b ≠ a) :
    Journal (log ++ [(some a, b)]) b := by
  refine ⟨(linked_snoc _ _ _ _).mpr ⟨h.1, h.2.symm, ?_⟩, replay_snoc _ _ _⟩
  simpa using hab.symm

theorem Journal.ne_nil {log : List (Option α × α)} {a : α} (h : Journal log a) : log ≠ [] := by
  rintro rfl
  simpa [replay] using h.2

end Swarm.Lib
