import Mathlib.Data.List.Chain

/-!
# A value that settles

A value that each step either keeps or moves to a target settles after one change, if a target is
its own target.
-/

namespace Swarm.Lib

variable {α : Type*} [DecidableEq α]

/-- How often a value changes along a list of its later values. -/
def changes (a : α) : List α → Nat
  | [] => 0
  | b :: l => (if b = a then 0 else 1) + changes b l

theorem changes_of_fixed {target : α → α} {a : α} (ha : target a = a) {l : List α}
    (hl : (a :: l).IsChain fun b c => c = b ∨ c = target b) : changes a l = 0 := by
  induction l with
  | nil => rfl
  | cons b l ih =>
    rw [List.isChain_cons_cons] at hl
    have hb : b = a := by rcases hl.1 with h | h <;> simp [h, ha]
    subst hb
    simp [changes, ih hl.2]

theorem changes_le_one {target : α → α} (htarget : ∀ a, target (target a) = target a) (a : α)
    {l : List α} (hl : (a :: l).IsChain fun b c => c = b ∨ c = target b) : changes a l ≤ 1 := by
  induction l with
  | nil => simp [changes]
  | cons b l ih =>
    rw [List.isChain_cons_cons] at hl
    rcases hl.1 with rfl | rfl
    · simpa [changes] using ih hl.2
    · -- From a target on, nothing changes.
      have h := changes_of_fixed (htarget a) hl.2
      simp only [changes, h]
      split <;> omega

end Swarm.Lib
