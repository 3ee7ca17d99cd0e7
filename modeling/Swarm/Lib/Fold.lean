import Mathlib.Order.Lattice
import Mathlib.Order.Monotone.Basic

/-! # An interval that is folded onto its lower edge -/

namespace Swarm.Lib

variable {α : Type*} [LinearOrder α] {low high : α}

variable (low high) in
/-- The interval goes to `low`, and all else stays. -/
def foldDown (x : α) : α := if low ≤ x ∧ x ≤ high then low else x

theorem foldDown_le (x : α) : foldDown low high x ≤ x := by
  unfold foldDown
  split
  · next h => exact h.1
  · exact le_rfl

theorem le_foldDown {c x : α} (hc : c ≤ low) (hx : c ≤ x) : c ≤ foldDown low high x := by
  unfold foldDown
  split
  · exact hc
  · exact hx

theorem foldDown_avoids (x : α) : ¬ (low < foldDown low high x ∧ foldDown low high x ≤ high) := by
  unfold foldDown
  split
  · exact fun h => lt_irrefl _ h.1
  · next hout => exact fun h => hout ⟨h.1.le, h.2⟩

theorem foldDown_mono : Monotone (foldDown low high) := by
  intro x y hxy
  unfold foldDown
  split
  · next hx =>
    split
    · exact le_rfl
    · exact hx.1.trans hxy
  · next hx =>
    split
    · next hy =>
      -- Below the interval, as it is not in it and not above `y`.
      exact le_of_not_ge fun hlow => hx ⟨hlow, hxy.trans hy.2⟩
    · exact hxy

theorem foldDown_idem (x : α) : foldDown low high (foldDown low high x) = foldDown low high x := by
  have hfixed : ∀ y, ¬ (low < y ∧ y ≤ high) → foldDown low high y = y := by
    intro y hy
    unfold foldDown
    split
    · next h => exact (h.1.eq_or_lt).elim id fun hlt => absurd ⟨hlt, h.2⟩ hy
    · rfl
  exact hfixed _ (foldDown_avoids x)

end Swarm.Lib
