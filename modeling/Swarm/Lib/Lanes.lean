import Mathlib.Data.List.Basic

/-!
# Two lanes in one list

A reader takes the first entries of two lanes together and should have one of them whole.
-/

namespace Swarm.Lib

variable {α : Type*} (p q : α → Bool)

/-- The other lane has an entry only after `n` of the lane. -/
def AfterFirst (n : Nat) (xs : List α) : Prop :=
  ∀ earlier x later, xs = earlier ++ x :: later → q x = true → n ≤ (earlier.filter p).length

variable {p q}

theorem afterFirst_nil (n : Nat) : AfterFirst p q n [] := by
  intro earlier x later h
  simp at h

theorem afterFirst_of_none {n : Nat} {xs : List α} (h : ∀ x ∈ xs, q x = false) :
    AfterFirst p q n xs := by
  rintro earlier x later rfl hq
  simp [h x (by simp)] at hq

theorem afterFirst_cons {n : Nat} {x : α} {xs : List α} :
    AfterFirst p q n (x :: xs) ↔
      (q x = true → n = 0) ∧ AfterFirst p q (n - if p x then 1 else 0) xs := by
  constructor
  · intro h
    refine ⟨fun hq => Nat.le_zero.mp (h [] x xs rfl hq), fun earlier y later heq hq => ?_⟩
    have hn := h (x :: earlier) y later (by rw [heq]; rfl) hq
    rw [List.filter_cons] at hn
    split at hn
    · next hp => simp only [hp, if_true, List.length_cons] at hn ⊢; omega
    · next hp => simp only [hp, Bool.false_eq_true, if_false] at hn ⊢; omega
  · rintro ⟨hfirst, hrest⟩ earlier y later heq hq
    cases earlier with
    | nil =>
      obtain ⟨rfl, -⟩ := List.cons.inj heq
      exact Nat.le_of_eq (hfirst hq)
    | cons z earlier =>
      obtain ⟨rfl, htail⟩ := List.cons.inj heq
      have hn := hrest earlier y later htail hq
      rw [List.filter_cons]
      split at hn
      · next hp => simp only [hp, if_true, List.length_cons]; omega
      · next hp => simp only [hp, Bool.false_eq_true, if_false]; omega

/-- The first `n` of both lanes are one lane, whole, exactly when that lane has at most `n` entries
and the other starts after `n` of them. -/
theorem take_lanes_iff (hdisjoint : ∀ x, p x = true → q x = false) (n : Nat) (xs : List α) :
    (xs.filter fun x => p x || q x).take n = xs.filter p ↔
      (xs.filter p).length ≤ n ∧ AfterFirst p q n xs := by
  induction xs generalizing n with
  | nil => simp [afterFirst_nil]
  | cons x xs ih =>
    rw [afterFirst_cons]
    cases hp : p x with
    | true =>
      have hq := hdisjoint x hp
      cases n with
      | zero => simp [hp]
      | succ n => simp [hp, hq, ih]
    | false =>
      cases hq : q x with
      | false => simp [hp, hq, ih]
      | true =>
        cases n with
        | zero =>
          have hzero := ih 0
          simpa [hp, hq] using hzero
        | succ n =>
          have hmem : x ∉ xs.filter p := by simp [hp]
          refine iff_of_false (fun h => ?_) (by simp)
          rw [List.filter_cons_of_pos (by simp [hq]), List.filter_cons_of_neg (by simp [hp]),
            List.take_succ_cons] at h
          exact hmem (h ▸ List.mem_cons_self)

end Swarm.Lib
