import Mathlib.Data.List.Induction
import Mathlib.Order.Lattice

/-!
# The newest of a list

Entries come in order of arrival and carry a time. The one with the greatest time is the newest, and
of two with one time the later arrival.
-/

namespace Swarm.Lib

variable {α β : Type*} [LinearOrder β] (time : α → β)

/-- Of two of one time the later one counts. -/
def newerOf (best : Option α) (x : α) : Option α :=
  if best.all fun b => time b ≤ time x then some x else best

/-- The newest of a list. -/
def newest (xs : List α) : Option α := xs.foldl (newerOf time) none

theorem newest_snoc (xs : List α) (x : α) :
    newest time (xs ++ [x]) = newerOf time (newest time xs) x := by
  simp [newest]

theorem newerOf_isSome (best : Option α) (x : α) : (newerOf time best x).isSome := by
  cases best with
  | none => simp [newerOf]
  | some b =>
    unfold newerOf
    split <;> rfl

theorem eq_nil_of_newest {xs : List α} (h : newest time xs = none) : xs = [] := by
  rcases List.eq_nil_or_concat xs with rfl | ⟨ys, last, rfl⟩
  · rfl
  · have hsome := newerOf_isSome time (newest time ys) last
    rw [List.concat_eq_append, newest_snoc] at h
    simp [h] at hsome

/-- What comes before `x` is no newer, and what comes after is older. -/
def IsNewest (xs : List α) (x : α) : Prop :=
  ∃ earlier later, xs = earlier ++ x :: later ∧ (∀ e ∈ earlier, time e ≤ time x) ∧
    ∀ e ∈ later, time e < time x

variable {time}

theorem IsNewest.mem {xs : List α} {x : α} (h : IsNewest time xs x) : x ∈ xs := by
  obtain ⟨earlier, later, rfl, -, -⟩ := h
  simp

theorem IsNewest.le {xs : List α} {x : α} (h : IsNewest time xs x) : ∀ e ∈ xs, time e ≤ time x := by
  obtain ⟨earlier, later, rfl, hearlier, hlater⟩ := h
  intro e he
  rcases List.mem_append.mp he with he | he
  · exact hearlier e he
  · rcases List.mem_cons.mp he with rfl | he
    · exact le_rfl
    · exact le_of_lt (hlater e he)

theorem isNewest_snoc {xs : List α} {x y : α} :
    IsNewest time (xs ++ [x]) y ↔
      (y = x ∧ ∀ e ∈ xs, time e ≤ time x) ∨ (IsNewest time xs y ∧ time x < time y) := by
  constructor
  · rintro ⟨earlier, later, heq, hearlier, hlater⟩
    rcases List.eq_nil_or_concat later with rfl | ⟨later, last, rfl⟩
    · obtain ⟨rfl, hx⟩ := List.append_inj' heq rfl
      obtain rfl : x = y := by simpa using hx
      exact .inl ⟨rfl, hearlier⟩
    · have heq' : xs ++ [x] = (earlier ++ y :: later) ++ [last] := by simpa using heq
      obtain ⟨rfl, hx⟩ := List.append_inj' heq' rfl
      obtain rfl : x = last := by simpa using hx
      exact .inr ⟨⟨earlier, later, rfl, hearlier, fun e he => hlater e (by simp [he])⟩, hlater x (by simp)⟩
  · rintro (⟨rfl, hold⟩ | ⟨⟨earlier, later, rfl, hearlier, hlater⟩, hx⟩)
    · exact ⟨xs, [], rfl, hold, by simp⟩
    · refine ⟨earlier, later ++ [x], by simp, hearlier, fun e he => ?_⟩
      rcases List.mem_append.mp he with he | he
      · exact hlater e he
      · rwa [List.mem_singleton.mp he]

theorem newest_eq_some_iff {xs : List α} {y : α} :
    newest time xs = some y ↔ IsNewest time xs y := by
  induction xs using List.reverseRecOn generalizing y with
  | nil => simp [newest, IsNewest]
  | append_singleton xs x ih =>
    rw [newest_snoc, isNewest_snoc, newerOf]
    cases hbest : newest time xs with
    | none =>
      obtain rfl := eq_nil_of_newest time hbest
      simp [IsNewest, eq_comm]
    | some b =>
      have hb := ih.mp hbest
      by_cases hle : time b ≤ time x
      · have hold : ∀ e ∈ xs, time e ≤ time x := fun e he => le_trans (hb.le e he) hle
        rw [if_pos (by simpa using hle)]
        constructor
        · rintro ⟨⟩
          exact .inl ⟨rfl, hold⟩
        · rintro (⟨rfl, -⟩ | ⟨hy, hlt⟩)
          · rfl
          · exact absurd (hold y hy.mem) (not_le.mpr hlt)
      · rw [if_neg (by simpa using hle), ← hbest, ih]
        constructor
        · intro hy
          obtain rfl : b = y := by simpa [hbest] using ih.mpr hy
          exact .inr ⟨hy, not_le.mp hle⟩
        · rintro (⟨rfl, hold⟩ | ⟨hy, -⟩)
          · exact absurd (hold b hb.mem) hle
          · exact hy

end Swarm.Lib
