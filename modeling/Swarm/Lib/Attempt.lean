import Mathlib.Data.List.Basic

/-!
# A list of steps that stops at the first that fails

Nothing is rolled back: the steps before the one that fails keep what they wrote, and it may
have written too.
-/

namespace Swarm.Lib

variable {S X E : Type*}

/-- The steps in order, up to the first that fails. -/
def attempt (step : S → X → Except E Unit × S) : S → List X → Except E Unit × S
  | s, [] => (.ok (), s)
  | s, x :: rest =>
    match step s x with
    | (.error e, s') => (.error e, s')
    | (.ok (), s') => attempt step s' rest

/-- A step that has gone through is settled, and stays so; it makes no other step fail or pass. -/
structure Separate (step : S → X → Except E Unit × S) (Fails Settled : S → X → Prop) : Prop where
  fails : ∀ s x, (∃ e, (step s x).1 = .error e) ↔ Fails s x
  settled : ∀ s x, Settled s x → step s x = (.ok (), s)
  settles : ∀ s x, ¬ Fails s x → Settled (step s x).2 x
  keeps : ∀ s x y, Settled s y → Settled (step s x).2 y
  fails_after : ∀ s x y, ¬ Fails s x → (Fails (step s x).2 y ↔ Fails s y)

/-- What the steps leave when none of them fails. -/
def ran (step : S → X → Except E Unit × S) (s : S) (xs : List X) : S :=
  xs.foldl (fun s x => (step s x).2) s

/-- A step fails after one that wrote, or writes itself before it fails. -/
def TornAt (step : S → X → Except E Unit × S) (Fails Settled : S → X → Prop) (s : S)
    (xs : List X) : Prop :=
  ∃ before x after, xs = before ++ x :: after ∧ (∀ y ∈ before, ¬ Fails s y) ∧ Fails s x ∧
    ((∃ y ∈ before, ¬ Settled s y) ∨ (step s x).2 ≠ s)

section

variable {step : S → X → Except E Unit × S}

theorem attempt_single (s : S) (x : X) : attempt step s [x] = step s x := by
  unfold attempt
  match step s x with
  | (.error e, _) => rfl
  | (.ok (), _) => rfl

theorem attempt_invariant {T : Type*} {f : S → T} (hf : ∀ s x, f (step s x).2 = f s) (s : S)
    (xs : List X) :
    f (attempt step s xs).2 = f s := by
  induction xs generalizing s with
  | nil => rfl
  | cons x rest ih =>
    have hx := hf s x
    unfold attempt
    match step s x, hx with
    | (.error e, s'), hx => exact hx
    | (.ok (), s'), hx => exact (ih s').trans hx

variable {Fails Settled : S → X → Prop} (h : Separate step Fails Settled)
include h

theorem Separate.step_ok {s : S} {x : X} (hx : ¬ Fails s x) :
    step s x = (.ok (), (step s x).2) := by
  rw [← h.fails] at hx
  match hstep : step s x, hx with
  | (.ok (), _), _ => rfl
  | (.error e, _), hx => exact absurd ⟨e, rfl⟩ hx

theorem ran_fails_iff {s : S} {xs : List X} (hxs : ∀ x ∈ xs, ¬ Fails s x) (y : X) :
    Fails (ran step s xs) y ↔ Fails s y := by
  induction xs generalizing s with
  | nil => exact Iff.rfl
  | cons x rest ih =>
    obtain ⟨hx, hrest⟩ := List.forall_mem_cons.mp hxs
    have hafter := h.fails_after s x
    exact (ih fun z hz => mt (hafter z hx).mp (hrest z hz)).trans (hafter y hx)

theorem ran_keeps {s : S} (xs : List X) {y : X} (hy : Settled s y) : Settled (ran step s xs) y := by
  induction xs generalizing s with
  | nil => exact hy
  | cons x rest ih => exact ih (h.keeps s x y hy)

theorem ran_settles {s : S} {xs : List X} (hxs : ∀ x ∈ xs, ¬ Fails s x) :
    ∀ x ∈ xs, Settled (ran step s xs) x := by
  induction xs generalizing s with
  | nil => simp
  | cons x rest ih =>
    obtain ⟨hx, hrest⟩ := List.forall_mem_cons.mp hxs
    refine List.forall_mem_cons.mpr ⟨ran_keeps h rest (h.settles s x hx), ?_⟩
    exact ih fun z hz => mt (h.fails_after s x z hx).mp (hrest z hz)

theorem ran_settled {s : S} {xs : List X} (hxs : ∀ x ∈ xs, Settled s x) : ran step s xs = s := by
  induction xs with
  | nil => rfl
  | cons x rest ih =>
    obtain ⟨hx, hrest⟩ := List.forall_mem_cons.mp hxs
    unfold ran at ih ⊢
    rw [List.foldl_cons, h.settled s x hx]
    exact ih hrest

theorem attempt_append {s : S} {xs : List X} (hxs : ∀ x ∈ xs, ¬ Fails s x) (rest : List X) :
    attempt step s (xs ++ rest) = attempt step (ran step s xs) rest := by
  induction xs generalizing s with
  | nil => rfl
  | cons x xs ih =>
    obtain ⟨hx, hxs⟩ := List.forall_mem_cons.mp hxs
    rw [List.cons_append, attempt, h.step_ok hx]
    exact ih fun z hz => mt (h.fails_after s x z hx).mp (hxs z hz)

theorem attempt_passes {s : S} {xs : List X} (hxs : ∀ x ∈ xs, ¬ Fails s x) :
    attempt step s xs = (.ok (), ran step s xs) := by
  have happend := attempt_append h hxs []
  rw [List.append_nil] at happend
  exact happend

/-- The run up to a failing step: the error is its own, and so is the last write. -/
theorem attempt_fails {s : S} {before : List X} {x : X} (hbefore : ∀ y ∈ before, ¬ Fails s y)
    (hx : Fails s x) (after : List X) :
    (∃ e, (attempt step s (before ++ x :: after)).1 = .error e) ∧
      (attempt step s (before ++ x :: after)).2 = (step (ran step s before) x).2 := by
  have hfails := (h.fails _ x).mpr ((ran_fails_iff h hbefore x).mpr hx)
  rw [attempt_append h hbefore, attempt]
  match step (ran step s before) x, hfails with
  | (.error e, s'), _ => exact ⟨⟨e, rfl⟩, rfl⟩

omit h in
theorem first_failing {s : S} {xs : List X} (hfail : ∃ x ∈ xs, Fails s x) :
    ∃ before x after, xs = before ++ x :: after ∧ (∀ y ∈ before, ¬ Fails s y) ∧ Fails s x := by
  induction xs with
  | nil => simp at hfail
  | cons z rest ih =>
    by_cases hz : Fails s z
    · exact ⟨[], z, rest, rfl, by simp, hz⟩
    · obtain ⟨x, hx, hfails⟩ := hfail
      have hmem : x ∈ rest := by
        rcases List.mem_cons.mp hx with rfl | hx
        · exact absurd hfails hz
        · exact hx
      obtain ⟨before, y, after, rfl, hbefore, hy⟩ := ih ⟨x, hmem, hfails⟩
      exact ⟨z :: before, y, after, rfl, List.forall_mem_cons.mpr ⟨hz, hbefore⟩, hy⟩

theorem attempt_raises_iff {s : S} {xs : List X} :
    (∃ e, (attempt step s xs).1 = .error e) ↔ ∃ x ∈ xs, Fails s x := by
  by_cases hfail : ∃ x ∈ xs, Fails s x
  · obtain ⟨before, x, after, rfl, hbefore, hx⟩ := first_failing hfail
    exact iff_of_true (attempt_fails h hbefore hx after).1 hfail
  · refine iff_of_false ?_ hfail
    push Not at hfail
    rw [attempt_passes h hfail]
    rintro ⟨e, he⟩
    cases he

/-- What a failing run leaves is what it found, exactly when nothing before the failing step had
anything to write, nor that step itself. -/
theorem attempt_unchanged_iff {s : S} {before : List X} {x : X}
    (hbefore : ∀ y ∈ before, ¬ Fails s y) (hx : Fails s x) (after : List X) :
    (attempt step s (before ++ x :: after)).2 = s ↔
      (∀ y ∈ before, Settled s y) ∧ (step s x).2 = s := by
  rw [(attempt_fails h hbefore hx after).2]
  constructor
  · intro hsame
    have hsettled : ∀ y ∈ before, Settled s y := by
      intro y hy
      have hkept := h.keeps _ x y (ran_settles h hbefore y hy)
      rwa [hsame] at hkept
    rw [ran_settled h hsettled] at hsame
    exact ⟨hsettled, hsame⟩
  · rintro ⟨hsettled, hsame⟩
    rw [ran_settled h hsettled, hsame]

theorem attempt_atomic_iff {s : S} {xs : List X} :
    ((∃ e, (attempt step s xs).1 = .error e) → (attempt step s xs).2 = s) ↔
      ¬ TornAt step Fails Settled s xs := by
  constructor
  · rintro hatomic ⟨before, x, after, rfl, hbefore, hx, htorn⟩
    have hsame := hatomic (attempt_fails h hbefore hx after).1
    obtain ⟨hsettled, hstep⟩ := (attempt_unchanged_iff h hbefore hx after).mp hsame
    rcases htorn with ⟨y, hy, hnot⟩ | hne
    · exact hnot (hsettled y hy)
    · exact hne hstep
  · intro hnot hraises
    obtain ⟨before, x, after, rfl, hbefore, hx⟩ := first_failing ((attempt_raises_iff h).mp hraises)
    apply (attempt_unchanged_iff h hbefore hx after).mpr
    constructor
    · intro y hy
      by_contra hns
      exact hnot ⟨before, x, after, rfl, hbefore, hx, .inl ⟨y, hy, hns⟩⟩
    · by_contra hne
      exact hnot ⟨before, x, after, rfl, hbefore, hx, .inr hne⟩

end

end Swarm.Lib
