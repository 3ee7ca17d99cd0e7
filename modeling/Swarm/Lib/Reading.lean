import Mathlib.Data.List.Basic

/-!
# What a reader makes of a value that it may refuse

A reader gives what it takes the value for, or raises. Its caller catches some of what it raises.
-/

namespace Swarm.Lib

variable {α β γ ε : Type}

/-- What becomes of a value that was written and is read again. -/
inductive Reading
  /-- It gives what is expected. -/
  | faithful
  /-- It gives something else. -/
  | changed
  /-- It raises what the caller catches. -/
  | refused
  | raises
  deriving DecidableEq, Repr

namespace Reading

open Classical in
/-- The reading of a value that should be taken for `x`. -/
noncomputable def of (caught : ε → Bool) (r : Except ε α) (x : α) : Reading :=
  match r with
  | .ok y => if y = x then .faithful else .changed
  | .error e => if caught e then .refused else .raises

/-- One reader after another: the first that raises ends it. -/
def and : Reading → Reading → Reading
  | .faithful, w => w
  | .changed, .faithful => .changed
  | .changed, w => w
  | .refused, _ => .refused
  | .raises, _ => .raises

def all (ws : List Reading) : Reading := ws.foldr and .faithful

/-- Read as expected, or skipped. -/
def Sound (w : Reading) : Prop := w = .faithful ∨ w = .refused

instance (w : Reading) : Decidable w.Sound := inferInstanceAs (Decidable (_ ∨ _))

/-! ## Readers in sequence -/

def pair (r : Except ε α) (s : Except ε β) : Except ε (α × β) := do
  let a ← r
  let b ← s
  return (a, b)

theorem bind_ok {r : Except ε α} {k : α → Except ε β} {y : β} (h : r >>= k = .ok y) :
    ∃ a, r = .ok a ∧ k a = .ok y := by
  cases r with
  | error e => cases h
  | ok a => exact ⟨a, rfl, h⟩

theorem map_eq_bind (f : α → β) (r : Except ε α) : r.map f = r >>= fun a => pure (f a) := by
  cases r <;> rfl

variable {caught : ε → Bool}

theorem of_ok (y x : α) [Decidable (y = x)] :
    of caught (.ok y) x = if y = x then .faithful else .changed := by
  by_cases h : y = x <;> simp [of, h]

theorem of_same (x : α) : of caught (.ok x) x = .faithful := by simp [of]

theorem of_error (e : ε) (x : α) :
    of caught (.error e) x = if caught e then .refused else .raises := rfl

theorem of_pair (r : Except ε α) (s : Except ε β) (x : α) (y : β) :
    of caught (pair r s) (x, y) = (of caught r x).and (of caught s y) := by
  cases r with
  | error e =>
    unfold pair
    simp only [bind, Except.bind, of_error]
    split <;> rfl
  | ok a =>
    unfold pair
    cases s with
    | error e =>
      simp only [bind, Except.bind, of_error]
      by_cases ha : a = x <;> cases caught e <;> simp [of, ha, and]
    | ok b =>
      simp only [bind, Except.bind, pure, Except.pure]
      by_cases ha : a = x <;> by_cases hb : b = y <;> simp [of, ha, hb, and]

theorem of_map {f : α → β} (hf : Function.Injective f) (r : Except ε α) (x : α) :
    of caught (r.map f) (f x) = of caught r x := by
  cases r with
  | error e => rfl
  | ok a => by_cases h : a = x <;> simp [Except.map, of, hf.eq_iff, h]

theorem of_mapM (read : γ → Except ε α) (expected : γ → α) (l : List γ) :
    of caught (l.mapM read) (l.map expected) =
      all (l.map fun c => of caught (read c) (expected c)) := by
  induction l with
  | nil => exact of_same []
  | cons c rest ih =>
    have hcons : (c :: rest).mapM read = (pair (read c) (rest.mapM read)).map fun p => p.1 :: p.2 := by
      rw [List.mapM_cons]
      unfold pair
      cases read c with
      | error e => rfl
      | ok a => cases rest.mapM read <;> rfl
    have hinj : Function.Injective fun p : α × List α => p.1 :: p.2 := by
      rintro ⟨a, l⟩ ⟨b, m⟩ h
      simpa using h
    rw [hcons, List.map_cons, List.map_cons,
      of_map (x := (expected c, rest.map expected)) hinj, of_pair, ih]
    rfl

/-! ## What a reading says -/

theorem sound_iff {r : Except ε α} {x : α} :
    (of caught r x).Sound ↔ (∀ y, r = .ok y → y = x) ∧ ∀ e, r = .error e → caught e = true := by
  unfold Sound
  cases r with
  | ok y => by_cases hy : y = x <;> simp [of, hy]
  | error e => by_cases he : caught e = true <;> simp [of_error, he]

theorem of_eq_refused {r : Except ε α} {x : α} {e : ε} (h : r = .error e)
    (hcaught : caught e = true) :
    of caught r x = .refused := by
  rw [h, of_error, if_pos hcaught]

theorem and_ne_refused {v w : Reading} (hv : v ≠ .refused) (hw : w ≠ .refused) :
    v.and w ≠ .refused := by
  cases v <;> cases w <;> simp_all [and]

theorem all_ne_refused {ws : List Reading} (h : ∀ w ∈ ws, w ≠ .refused) : all ws ≠ .refused := by
  induction ws with
  | nil => simp [all]
  | cons w rest ih =>
    obtain ⟨hw, hrest⟩ := List.forall_mem_cons.mp h
    exact and_ne_refused hw (ih hrest)

end Reading

end Swarm.Lib
