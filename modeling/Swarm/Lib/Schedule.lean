import Mathlib.Data.Set.Insert
import Mathlib.Logic.Relation
import Swarm.Lib.Runs

/-!
# Schedules over a dependency relation

An item may begin once all that it waits for is finished. Items are filed, taken, finished and put
back in any order, and a new item may wait for what it likes.
-/

namespace Swarm.Lib

/-- Which items wait for which, which have begun, and which are finished. -/
structure Schedule (ι : Type*) where
  waits : ι → ι → Prop
  begun : Set ι
  finished : Set ι

namespace Schedule

variable {ι : Type*} {s s' : Schedule ι}

/-- Whatever has begun waits for finished items only. -/
structure Ordered (s : Schedule ι) : Prop where
  met : ∀ i ∈ s.begun, ∀ j, s.waits i j → j ∈ s.finished
  started : s.finished ⊆ s.begun

/-- What one move of a scheduler may do. -/
inductive Move (s s' : Schedule ι) : Prop
  | filed (hwaits : ∀ i ∈ s.begun, ∀ j, s'.waits i j → s.waits i j) (hbegun : s'.begun = s.begun)
      (hfinished : s'.finished = s.finished)
  | taken (i : ι) (hready : ∀ j, s.waits i j → j ∈ s.finished) (hwaits : s'.waits = s.waits)
      (hbegun : s'.begun = insert i s.begun) (hfinished : s'.finished = s.finished)
  | ended (i : ι) (hi : i ∈ s.begun) (hwaits : s'.waits = s.waits) (hbegun : s'.begun = s.begun)
      (hfinished : s'.finished = insert i s.finished)
  | putBack (i : ι) (hi : i ∉ s.finished) (hwaits : s'.waits = s.waits) (hbegun : s'.begun = s.begun \ {i})
      (hfinished : s'.finished = s.finished)

theorem Move.idle (h : s' = s) : Move s s' := by
  subst h
  exact .filed (fun _ _ _ h => h) rfl rfl

theorem Ordered.move (h : Ordered s) (hmove : Move s s') : Ordered s' := by
  cases hmove with
  | filed hwaits hbegun hfinished =>
    refine ⟨fun i hi j hij => ?_, ?_⟩
    · rw [hbegun] at hi
      rw [hfinished]
      exact h.met i hi j (hwaits i hi j hij)
    · rw [hfinished, hbegun]
      exact h.started
  | taken i hready hwaits hbegun hfinished =>
    refine ⟨fun k hk j hkj => ?_, ?_⟩
    · rw [hbegun] at hk
      rw [hwaits] at hkj
      rw [hfinished]
      rcases Set.mem_insert_iff.mp hk with rfl | hk
      · -- The item that is taken was ready; the others had begun before.
        exact hready j hkj
      · exact h.met k hk j hkj
    · rw [hfinished, hbegun]
      exact h.started.trans (Set.subset_insert i s.begun)
  | ended i hi hwaits hbegun hfinished =>
    refine ⟨fun k hk j hkj => ?_, ?_⟩
    · rw [hbegun] at hk
      rw [hwaits] at hkj
      rw [hfinished]
      exact Set.mem_insert_of_mem i (h.met k hk j hkj)
    · rw [hfinished, hbegun]
      exact Set.insert_subset hi h.started
  | putBack i hi hwaits hbegun hfinished =>
    refine ⟨fun k hk j hkj => ?_, ?_⟩
    · rw [hbegun] at hk
      rw [hwaits] at hkj
      rw [hfinished]
      exact h.met k hk.1 j hkj
    · rw [hfinished, hbegun]
      -- What is put back had not finished.
      exact fun j hj => ⟨h.started hj, fun hji => hi (hji ▸ hj)⟩

/-- **What has begun is a down-set**: all that it waits for, however far down, is finished. -/
theorem Ordered.below (h : Ordered s) {i j : ι} (hi : i ∈ s.begun)
    (hij : Relation.TransGen s.waits i j) :
    j ∈ s.finished := by
  induction hij with
  | single hij => exact h.met i hi _ hij
  | tail _ hjk ih => exact h.met _ (h.started ih) _ hjk

theorem Move.finished_subset (h : Move s s') : s.finished ⊆ s'.finished := by
  cases h with
  | filed _ _ hfinished => exact hfinished.symm.subset
  | taken _ _ _ _ hfinished => exact hfinished.symm.subset
  | ended i _ _ _ hfinished => exact hfinished ▸ Set.subset_insert i s.finished
  | putBack _ _ _ _ hfinished => exact hfinished.symm.subset

/-- A machine whose steps are moves of the schedule that `view` shows runs in order. -/
theorem run_ordered {State Label : Type*} {step : Label → State → Option State}
    {Allowed : Label → Prop} (view : State → Schedule ι) (Inv : State → Prop)
    (hstep : ∀ s l s', Inv s → Allowed l → step l s = some s' → Inv s' ∧ Move (view s) (view s'))
    (start : State) (labels : List Label) (hstart : Inv start) (hordered : Ordered (view start))
    (hallowed : ∀ l ∈ labels, Allowed l) :
    Inv (final step start labels) ∧ Ordered (view (final step start labels)) ∧
      (view start).finished ⊆ (view (final step start labels)).finished := by
  let Kept (s : State) : Prop :=
    Inv s ∧ Ordered (view s) ∧ (view start).finished ⊆ (view s).finished
  refine final_invariant (fun s l s' (h : Kept s) hl hs => (?_ : Kept s')) start labels
    ⟨hstart, hordered, Set.Subset.rfl⟩ hallowed
  obtain ⟨hinv, hmove⟩ := hstep s l s' h.1 hl hs
  exact ⟨hinv, h.2.1.move hmove, h.2.2.trans hmove.finished_subset⟩

end Schedule

end Swarm.Lib
