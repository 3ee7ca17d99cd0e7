import Mathlib.Data.List.OfFn
import Swarm.Lib.Assoc
import Swarm.Lib.Pool
import Swarm.Workflow.Code

/-!
# The fan-out of `workflow.py`

The prompts go to a pool of threads, and the caller gathers the results as they come. A step is one
of the caller or of a thread.
-/

namespace Swarm.Workflow.FanOut

open Lib

/-- How `agent.run` ends: as `_safe_run` expects, or with what is no `Exception`. -/
inductive Reply
  | answered (a : Answer)
  | fatal (exc : String)
  deriving DecidableEq, Repr

structure State where
  pool : Pool Reply
  results : List (Option PassResult)
  /-- The futures that `as_completed` has given. -/
  harvested : List Nat
  raised : Option String
  ended : Bool

inductive Label
  | pool (l : Pool.Label Reply)
  | harvest (i : Nat)
  /-- The pool shuts down. -/
  | leave

variable (maxParallel : Int) (which : Pass) (prompts : List String)

def width : Nat := (max 1 (min maxParallel prompts.length)).toNat

def start : State := ⟨.idle, List.replicate prompts.length none, [], none, prompts.isEmpty⟩

/-- `fut.result()` of the future `i`, which is taken when all prompts are submitted. -/
def harvest (i : Nat) (s : State) : Option State :=
  if s.pool.submitted = prompts.length ∧ s.raised = none ∧ i ∉ s.harvested then
    match s.pool.finished.lookup i with
    | none => none
    | some (.fatal exc) => some { s with harvested := i :: s.harvested, raised := some exc }
    | some (.answered a) =>
      some { s with harvested := i :: s.harvested, results := s.results.set i (some (captured which a)) }
  else none

def step (l : Label) (s : State) : Option State :=
  if s.ended then none
  else
    match l with
    | .pool l =>
      (Pool.step (width maxParallel prompts) prompts.length l s.pool).map fun pool => { s with pool := pool }
    | .harvest i => harvest which prompts i s
    | .leave =>
      if (s.raised.isSome ∨ s.harvested.length = prompts.length) ∧ s.pool.Drained prompts.length then
        some { s with ended := true }
      else none

/-- What `fan_out` returns or raises. -/
def State.outcome (s : State) : Option (Except String (List PassResult)) :=
  if s.ended then
    some (match s.raised with
      | some exc => .error exc
      | none => .ok (s.results.filterMap id))
  else none

/-! ## The invariant -/

/-- What has become of the future `i`. -/
def Taken (s : State) (i : Nat) : Prop :=
  (∃ a, (i, .answered a) ∈ s.pool.finished ∧ s.results[i]? = some (some (captured which a))) ∨
    ∃ exc, (i, .fatal exc) ∈ s.pool.finished ∧ s.raised = some exc

structure Inv (s : State) : Prop where
  pool : s.pool.Inv (width maxParallel prompts) prompts.length
  results : s.results.length = prompts.length
  once : s.harvested.Nodup
  harvested : ∀ i ∈ s.harvested, Taken which s i
  raised : ∀ exc, s.raised = some exc → ∃ i, (i, .fatal exc) ∈ s.pool.finished
  ended : s.ended = true →
    (s.raised.isSome ∨ s.harvested.length = prompts.length) ∧ s.pool.Drained prompts.length

variable {maxParallel which prompts} {s s' : State} {l : Label}

theorem inv_start : Inv maxParallel which prompts (start prompts) := by
  refine ⟨Pool.inv_idle, List.length_replicate, List.nodup_nil, by simp [start], by simp [start], fun hended => ?_⟩
  obtain rfl : prompts = [] := List.isEmpty_iff.mp hended
  exact ⟨.inr rfl, rfl, rfl, rfl⟩

theorem Inv.lt (h : Inv maxParallel which prompts s) {i : Nat} {r : Reply}
    (hi : (i, r) ∈ s.pool.finished) :
    i < prompts.length :=
  h.pool.lt_total (List.mem_append_right _ (List.mem_map_of_mem hi))

theorem Inv.harvested_lt (h : Inv maxParallel which prompts s) {i : Nat} (hi : i ∈ s.harvested) :
    i < prompts.length := by
  rcases h.harvested i hi with ⟨a, ha, -⟩ | ⟨exc, hexc, -⟩
  · exact h.lt ha
  · exact h.lt hexc

theorem finished_subset {width total : Nat} {p p' : Pool Reply} {l : Pool.Label Reply}
    (hstep : Pool.step width total l p = some p') : p.finished ⊆ p'.finished := by
  cases l with
  | submit =>
    obtain ⟨-, ⟨⟩⟩ := Option.ite_none_right_eq_some.mp hstep
    exact List.Subset.refl _
  | take =>
    simp only [Pool.step] at hstep
    split at hstep
    · simp at hstep
    · obtain ⟨-, ⟨⟩⟩ := Option.ite_none_right_eq_some.mp hstep
      exact List.Subset.refl _
  | finish i result =>
    obtain ⟨-, ⟨⟩⟩ := Option.ite_none_right_eq_some.mp hstep
    exact List.subset_cons_self _ _

theorem mem_of_lookup {d : List (Nat × Reply)} {i : Nat} {r : Reply} (h : d.lookup i = some r) :
    (i, r) ∈ d := by
  obtain ⟨before, after, hd, -⟩ := List.lookup_eq_some_iff.mp h
  rw [hd]
  exact List.mem_append_right _ List.mem_cons_self

theorem Inv.harvest (h : Inv maxParallel which prompts s) (hgo : s.ended = false) {i : Nat}
    (hstep : FanOut.harvest which prompts i s = some s') : Inv maxParallel which prompts s' := by
  obtain ⟨⟨-, hnone, hnew⟩, hstep⟩ := Option.ite_none_right_eq_some.mp hstep
  have hnot : ∀ exc, s.raised ≠ some exc := by simp [hnone]
  split at hstep
  · simp at hstep
  · next exc hlookup =>
    obtain rfl := Option.some.inj hstep
    have hmem := mem_of_lookup hlookup
    refine ⟨h.pool, h.results, List.nodup_cons.mpr ⟨hnew, h.once⟩, ?_, ?_, by simp [hgo]⟩
    · refine List.forall_mem_cons.mpr ⟨.inr ⟨exc, hmem, rfl⟩, fun j hj => ?_⟩
      rcases h.harvested j hj with hanswered | ⟨exc', -, hraised⟩
      · exact .inl hanswered
      · exact absurd hraised (hnot exc')
    · intro exc' hexc
      obtain rfl := Option.some.inj hexc
      exact ⟨i, hmem⟩
  · next a hlookup =>
    obtain rfl := Option.some.inj hstep
    have hmem := mem_of_lookup hlookup
    have hlt : i < s.results.length := h.results ▸ h.lt hmem
    refine ⟨h.pool, (List.length_set).trans h.results,
      List.nodup_cons.mpr ⟨hnew, h.once⟩, ?_, h.raised, by simp [hgo]⟩
    refine List.forall_mem_cons.mpr ⟨.inl ⟨a, hmem, List.getElem?_set_self hlt⟩, fun j hj => ?_⟩
    rcases h.harvested j hj with ⟨b, hb, hresult⟩ | ⟨exc, -, hraised⟩
    · have hne : i ≠ j := fun heq => hnew (heq ▸ hj)
      exact .inl ⟨b, hb, (List.getElem?_set_ne hne).trans hresult⟩
    · exact absurd hraised (hnot exc)

theorem Inv.step (h : Inv maxParallel which prompts s)
    (hstep : step maxParallel which prompts l s = some s') :
    Inv maxParallel which prompts s' := by
  obtain ⟨hgo, hstep⟩ := Option.ite_none_left_eq_some.mp hstep
  have hgo : s.ended = false := by simpa using hgo
  cases l with
  | pool l =>
    obtain ⟨pool, hpool, rfl⟩ := Option.map_eq_some_iff.mp hstep
    have hkept := finished_subset hpool
    refine ⟨h.pool.step hpool, h.results, h.once, fun i hi => ?_, fun exc hexc => ?_, by simp [hgo]⟩
    · rcases h.harvested i hi with ⟨a, ha, hresult⟩ | ⟨exc, hexc, hraised⟩
      · exact .inl ⟨a, hkept ha, hresult⟩
      · exact .inr ⟨exc, hkept hexc, hraised⟩
    · obtain ⟨i, hi⟩ := h.raised exc hexc
      exact ⟨i, hkept hi⟩
  | harvest i => exact h.harvest hgo hstep
  | leave =>
    obtain ⟨hdone, ⟨⟩⟩ := Option.ite_none_right_eq_some.mp hstep
    exact ⟨h.pool, h.results, h.once, h.harvested, h.raised, fun _ => hdone⟩

/-! ## How it ends -/

/-- Each prompt has one result, that of its own reply. -/
theorem Inv.answers (h : Inv maxParallel which prompts s) (hended : s.ended = true)
    (hnone : s.raised = none) :
    ∃ answers : List Answer, s.results.filterMap id = answers.map (captured which) ∧
      answers.length = prompts.length ∧
      ∀ i (hi : i < answers.length), (i, .answered answers[i]) ∈ s.pool.finished := by
  have hall : s.harvested.length = prompts.length := by simpa [hnone] using (h.ended hended).1
  have hperm : s.harvested.Perm (List.range prompts.length) :=
    (List.subperm_of_subset h.once fun i hi => List.mem_range.mpr (h.harvested_lt hi)).perm_of_length_le
      (by rw [List.length_range, hall])
  have htaken : ∀ i : Fin prompts.length, ∃ a, ((i : Nat), Reply.answered a) ∈ s.pool.finished ∧
      s.results[(i : Nat)]? = some (some (captured which a)) := by
    intro i
    rcases h.harvested i (hperm.symm.subset (List.mem_range.mpr i.isLt)) with htaken | ⟨exc, -, hraised⟩
    · exact htaken
    · simp [hnone] at hraised
  choose answer hanswer hresult using htaken
  refine ⟨List.ofFn answer, ?_, List.length_ofFn, fun i hi => ?_⟩
  · have hresults : s.results = (List.ofFn answer).map fun a => some (captured which a) := by
      refine List.ext_getElem? fun i => ?_
      by_cases hi : i < prompts.length
      · rw [hresult ⟨i, hi⟩, List.getElem?_map, List.getElem?_ofFn, dif_pos hi]
        rfl
      · rw [List.getElem?_eq_none (by rw [h.results]; omega), List.getElem?_eq_none (by simp; omega)]
    rw [hresults, List.filterMap_map]
    exact congrFun (List.filterMap_eq_map (f := captured which)) _
  · rw [List.getElem_ofFn]
    exact hanswer ⟨i, by simpa using hi⟩

/-- What is left to do. -/
def left (prompts : List String) (s : State) : Nat :=
  s.pool.left prompts.length + (prompts.length - s.harvested.length) + if s.ended then 0 else 1

theorem Inv.left_step (h : Inv maxParallel which prompts s)
    (hstep : FanOut.step maxParallel which prompts l s = some s') :
    left prompts s' < left prompts s := by
  have h' := h.step hstep
  obtain ⟨hgo, hstep⟩ := Option.ite_none_left_eq_some.mp hstep
  unfold left
  cases l with
  | pool l =>
    obtain ⟨pool, hpool, rfl⟩ := Option.map_eq_some_iff.mp hstep
    have := Pool.left_step hpool
    dsimp only
    omega
  | harvest i =>
    have hlen : ∀ x : State, x.harvested.Nodup → (∀ i ∈ x.harvested, i < prompts.length) →
        x.harvested.length ≤ prompts.length := fun x hx hlt => by
      simpa using (List.subperm_of_subset hx fun i hi => List.mem_range.mpr (hlt i hi)).length_le
    have hbound := hlen s' h'.once fun i hi => h'.harvested_lt hi
    obtain ⟨-, hstep⟩ := Option.ite_none_right_eq_some.mp hstep
    split at hstep
    · simp at hstep
    all_goals
      obtain rfl := Option.some.inj hstep
      simp only [List.length_cons] at hbound ⊢
      omega
  | leave =>
    obtain ⟨-, ⟨⟩⟩ := Option.ite_none_right_eq_some.mp hstep
    simp [hgo]

/-- Until it ends there is a step: a thread goes on, a result is taken, or the pool shuts down. -/
theorem Inv.progress (h : Inv maxParallel which prompts s) (hgo : s.ended = false) :
    ∃ l s', FanOut.step maxParallel which prompts l s = some s' := by
  have hwidth : 0 < width maxParallel prompts := by unfold width; omega
  by_cases hdrained : s.pool.Drained prompts.length
  · by_cases hdone : s.raised.isSome ∨ s.harvested.length = prompts.length
    · refine ⟨.leave, { s with ended := true }, ?_⟩
      simp [FanOut.step, hgo, hdone, hdrained]
    · obtain ⟨hraised, hlen⟩ := not_or.mp hdone
      have hnone : s.raised = none := by simpa using hraised
      -- A future that is not harvested yet is finished like all the others.
      obtain ⟨i, hi, hnew⟩ : ∃ i < prompts.length, i ∉ s.harvested := by
        by_contra hall
        push Not at hall
        have hle := (List.subperm_of_subset List.nodup_range fun i hi => hall i (List.mem_range.mp hi)).length_le
        have hge := (List.subperm_of_subset h.once fun i hi => List.mem_range.mpr (h.harvested_lt hi)).length_le
        rw [List.length_range] at hle hge
        exact hlen (le_antisymm hge hle)
      have hmem := (h.pool.drained hdrained).symm.subset (List.mem_range.mpr hi)
      obtain ⟨r, hr⟩ := Option.isSome_iff_exists.mp (lookup_isSome_iff.mpr hmem)
      have hopen : s.pool.submitted = prompts.length ∧ s.raised = none ∧ i ∉ s.harvested :=
        ⟨hdrained.1, hnone, hnew⟩
      refine ⟨.harvest i, ?_⟩
      simp only [FanOut.step, hgo, Bool.false_eq_true, if_false, FanOut.harvest, if_pos hopen, hr]
      cases r <;> exact ⟨_, rfl⟩
  · obtain ⟨l, pool, hpool⟩ := h.pool.progress hwidth hdrained (.fatal "")
    refine ⟨.pool l, { s with pool := pool }, ?_⟩
    simp [FanOut.step, hgo, hpool]

/-! ## Every schedule -/

/-- What holds at every moment of a fan-out. -/
structure Sound (maxParallel : Int) (which : Pass) (prompts : List String) (s : State) : Prop where
  width : (s.pool.running.length : Int) ≤ max 1 maxParallel
  /-- The prompts begin in order, each once. -/
  once : s.pool.begun.Perm (List.range s.pool.begun.length)
  returned : ∀ out, s.outcome = some (.ok out) → ∃ answers : List Answer, out = answers.map (captured which) ∧
    answers.length = prompts.length ∧ ∀ i (hi : i < answers.length), (i, .answered answers[i]) ∈ s.pool.finished
  raised : ∀ exc, s.outcome = some (.error exc) →
    (∃ i, (i, .fatal exc) ∈ s.pool.finished) ∧ (s.pool.finished.map (·.1)).Perm (List.range prompts.length)
  progress : s.outcome = none → ∃ l s', step maxParallel which prompts l s = some s'

theorem Inv.sound (h : Inv maxParallel which prompts s) : Sound maxParallel which prompts s := by
  refine ⟨?_, h.pool.begun, fun out hout => ?_, fun exc hexc => ?_, fun hgo => ?_⟩
  · have := h.pool.width
    unfold FanOut.width at this
    omega
  · obtain ⟨hended, hout⟩ := Option.ite_none_right_eq_some.mp hout
    split at hout
    · simp at hout
    · next hnone =>
      obtain rfl := Except.ok.inj (Option.some.inj hout)
      exact h.answers hended hnone
  · obtain ⟨hended, hout⟩ := Option.ite_none_right_eq_some.mp hexc
    split at hout
    · next exc' hraised =>
      obtain rfl := Except.error.inj (Option.some.inj hout)
      exact ⟨h.raised exc' hraised, h.pool.drained (h.ended hended).2⟩
    · simp at hout
  · cases hended : s.ended with
    | false => exact h.progress hended
    | true => simp [State.outcome, hended] at hgo

end Swarm.Workflow.FanOut
