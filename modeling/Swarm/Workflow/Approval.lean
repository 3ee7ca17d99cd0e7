import Swarm.Workflow.Code

/-! # What a workflow approves -/

namespace Swarm.Workflow

variable {answers : Nat → Answer} {prompt : String}

/-! ## One pass -/

@[simp] theorem pass_fst (which : Pass) (s : Run) :
    (pass answers prompt which s).1 = captured which (answers s.log.length) := by
  simp only [pass]
  split <;> rfl

@[simp] theorem pass_log (which : Pass) (s : Run) :
    (pass answers prompt which s).2.log =
      s.log ++ [(⟨which, prompt, s.context⟩, answers s.log.length)] := by
  simp only [pass]
  split <;> rfl

/-- An answer that the convergence test reads as no change. -/
def Still : Answer → Prop
  | .ok res => res.changed = false
  | .error _ => True

theorem captured_still (which : Pass) (a : Answer) :
    (captured which a).changed = false ↔ Still a := by
  cases a <;> simp [captured, Still]

/-- An answer that the gate takes as approval. -/
def Approves : Answer → Prop
  | .ok res => res.passed = some true
  | .error _ => False

theorem captured_approves (a : Answer) :
    (captured .adversarial a).passed.getD false = true ↔ Approves a := by
  cases a with
  | error e => simp [captured, Approves]
  | ok res => cases h : res.passed <;> simp [captured, Approves, h]

/-! ## The cycles -/

/-- The pair of answers from number `i` on converges. -/
def Quiet (answers : Nat → Answer) (i : Nat) : Prop := Still (answers i) ∧ Still (answers (i + 1))

def steps (log : List (Call × Answer)) : List (Pass × Answer) :=
  log.map fun ca => (ca.1.which, ca.2)

def logged (answers : Nat → Answer) (log : List (Pass × Answer)) : List (Pass × Answer) :=
  log ++ [(.simplify, answers log.length), (.review, answers (log.length + 1))]

theorem cycle_succ (answers : Nat → Answer) (prompt : String) (n : Nat) (s : Run) :
    ∃ s' : Run, steps s'.log = logged answers (steps s.log) ∧
      (Quiet answers s.log.length → cycle answers prompt (n + 1) s = ((true, 1), s')) ∧
      (¬ Quiet answers s.log.length → cycle answers prompt (n + 1) s =
        (((cycle answers prompt n s').1.1, (cycle answers prompt n s').1.2 + 1),
          (cycle answers prompt n s').2)) := by
  let simplify := pass answers prompt .simplify s
  let review := pass answers prompt .review simplify.2
  have hquiet : simplify.1.changed = false ∧ review.1.changed = false ↔ Quiet answers s.log.length := by
    simp [simplify, review, captured_still, Quiet]
  refine ⟨review.2, by simp [simplify, review, steps, logged], fun hq => ?_, fun hq => ?_⟩
  · exact if_pos (hquiet.mpr hq)
  · exact if_neg (mt hquiet.mp hq)

/-- What the cycles do from a log of length `i`: the first quiet pair ends them. -/
theorem cycle_spec (answers : Nat → Answer) (prompt : String) (n : Nat) (s : Run) :
    (∃ k < n, (∀ j < k, ¬ Quiet answers (s.log.length + 2 * j)) ∧
      Quiet answers (s.log.length + 2 * k) ∧
      (cycle answers prompt n s).1 = (true, k + 1) ∧
      steps (cycle answers prompt n s).2.log = (logged answers)^[k + 1] (steps s.log)) ∨
    (∀ j < n, ¬ Quiet answers (s.log.length + 2 * j)) ∧
      (cycle answers prompt n s).1 = (false, n) := by
  induction n generalizing s with
  | zero => exact .inr ⟨fun j hj => by omega, rfl⟩
  | succ n ih =>
    obtain ⟨s', hlog, hquiet, hloud⟩ := cycle_succ answers prompt n s
    have hlen : s'.log.length = s.log.length + 2 := by
      simpa [steps, logged] using congrArg List.length hlog
    by_cases hq : Quiet answers s.log.length
    · refine .inl ⟨0, by omega, fun j hj => by omega, hq, ?_, ?_⟩
      · rw [hquiet hq]
      · rw [hquiet hq]
        exact hlog
    · -- The cycles that are left count from the pair just logged.
      have hshift : ∀ j, s'.log.length + 2 * j = s.log.length + 2 * (j + 1) := fun j => by omega
      rw [hloud hq]
      rcases ih s' with ⟨k, hk, hbefore, hquiet', hout, hlog'⟩ | ⟨hall, hout⟩
      · refine .inl ⟨k + 1, by omega, fun j hj => ?_, hshift k ▸ hquiet', by rw [hout], ?_⟩
        · cases j with
          | zero => exact hq
          | succ j => exact hshift j ▸ hbefore j (by omega)
        · rw [hlog', hlog, ← Function.iterate_succ_apply]
      · refine .inr ⟨fun j hj => ?_, by rw [hout]⟩
        cases j with
        | zero => exact hq
        | succ j => exact hshift j ▸ hall j (by omega)

theorem iterate_logged (answers : Nat → Answer) (k : Nat) (l : List (Pass × Answer)) :
    ∃ t, t.length = 2 * k ∧ (logged answers)^[k] l = l ++ t := by
  induction k with
  | zero => exact ⟨[], rfl, by simp⟩
  | succ k ih =>
    obtain ⟨t, ht, heq⟩ := ih
    refine ⟨t ++ [(.simplify, answers (l ++ t).length), (.review, answers ((l ++ t).length + 1))], ?_, ?_⟩
    · simp [ht]; omega
    · rw [Function.iterate_succ_apply', heq, logged, List.append_assoc]

/-! ## The whole run -/

def firstCall (buildFirst : Bool) : Nat := if buildFirst then 1 else 0

def started (answers : Nat → Answer) (buildFirst : Bool) : List (Pass × Answer) :=
  if buildFirst then [(.build, answers 0)] else []

theorem steps_start (buildFirst : Bool) :
    steps (start answers prompt buildFirst).log = started answers buildFirst := by
  cases buildFirst <;> simp [start, started, steps]

theorem length_start (buildFirst : Bool) :
    (start answers prompt buildFirst).log.length = firstCall buildFirst := by
  cases buildFirst <;> simp [start, firstCall]

/-- Cycle `k` is the first of `n` whose two answers read as no change. -/
structure FirstQuiet (answers : Nat → Answer) (buildFirst : Bool) (n k : Nat) : Prop where
  lt : k < n
  before : ∀ j < k, ¬ Quiet answers (firstCall buildFirst + 2 * j)
  quiet : Quiet answers (firstCall buildFirst + 2 * k)

theorem FirstQuiet.unique {buildFirst : Bool} {n k k' : Nat} (h : FirstQuiet answers buildFirst n k)
    (h' : FirstQuiet answers buildFirst n k') : k = k' := by
  rcases Nat.lt_trichotomy k k' with hlt | heq | hlt
  · exact absurd h.quiet (h'.before k hlt)
  · exact heq
  · exact absurd h'.quiet (h.before k' hlt)

def verdict (answers : Nat → Answer) (buildFirst : Bool) (k : Nat) : Answer :=
  answers (firstCall buildFirst + 2 * k + 2)

def ending (answers : Nat → Answer) (buildFirst : Bool) (k : Nat) : List (Pass × Answer) :=
  [(.simplify, answers (firstCall buildFirst + 2 * k)),
    (.review, answers (firstCall buildFirst + 2 * k + 1)), (.adversarial, verdict answers buildFirst k)]

theorem gate_spec (answers : Nat → Answer) (prompt : String) {cfg : WorkflowConfig}
    (hadv : cfg.runAdversarial = true) (s : Run) :
    ((gate answers prompt cfg true s).1 = true ↔ Approves (answers s.log.length)) ∧
      steps (gate answers prompt cfg true s).2.log =
        steps s.log ++ [(.adversarial, answers s.log.length)] := by
  simp [gate, hadv, safeRun, captured_approves, steps]

/-- With the gate on, a run is approved in its first quiet cycle, if the adversary approves. -/
theorem converge_spec (answers : Nat → Answer) (prompt : String) {cfg : WorkflowConfig}
    (hadv : cfg.runAdversarial = true) (buildFirst : Bool) :
    let out := converge answers prompt cfg buildFirst
    (∃ k t, FirstQuiet answers buildFirst cfg.maxCycles.toNat k ∧
      steps out.2.log = started answers buildFirst ++ t ++ ending answers buildFirst k ∧
      (out.1.mergeOk = true ↔ Approves (verdict answers buildFirst k))) ∨
    (∀ k, ¬ FirstQuiet answers buildFirst cfg.maxCycles.toNat k) ∧ out.1.mergeOk = false := by
  intro out
  have hspec := cycle_spec answers prompt cfg.maxCycles.toNat (start answers prompt buildFirst)
  simp only [length_start, steps_start] at hspec
  rcases hspec with ⟨k, hk, hbefore, hquiet, hout, hlog⟩ | ⟨hall, hout⟩
  · obtain ⟨t, ht, heq⟩ := iterate_logged answers k (started answers buildFirst)
    rw [Function.iterate_succ_apply', heq, logged] at hlog
    obtain ⟨happ, hend⟩ := gate_spec answers prompt hadv
      (cycle answers prompt cfg.maxCycles.toNat (start answers prompt buildFirst)).2
    have hbase : (started answers buildFirst ++ t).length = firstCall buildFirst + 2 * k := by
      cases buildFirst <;> simp [started, firstCall, ht, Nat.add_comm]
    have hlen := congrArg List.length hlog
    rw [steps, List.length_map, List.length_append, hbase] at hlen
    rw [hlen] at happ hend
    refine .inl ⟨k, t, ⟨hk, hbefore, hquiet⟩, ?_, ?_⟩
    · simp only [out, converge, hout]
      rw [hend, hlog, hbase]
      simp [ending, verdict]
    · simp only [out, converge, hout, WorkflowReport.mergeOk, Bool.true_and]
      exact happ
  · refine .inr ⟨fun k hk => hall k hk.lt hk.quiet, ?_⟩
    simp [out, converge, hout, WorkflowReport.mergeOk]

/-- Every pass that a merge rests on ran to its end, with nothing left to change and no
refutation. -/
def Reviewed (buildFirst : Bool) (log : List (Pass × Answer)) : Prop :=
  (buildFirst = true → ∃ build, log.head? = some (.build, .ok build)) ∧
  ∃ before simplify review adv,
    log = before ++ [(.simplify, .ok simplify), (.review, .ok review), (.adversarial, .ok adv)] ∧
    simplify.changed = false ∧ review.changed = false ∧ adv.passed = some true

def Completed (a : Answer) : Prop := ∃ res, a = .ok res

theorem reviewed_iff {buildFirst : Bool} {k : Nat} (t : List (Pass × Answer))
    (hquiet : Quiet answers (firstCall buildFirst + 2 * k))
    (happ : Approves (verdict answers buildFirst k)) :
    Reviewed buildFirst (started answers buildFirst ++ t ++ ending answers buildFirst k) ↔
      (buildFirst = true → Completed (answers 0)) ∧
        Completed (answers (firstCall buildFirst + 2 * k)) ∧
        Completed (answers (firstCall buildFirst + 2 * k + 1)) := by
  constructor
  · rintro ⟨hbuild, before, simplify, review, adv, heq, -⟩
    have hends : ending answers buildFirst k =
        [(.simplify, .ok simplify), (.review, .ok review), (.adversarial, .ok adv)] :=
      (List.append_inj' heq rfl).2
    simp only [ending, List.cons.injEq, Prod.mk.injEq, true_and, and_true] at hends
    refine ⟨fun hb => ?_, ⟨simplify, hends.1⟩, ⟨review, hends.2.1⟩⟩
    obtain ⟨build, hhead⟩ := hbuild hb
    simp only [started, hb, if_true, List.cons_append, List.head?_cons,
      Option.some.injEq, Prod.mk.injEq, true_and] at hhead
    exact ⟨build, hhead⟩
  · rintro ⟨hbuild, ⟨simplify, hs⟩, ⟨review, hr⟩⟩
    refine ⟨fun hb => ?_, started answers buildFirst ++ t, simplify, review, ?_⟩
    · obtain ⟨build, h0⟩ := hbuild hb
      exact ⟨build, by simp [started, hb, h0]⟩
    · cases hv : verdict answers buildFirst k with
      | error e => simp [hv, Approves] at happ
      | ok adv =>
        rw [hv] at happ
        simp only [Quiet, hs, hr, Still] at hquiet
        exact ⟨adv, by rw [ending, hs, hr, hv], hquiet.1, hquiet.2, happ⟩

/-- **When nothing unreviewed is approved.** -/
theorem approves_reviewed_iff {cfg : WorkflowConfig} (hadv : cfg.runAdversarial = true)
    (answers : Nat → Answer) (prompt : String) (buildFirst : Bool) :
    ((converge answers prompt cfg buildFirst).1.mergeOk = true →
      Reviewed buildFirst (steps (converge answers prompt cfg buildFirst).2.log)) ↔
    ∀ k, FirstQuiet answers buildFirst cfg.maxCycles.toNat k →
      Approves (verdict answers buildFirst k) →
      (buildFirst = true → Completed (answers 0)) ∧
        Completed (answers (firstCall buildFirst + 2 * k)) ∧
        Completed (answers (firstCall buildFirst + 2 * k + 1)) := by
  rcases converge_spec answers prompt hadv buildFirst with
    ⟨k, t, hfirst, hlog, hok⟩ | ⟨hnone, hok⟩
  · rw [hlog, hok]
    constructor
    · intro h k' hfirst' happ'
      obtain rfl := hfirst.unique hfirst'
      exact (reviewed_iff t hfirst.quiet happ').mp (h happ')
    · intro h happ
      exact (reviewed_iff t hfirst.quiet happ).mpr (h k hfirst happ)
  · refine iff_of_true (fun h => by simp [hok] at h) fun k hfirst => absurd hfirst (hnone k)

/-! ## A review that crashes -/

def clean (which : Pass) : PassResult := ⟨which, false, none, [], none, .finite 0⟩

/-- A run of one cycle: BUILD, SIMPLIFY, the given answer of REVIEW, and an adversary that
passes. -/
def oneCycle (review : Answer) : Nat → Answer
  | 0 => .ok (clean .build)
  | 1 => .ok (clean .simplify)
  | 2 => review
  | _ => .ok ⟨.adversarial, false, some true, [], none, .finite 0⟩

theorem clean_review_reviewed :
    Reviewed true
      (steps (converge (oneCycle (.ok (clean .review))) "fix it" .default true).2.log) := by
  have hdone : ∀ i, Completed (oneCycle (.ok (clean .review)) i) := fun i => by
    unfold oneCycle
    split <;> exact ⟨_, rfl⟩
  exact (approves_reviewed_iff rfl _ _ _).mpr
    (fun k _ _ => ⟨fun _ => hdone 0, hdone _, hdone _⟩) (by decide +kernel)

/-- The review raised, and the run may merge. -/
theorem crashed_review_approved :
    ¬ ((converge (oneCycle (.error "TimeoutError()")) "fix it" .default true).1.mergeOk = true →
      Reviewed true (steps (converge (oneCycle (.error "TimeoutError()")) "fix it" .default true).2.log)) := by
  intro h
  obtain ⟨-, before, simplify, review, adv, heq, -⟩ := h (by decide +kernel)
  have hlog : steps (converge (oneCycle (.error "TimeoutError()")) "fix it" .default true).2.log =
      [(.build, .ok (clean .build))] ++ [(.simplify, .ok (clean .simplify)),
        (.review, .error "TimeoutError()"), (.adversarial, oneCycle (.error "") 3)] := by rfl
  rw [hlog] at heq
  simpa using (List.append_inj' heq rfl).2

end Swarm.Workflow
