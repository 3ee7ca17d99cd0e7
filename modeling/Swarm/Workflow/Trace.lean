import Swarm.Workflow.Approval

/-!
# The trace of a converging run

What `converge` calls, in which order and with which context, whatever the agents answer.
-/

namespace Swarm.Workflow

variable {answers : Nat → Answer} {prompt : String}

/-! ## What a run records -/

/-- The last output that is not empty. -/
def latest (passes : List PassResult) : Option String :=
  (passes.filterMap fun p => p.output.filter (· ≠ "")).getLast?

theorem latest_snoc (passes : List PassResult) (p : PassResult) :
    latest (passes ++ [p]) = (p.output.filter (· ≠ "")).or (latest passes) := by
  unfold latest
  rw [List.filterMap_append, List.filterMap_cons, List.filterMap_nil]
  cases p.output.filter (· ≠ "") with
  | none => simp
  | some text => simp

def recorded (log : List (Call × Answer)) : List PassResult :=
  log.map fun ca => captured ca.1.which ca.2

/-- The passes are those of the log, and each call was made with the context of its time. -/
structure Recorded (answers : Nat → Answer) (prompt : String) (s : Run) : Prop where
  passes : s.passes = recorded s.log
  context : s.context = latest s.passes
  calls : ∀ i call answer, s.log[i]? = some (call, answer) →
    answer = answers i ∧ call.prompt = prompt ∧ call.context = latest (s.passes.take i)

theorem recorded_nil : Recorded answers prompt ⟨[], none, []⟩ :=
  ⟨rfl, rfl, fun i call answer h => by simp at h⟩

theorem pass_passes (which : Pass) (s : Run) :
    (pass answers prompt which s).2.passes =
      s.passes ++ [captured which (answers s.log.length)] := by
  unfold pass
  simp only
  split <;> rfl

theorem pass_context (which : Pass) (s : Run) :
    (pass answers prompt which s).2.context =
      ((captured which (answers s.log.length)).output.filter (· ≠ "")).or s.context := by
  unfold pass safeRun
  simp only
  split
  · next hout => simp [hout]
  · next hout => simp [hout, Option.filter]
  · next text hne hout => simp [hout, Option.filter, show text ≠ "" from fun h => hne (h ▸ rfl)]

theorem calls_snoc {s s' : Run} (which : Pass) (h : Recorded answers prompt s)
    (hlog : s'.log = s.log ++ [(⟨which, prompt, s.context⟩, answers s.log.length)])
    (hpasses : s'.passes = s.passes ++ [captured which (answers s.log.length)]) :
    s'.passes = recorded s'.log ∧ ∀ i call answer, s'.log[i]? = some (call, answer) →
      answer = answers i ∧ call.prompt = prompt ∧ call.context = latest (s'.passes.take i) := by
  have hlen : s.passes.length = s.log.length := by rw [h.passes, recorded, List.length_map]
  refine ⟨by simp [hlog, hpasses, recorded, h.passes], fun i call answer hi => ?_⟩
  rw [hlog] at hi
  rcases Nat.lt_trichotomy i s.log.length with hlt | heq | hgt
  · rw [List.getElem?_append_left hlt] at hi
    rw [hpasses, List.take_append_of_le_length (by omega)]
    exact h.calls i call answer hi
  · subst heq
    simp only [List.getElem?_concat_length, Option.some.injEq, Prod.mk.injEq] at hi
    obtain ⟨rfl, rfl⟩ := hi
    rw [hpasses, List.take_append_of_le_length (by omega), ← hlen, List.take_length]
    exact ⟨rfl, rfl, h.context⟩
  · rw [List.getElem?_eq_none (by simp; omega)] at hi
    cases hi

theorem Recorded.pass {s : Run} (h : Recorded answers prompt s) (which : Pass) :
    Recorded answers prompt (Workflow.pass answers prompt which s).2 := by
  obtain ⟨hpasses, hcalls⟩ := calls_snoc which h (pass_log which s) (pass_passes which s)
  refine ⟨hpasses, ?_, hcalls⟩
  rw [pass_context, pass_passes, latest_snoc, h.context]

/-! ## The order of the calls -/

def cyclePasses (cycles : Nat) : List Pass := (List.replicate cycles [.simplify, .review]).flatten

/-- BUILD if it is asked for, the cycles, and the gate if there is one. -/
def schedule (buildFirst : Bool) (cycles : Nat) (gated : Bool) : List Pass :=
  (if buildFirst then [.build] else []) ++ cyclePasses cycles ++ if gated then [.adversarial] else []

def whiches (log : List (Call × Answer)) : List Pass := log.map fun ca => ca.1.which

theorem pass_whiches (which : Pass) (s : Run) :
    whiches (pass answers prompt which s).2.log = whiches s.log ++ [which] := by
  simp [whiches]

theorem cycle_recorded (n : Nat) (s : Run) (h : Recorded answers prompt s) :
    Recorded answers prompt (cycle answers prompt n s).2 ∧
      whiches (cycle answers prompt n s).2.log =
        whiches s.log ++ cyclePasses (cycle answers prompt n s).1.2 := by
  induction n generalizing s with
  | zero => exact ⟨h, by simp [cycle, cyclePasses]⟩
  | succ n ih =>
    have hreview := (h.pass .simplify).pass .review
    have hpair : whiches (pass answers prompt .review (pass answers prompt .simplify s).2).2.log =
        whiches s.log ++ [.simplify, .review] := by
      rw [pass_whiches, pass_whiches, List.append_assoc]
      rfl
    unfold cycle
    simp only
    split
    · exact ⟨hreview, hpair⟩
    · obtain ⟨hrest, hwhich⟩ := ih _ hreview
      refine ⟨hrest, ?_⟩
      rw [hwhich, hpair, List.append_assoc]
      rfl

variable (answers prompt) in
theorem start_recorded (buildFirst : Bool) :
    Recorded answers prompt (start answers prompt buildFirst) ∧
      whiches (start answers prompt buildFirst).log = if buildFirst then [.build] else [] := by
  cases buildFirst with
  | false => exact ⟨recorded_nil, rfl⟩
  | true => exact ⟨recorded_nil.pass .build, pass_whiches .build _⟩

/-! ## The pairs -/

/-- The two passes from number `i` on report no change. -/
def Settled (passes : List PassResult) (i : Nat) : Prop :=
  ∃ simplify review, passes[i]? = some simplify ∧ passes[i + 1]? = some review ∧
    simplify.changed = false ∧ review.changed = false

theorem settled_iff {log : List (Call × Answer)}
    (hanswers : ∀ i call answer, log[i]? = some (call, answer) → answer = answers i) {i : Nat}
    (hi : i + 1 < log.length) : Settled (recorded log) i ↔ Quiet answers i := by
  have hget : ∀ j < log.length, ∃ which, (recorded log)[j]? = some (captured which (answers j)) := by
    intro j hj
    have hsome := List.getElem?_eq_getElem hj
    have hanswer := hanswers j _ _ hsome
    exact ⟨log[j].1.which, by rw [recorded, List.getElem?_map, hsome, ← hanswer]; rfl⟩
  obtain ⟨which, hfirst⟩ := hget i (by omega)
  obtain ⟨which', hsecond⟩ := hget (i + 1) hi
  simp [Settled, hfirst, hsecond, captured_still, Quiet]

/-! ## The whole trace -/

/-- What a report says and what was called for it. -/
structure Trace (answers : Nat → Answer) (prompt : String) (cfg : WorkflowConfig)
    (buildFirst : Bool) (report : WorkflowReport) (log : List (Call × Answer)) : Prop where
  bound : (log.length : Int) ≤ 2 * max 0 cfg.maxCycles + 2
  order : whiches log = schedule buildFirst report.cycles (report.converged && cfg.runAdversarial)
  passes : report.passes = recorded log
  /-- Passes that name themselves truly are in the same order. -/
  names : (∀ ca ∈ log, ∀ res, ca.2 = .ok res → res.which = ca.1.which) →
    report.passes.map (·.which) = whiches log
  calls : ∀ i call answer, log[i]? = some (call, answer) →
    answer = answers i ∧ call.prompt = prompt ∧ call.context = latest (report.passes.take i)
  converged : report.converged = true ↔
    0 < report.cycles ∧ Settled report.passes (firstCall buildFirst + 2 * (report.cycles - 1))
  earlier : ∀ k, k + 1 < report.cycles → ¬ Settled report.passes (firstCall buildFirst + 2 * k)
  exhausted : report.converged = false → (report.cycles : Int) = max 0 cfg.maxCycles
  merge : report.converged = false → report.mergeOk = false
  cost : report.totalCostUsd =
    ((report.passes.map (·.costUsd)).foldl Num.add (.finite 0)).round 6

theorem length_schedule (buildFirst : Bool) (cycles : Nat) (gated : Bool) :
    (schedule buildFirst cycles gated).length =
      firstCall buildFirst + 2 * cycles + if gated then 1 else 0 := by
  have hcycles : (cyclePasses cycles).length = 2 * cycles := by
    simp [cyclePasses, Nat.mul_comm]
  cases buildFirst <;> cases gated <;> simp [schedule, firstCall, hcycles] <;> omega

theorem gate_recorded (cfg : WorkflowConfig) (converged : Bool) {s : Run}
    (h : Recorded answers prompt s) :
    let out := (gate answers prompt cfg converged s).2
    out.passes = recorded out.log ∧
      whiches out.log =
        whiches s.log ++ (if (converged && cfg.runAdversarial) = true then [.adversarial] else []) ∧
      ∀ i call answer, out.log[i]? = some (call, answer) →
        answer = answers i ∧ call.prompt = prompt ∧ call.context = latest (out.passes.take i) := by
  intro out
  simp only [out, gate, Bool.and_eq_true]
  split
  · let s' := (safeRun answers prompt .adversarial s).2
    have hlog : s'.log = s.log ++ [(⟨.adversarial, prompt, s.context⟩, answers s.log.length)] := rfl
    obtain ⟨hpasses, hcalls⟩ := calls_snoc .adversarial h hlog rfl
    exact ⟨hpasses, by simp [whiches, safeRun], hcalls⟩
  · exact ⟨h.passes, by simp, h.calls⟩

/-- How many cycles ran, and which pairs of answers were quiet. -/
theorem cycles_spec (answers : Nat → Answer) (prompt : String) (n : Nat) (s : Run) :
    let out := (cycle answers prompt n s).1
    out.2 ≤ n ∧ (out.1 = false → out.2 = n) ∧ (∀ k, k + 1 < out.2 → ¬ Quiet answers (s.log.length + 2 * k)) ∧
      (out.1 = true ↔ 0 < out.2 ∧ Quiet answers (s.log.length + 2 * (out.2 - 1))) := by
  intro out
  rcases cycle_spec answers prompt n s with ⟨k, hk, hbefore, hquiet, hout, -⟩ | ⟨hall, hout⟩
  · simp only [out, hout]
    refine ⟨by omega, by simp, fun j hj => hbefore j (by omega), ?_⟩
    exact iff_of_true trivial ⟨by omega, by simpa using hquiet⟩
  · simp only [out, hout]
    refine ⟨Nat.le_refl n, by simp, fun j hj => hall j (by omega), ?_⟩
    refine iff_of_false (by simp) ?_
    rintro ⟨hpos, hquiet⟩
    exact hall (n - 1) (by omega) hquiet

/-- **Every run of `converge` leaves its trace.** -/
theorem converge_trace (answers : Nat → Answer) (prompt : String) (cfg : WorkflowConfig)
    (buildFirst : Bool) :
    Trace answers prompt cfg buildFirst (converge answers prompt cfg buildFirst).1
      (converge answers prompt cfg buildFirst).2.log := by
  obtain ⟨hstart, hbuild⟩ := start_recorded answers prompt buildFirst
  obtain ⟨hcycled, hpairs⟩ := cycle_recorded cfg.maxCycles.toNat _ hstart
  let cycled := cycle answers prompt cfg.maxCycles.toNat (start answers prompt buildFirst)
  obtain ⟨hle, hall, hearly, hlast⟩ : cycled.1.2 ≤ cfg.maxCycles.toNat ∧
      (cycled.1.1 = false → cycled.1.2 = cfg.maxCycles.toNat) ∧
      (∀ k, k + 1 < cycled.1.2 → ¬ Quiet answers (firstCall buildFirst + 2 * k)) ∧
      (cycled.1.1 = true ↔
        0 < cycled.1.2 ∧ Quiet answers (firstCall buildFirst + 2 * (cycled.1.2 - 1))) := by
    simpa only [length_start] using
      cycles_spec answers prompt cfg.maxCycles.toNat (start answers prompt buildFirst)
  obtain ⟨hpasses, hgate, hcalls⟩ := gate_recorded cfg cycled.1.1 hcycled
  have horder : whiches (converge answers prompt cfg buildFirst).2.log =
      schedule buildFirst cycled.1.2 (cycled.1.1 && cfg.runAdversarial) := by
    refine hgate.trans ?_
    rw [hpairs, hbuild, schedule]
  have hlen := congrArg List.length horder
  rw [length_schedule, whiches, List.length_map] at hlen
  have hroom : firstCall buildFirst + 2 * cycled.1.2 ≤
      (converge answers prompt cfg buildFirst).2.log.length := by
    split at hlen <;> omega
  -- A pair that ran is in the log.
  have hpair : ∀ k < cycled.1.2,
      Settled (converge answers prompt cfg buildFirst).1.passes (firstCall buildFirst + 2 * k) ↔
        Quiet answers (firstCall buildFirst + 2 * k) := by
    intro k hk
    have hrec : (converge answers prompt cfg buildFirst).1.passes =
        recorded (converge answers prompt cfg buildFirst).2.log := hpasses
    rw [hrec]
    have hlt : firstCall buildFirst + 2 * k + 1 < (converge answers prompt cfg buildFirst).2.log.length := by
      omega
    exact settled_iff (fun i call answer hi => (hcalls i call answer hi).1) hlt
  have hfirst : firstCall buildFirst ≤ 1 := by cases buildFirst <;> simp [firstCall]
  constructor
  case bound => split at hlen <;> omega
  case order => exact horder
  case passes => exact hpasses
  case names =>
    intro honest
    refine (congrArg (List.map (·.which)) hpasses).trans ?_
    rw [recorded, List.map_map, whiches]
    refine List.map_congr_left fun ca hca => ?_
    cases hans : ca.2 with
    | ok res => simpa [hans, captured] using honest ca hca res hans
    | error e => simp [hans, captured]
  case calls => exact hcalls
  case converged =>
    refine hlast.trans (and_congr_right fun hpos => ?_)
    exact (hpair (cycled.1.2 - 1) (by omega)).symm
  case earlier =>
    intro k hk hsettled
    have hran : k < cycled.1.2 := Nat.lt_of_succ_lt hk
    exact hearly k hk ((hpair k hran).mp hsettled)
  case exhausted =>
    intro hnot
    have hcycles : (converge answers prompt cfg buildFirst).1.cycles = cfg.maxCycles.toNat :=
      hall hnot
    omega
  case merge =>
    intro hnot
    rw [WorkflowReport.mergeOk, hnot]
    rfl
  case cost => rfl

end Swarm.Workflow
