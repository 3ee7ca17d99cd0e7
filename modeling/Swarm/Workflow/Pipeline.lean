import Swarm.Workflow.Trace

/-!
# The pipeline of `workflow.py`

Stages in order, each with what the last one put out. A converging run is one of them.
-/

namespace Swarm.Workflow

variable (answers : Nat → Answer) (prompt : String)

/-- The loop of `pipeline` from a run on. -/
def stagesFrom (stages : List Pass) (s : Run) : Run :=
  stages.foldl (fun s which => (pass answers prompt which s).2) s

/-- `pipeline`, with its calls. -/
def pipeline (stages : List Pass) : Run := stagesFrom answers prompt stages ⟨[], none, []⟩

variable {answers prompt}

theorem stagesFrom_append (a b : List Pass) (s : Run) :
    stagesFrom answers prompt (a ++ b) s =
      stagesFrom answers prompt b (stagesFrom answers prompt a s) :=
  List.foldl_append

theorem stagesFrom_recorded (stages : List Pass) {s : Run} (h : Recorded answers prompt s) :
    Recorded answers prompt (stagesFrom answers prompt stages s) ∧
      whiches (stagesFrom answers prompt stages s).log = whiches s.log ++ stages := by
  induction stages generalizing s with
  | nil => exact ⟨h, (List.append_nil _).symm⟩
  | cons which rest ih =>
    obtain ⟨hrecorded, hwhiches⟩ := ih (h.pass which)
    refine ⟨hrecorded, hwhiches.trans ?_⟩
    rw [pass_whiches, List.append_assoc, List.singleton_append]

/-! ## A converging run is a pipeline -/

theorem cyclePasses_succ (cycles : Nat) :
    cyclePasses (cycles + 1) = [.simplify, .review] ++ cyclePasses cycles := rfl

theorem cycle_stages (n : Nat) (s : Run) :
    (cycle answers prompt n s).2 = stagesFrom answers prompt (cyclePasses (cycle answers prompt n s).1.2) s := by
  induction n generalizing s with
  | zero => rfl
  | succ n ih =>
    unfold cycle
    dsimp only
    split
    · rfl
    · rw [cyclePasses_succ, stagesFrom_append, ih]
      rfl

theorem start_stages (buildFirst : Bool) :
    start answers prompt buildFirst =
      pipeline answers prompt (if buildFirst then [.build] else []) := by
  cases buildFirst <;> rfl

theorem gate_stages (cfg : WorkflowConfig) (converged : Bool) (s : Run) :
    let gated := stagesFrom answers prompt (if converged && cfg.runAdversarial then [.adversarial] else []) s
    (gate answers prompt cfg converged s).2.passes = gated.passes ∧
      (gate answers prompt cfg converged s).2.log = gated.log := by
  -- The adversary is called like a stage; only the context that it would leave is not kept.
  simp only [gate, Bool.and_eq_true]
  split
  · exact ⟨(pass_passes .adversarial s).symm, (pass_log .adversarial s).symm⟩
  · exact ⟨rfl, rfl⟩

/-- **A converging run is a pipeline** over the passes it took, call for call, when the adversary
is the agent; and a pipeline makes one call for each stage, in order and with the last output
before it that is not empty, and gives the result of each. -/
theorem converge_pipeline (answers : Nat → Answer) (prompt : String) :
    (∀ cfg buildFirst,
        let out := converge answers prompt cfg buildFirst
        let line := pipeline answers prompt
          (schedule buildFirst out.1.cycles (out.1.converged && cfg.runAdversarial))
        out.1.passes = line.passes ∧ out.2.log = line.log) ∧
      ∀ stages,
        let line := pipeline answers prompt stages
        whiches line.log = stages ∧ line.passes = recorded line.log ∧
          ∀ i call answer, line.log[i]? = some (call, answer) →
            answer = answers i ∧ call.prompt = prompt ∧ call.context = latest (line.passes.take i) := by
  constructor
  · intro cfg buildFirst
    have hcycled : ∀ cycles gated, pipeline answers prompt (schedule buildFirst cycles gated) =
        stagesFrom answers prompt (if gated then [.adversarial] else [])
          (stagesFrom answers prompt (cyclePasses cycles) (start answers prompt buildFirst)) := by
      intro cycles gated
      rw [start_stages, pipeline, schedule, stagesFrom_append, stagesFrom_append]
      rfl
    dsimp only
    rw [hcycled]
    unfold converge
    dsimp only
    rw [← cycle_stages]
    exact gate_stages cfg _ _
  · intro stages
    obtain ⟨hrecorded, hwhiches⟩ := stagesFrom_recorded stages (@recorded_nil answers prompt)
    exact ⟨hwhiches, hrecorded.passes, hrecorded.calls⟩

end Swarm.Workflow
