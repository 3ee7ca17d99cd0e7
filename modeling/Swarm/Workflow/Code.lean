import Swarm.Python

/-!
# The converging workflow, as `workflow.py` computes it

An agent may keep state, so its answers are counted: the answer to a call goes by the number of
calls before it, to the agent or to the adversary.
-/

namespace Swarm.Workflow

inductive Pass
  | build
  | simplify
  | review
  | adversarial
  deriving DecidableEq, Repr

structure PassResult where
  which : Pass
  changed : Bool
  passed : Option Bool
  findings : List String
  output : Option String
  costUsd : Num
  deriving DecidableEq, Repr

/-- A result, or the `repr` of the `Exception` that was raised. What is no `Exception` ends
`converge` without a report and is left out. -/
abbrev Answer := Except String PassResult

structure Call where
  which : Pass
  prompt : String
  context : Option String
  deriving DecidableEq, Repr

structure WorkflowConfig where
  maxCycles : Int
  runAdversarial : Bool
  deriving DecidableEq, Repr

def WorkflowConfig.default : WorkflowConfig := ⟨5, true⟩

structure WorkflowReport where
  passes : List PassResult
  converged : Bool
  cycles : Nat
  adversarialPassed : Bool
  totalCostUsd : Num
  deriving DecidableEq, Repr

def WorkflowReport.mergeOk (r : WorkflowReport) : Bool := r.converged && r.adversarialPassed

/-- The local variables of `converge`, and every call with its answer. -/
structure Run where
  passes : List PassResult
  context : Option String
  log : List (Call × Answer)

variable (answers : Nat → Answer) (prompt : String)

/-- What `_safe_run` makes of an answer. -/
def captured (which : Pass) : Answer → PassResult
  | .ok res => res
  | .error exc =>
    { which := which
      changed := false
      passed := if which = .adversarial then some false else none
      findings := ["pass-error: " ++ exc]
      output := none
      costUsd := .finite 0 }

/-- `_safe_run` in the context of the run. -/
def safeRun (which : Pass) (s : Run) : PassResult × Run :=
  let answer := answers s.log.length
  let res := captured which answer
  (res, { s with log := s.log ++ [(⟨which, prompt, s.context⟩, answer)], passes := s.passes ++ [res] })

/-- A pass whose output, unless it is empty, is the next context. -/
def pass (which : Pass) (s : Run) : PassResult × Run :=
  let out := safeRun answers prompt which s
  match out.1.output with
  | none | some "" => out
  | some text => (out.1, { out.2 with context := some text })

/-- The cycles that are left: whether they converged and how many ran. -/
def cycle : Nat → Run → (Bool × Nat) × Run
  | 0, s => ((false, 0), s)
  | n + 1, s =>
    let simplify := pass answers prompt .simplify s
    let review := pass answers prompt .review simplify.2
    if simplify.1.changed = false ∧ review.1.changed = false then ((true, 1), review.2)
    else
      let rest := cycle n review.2
      ((rest.1.1, rest.1.2 + 1), rest.2)

def gate (cfg : WorkflowConfig) (converged : Bool) (s : Run) : Bool × Run :=
  if converged ∧ cfg.runAdversarial then
    let adv := safeRun answers prompt .adversarial s
    (adv.1.passed.getD false, adv.2)
  else (converged, s)

def start (buildFirst : Bool) : Run :=
  if buildFirst then (pass answers prompt .build ⟨[], none, []⟩).2 else ⟨[], none, []⟩

def converge (cfg : WorkflowConfig) (buildFirst : Bool) : WorkflowReport × Run :=
  let cycled := cycle answers prompt cfg.maxCycles.toNat (start answers prompt buildFirst)
  let gated := gate answers prompt cfg cycled.1.1 cycled.2
  ({ passes := gated.2.passes
     converged := cycled.1.1
     cycles := cycled.1.2
     adversarialPassed := gated.1
     totalCostUsd := ((gated.2.passes.map (·.costUsd)).foldl Num.add (.finite 0)).round 6 }, gated.2)

end Swarm.Workflow
