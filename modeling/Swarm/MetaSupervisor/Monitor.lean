import Mathlib.Algebra.BigOperators.Group.List.Basic
import Mathlib.Tactic.Positivity
import Mathlib.Tactic.Linarith
import Swarm.Kanban.Code
import Swarm.Lib.Tally
import Swarm.MetaSupervisor

/-!
# The monitor, as `meta_supervisor.py` keeps it

It hears of every finished task and of every failure the operator has dealt with, and says before a
task is claimed whether its cost is within bounds. Costs are floats: `fl` rounds the result of an
operation on them.
-/

namespace Swarm.MetaSupervisor

open Lib

variable (fl : ℚ → ℚ)

/-! ## Cost preflight -/

/-- The verdicts, as the source spells them. -/
inductive Verdict
  | ADMIT | HOLD | REJECT
  deriving DecidableEq, Repr

def Verdict.severity : Verdict → Nat
  | .ADMIT => 0
  | .HOLD => 1
  | .REJECT => 2

structure PreflightVerdict where
  verdict : Verdict
  reason : String
  estimatedCostUsd : Num
  capUsd : Option Num
  deriving DecidableEq, Repr

/-- `f"{x:.4f}"` -/
def usd : Num → String
  | .finite q => fixed 4 q
  | .inf false => "inf"
  | .inf true => "-inf"
  | .nan => "nan"

/-- `0.8 * x` -/
def warnLevel : Num → Num
  | .finite q => .finite (fl (fl (4 / 5) * q))
  | x => x

def DEFAULT_COST_PER_TASK : ℚ := fl (1 / 20)

/-- The cap that the metadata gives. A task has no attribute of that name. -/
def costCapUsd (py : Builtins) (task : Task) : Except PyError (Option Num) :=
  let named := Value.get task.metadata "cost_cap_usd"
  match (match named.or .null with | .null => named | cap => cap) with
  | .null => .ok none
  | cap =>
    match cap.toFloat py with
    | .ok x => .ok (some x)
    | .error (.typeError _) | .error (.valueError _) => .ok none
    | .error e => .error e

/-- The verdict on an estimate. -/
def judge (estimate : Num) (cap dailyBudgetRemainingUsd : Option Num) : PreflightVerdict :=
  let capHit := cap.filter fun cap => cap.le estimate
  let overspent := dailyBudgetRemainingUsd.filter fun budget => budget.lt estimate
  let close := cap.filter fun cap => (warnLevel fl cap).le estimate
  match capHit, overspent, close with
  | some cap', _, _ =>
    ⟨.REJECT, "estimated cost $" ++ usd estimate ++ " >= task cap $" ++ usd cap', estimate, cap⟩
  | none, some budget, _ =>
    ⟨.REJECT, "estimated cost $" ++ usd estimate ++ " > daily budget remaining $" ++ usd budget, estimate, cap⟩
  | none, none, some cap' =>
    ⟨.HOLD, "estimated cost $" ++ usd estimate ++ " is >80% of cap $" ++ usd cap', estimate, cap⟩
  | none, none, none => ⟨.ADMIT, "within bounds", estimate, cap⟩

/-- `cost_preflight` of the module. -/
def costPreflight (py : Builtins) (task : Task)
    (historicalAvgUsd dailyBudgetRemainingUsd : Option Num) :
    Except PyError PreflightVerdict :=
  (costCapUsd py task).map fun cap =>
    judge fl (historicalAvgUsd.getD (.finite (DEFAULT_COST_PER_TASK fl))) cap dailyBudgetRemainingUsd

/-! ## The monitor -/

/-- `_fingerprint` -/
def fingerprint (task : Kanban.Task) : String :=
  task.requiredHead ++ ":" ++ task.type ++ ":" ++ String.ofList ((task.error.getD "").toList.take 120)

structure Monitor where
  anomalyTracker : Alarm String
  headCostSum : List (String × ℚ)
  headCostCount : List (String × Nat)

def Monitor.init (escalationThreshold : Int) : Monitor := ⟨⟨escalationThreshold, [], []⟩, [], []⟩

/-- Whether an anomaly escalated. -/
def Monitor.recordOutcome (m : Monitor) (task : Kanban.Task) (headName : String) : Bool × Monitor :=
  let m' : Monitor := { m with
    headCostSum := assocSet m.headCostSum headName (fl ((m.headCostSum.lookup headName).getD 0 + task.costUsd))
    headCostCount := assocSet m.headCostCount headName ((m.headCostCount.lookup headName).getD 0 + 1) }
  if task.status = .failed then
    let (escalated, tracker) := m'.anomalyTracker.record (fingerprint task)
    (escalated, { m' with anomalyTracker := tracker })
  else (false, m')

/-- `_head_avg_cost`. -/
def Monitor.headAvgCost (m : Monitor) (head : String) : ℚ :=
  let count := (m.headCostCount.lookup head).getD 0
  if count = 0 then DEFAULT_COST_PER_TASK fl else fl ((m.headCostSum.lookup head).getD 0 / count)

def Monitor.topFailures (m : Monitor) (n : Int) : List (String × Nat) :=
  mostCommon m.anomalyTracker.counts n

/-- `head_name or task.required_head` -/
def headFor (task : Task) (headName : Option String) : String :=
  match headName with
  | none | some "" => task.requiredHead
  | some head => head

/-- `cost_preflight` of the monitor, on the mean of the head. -/
def Monitor.costPreflight (m : Monitor) (py : Builtins) (task : Task) (headName : Option String)
    (dailyBudgetRemainingUsd : Option Num) : Except PyError PreflightVerdict :=
  MetaSupervisor.costPreflight fl py task (some (.finite (m.headAvgCost fl (headFor task headName))))
    dailyBudgetRemainingUsd

/-! ## Histories -/

/-- What the monitor is told. -/
inductive Event
  | outcome (task : Kanban.Task) (headName : String)
  /-- `anomaly_tracker.reset` -/
  | acknowledged (fp : String)

def Monitor.hear (m : Monitor) : Event → Monitor
  | .outcome task headName => (m.recordOutcome fl task headName).2
  | .acknowledged fp => { m with anomalyTracker := m.anomalyTracker.reset fp }

def Monitor.after (escalationThreshold : Int) (events : List Event) : Monitor :=
  events.foldl (Monitor.hear fl) (.init escalationThreshold)

/-- The failures that a history holds, and their acknowledgements. -/
def failures (events : List Event) : List (Act String) :=
  events.filterMap fun
    | .outcome task _ => if task.status = .failed then some (.record (fingerprint task)) else none
    | .acknowledged fp => some (.reset fp)

/-- What the outcomes of a head have cost, oldest first. -/
def costs (head : String) (events : List Event) : List ℚ :=
  events.filterMap fun
    | .outcome task headName => if headName = head then some task.costUsd else none
    | .acknowledged _ => none

/-- The costs added up one by one. -/
def total (costs : List ℚ) : ℚ := costs.foldl (fun sum cost => fl (sum + cost)) 0

/-- The mean of these costs, or the default without any. -/
def meanCost (head : String) (events : List Event) : ℚ :=
  if costs head events = [] then DEFAULT_COST_PER_TASK fl
  else fl (total fl (costs head events) / (costs head events).length)

structure Monitor.Inv (threshold : Int) (events : List Event) (m : Monitor) : Prop where
  level : m.anomalyTracker.level = max 1 threshold.toNat
  tracker : m.anomalyTracker.Inv (failures events)
  count : ∀ head, (m.headCostCount.lookup head).getD 0 = (costs head events).length
  sum : ∀ head, (m.headCostSum.lookup head).getD 0 = total fl (costs head events)

theorem failures_snoc (events : List Event) (e : Event) :
    failures (events ++ [e]) = failures events ++ failures [e] :=
  List.filterMap_append

theorem costs_snoc (head : String) (events : List Event) (e : Event) :
    costs head (events ++ [e]) = costs head events ++ costs head [e] :=
  List.filterMap_append

theorem total_snoc (costs : List ℚ) (cost : ℚ) :
    total fl (costs ++ [cost]) = fl (total fl costs + cost) := by
  simp [total, List.foldl_append]

variable {fl} {events : List Event} {m : Monitor} {threshold : Int}

theorem Monitor.recordOutcome_eq (m : Monitor) (task : Kanban.Task) (headName : String) :
    (m.recordOutcome fl task headName).2 =
      { anomalyTracker :=
          if task.status = .failed then (m.anomalyTracker.record (fingerprint task)).2 else m.anomalyTracker
        headCostSum := assocSet m.headCostSum headName (fl ((m.headCostSum.lookup headName).getD 0 + task.costUsd))
        headCostCount := assocSet m.headCostCount headName ((m.headCostCount.lookup headName).getD 0 + 1) } := by
  unfold recordOutcome
  dsimp only
  split <;> rfl

theorem Monitor.Inv.outcome (h : m.Inv fl threshold events) (task : Kanban.Task)
    (headName : String) :
    (m.recordOutcome fl task headName).2.Inv fl threshold (events ++ [.outcome task headName]) := by
  rw [Monitor.recordOutcome_eq]
  refine ⟨?_, ?_, fun head => ?_, fun head => ?_⟩
  · dsimp only
    split
    · rw [Alarm.record_level, h.level]
    · exact h.level
  · rw [failures_snoc]
    by_cases hfailed : task.status = .failed
    · simpa [failures, hfailed] using h.tracker.record (fingerprint task)
    · simpa [failures, hfailed] using h.tracker
  · rw [costs_snoc, lookup_assocSet]
    by_cases hhead : head = headName
    · simp [costs, hhead, h.count, Nat.add_comm]
    · simp [costs, hhead, Ne.symm hhead, h.count]
  · rw [costs_snoc, lookup_assocSet]
    by_cases hhead : head = headName
    · have hcost : costs headName [.outcome task headName] = [task.costUsd] := by simp [costs]
      simp [hhead, h.sum, hcost, total_snoc]
    · simp [costs, hhead, Ne.symm hhead, h.sum]

theorem Monitor.Inv.acknowledged (h : m.Inv fl threshold events) (fp : String) :
    (m.hear fl (.acknowledged fp)).Inv fl threshold (events ++ [.acknowledged fp]) := by
  refine ⟨h.level, ?_, fun head => ?_, fun head => ?_⟩
  · rw [failures_snoc]
    exact h.tracker.reset fp
  · rw [costs_snoc, show costs head [.acknowledged fp] = [] from rfl, List.append_nil]
    exact h.count head
  · rw [costs_snoc, show costs head [.acknowledged fp] = [] from rfl, List.append_nil]
    exact h.sum head

theorem Monitor.inv_after (fl : ℚ → ℚ) (threshold : Int) (events : List Event) :
    (Monitor.after fl threshold events).Inv fl threshold events := by
  induction events using List.reverseRecOn with
  | nil => exact ⟨rfl, Alarm.inv_nil threshold, fun _ => rfl, fun _ => rfl⟩
  | append_singleton before e ih =>
    rw [Monitor.after, List.foldl_append]
    cases e with
    | outcome task headName => exact ih.outcome task headName
    | acknowledged fp => exact ih.acknowledged fp

/-! ## Anomalies -/

/-- The `n` commonest failures, each with its count since it was last dealt with; of two that are
as common, the one that has been counted longer comes first. -/
def Top (acts : List (Act String)) (n : Int) (top : List (String × Nat)) : Prop :=
  ∃ all : List (String × Nat), top = all.take n.toNat ∧ (all.map (·.1)).Nodup ∧
    (∀ fp count, (fp, count) ∈ all ↔ count = since fp acts ∧ 0 < count) ∧ all.Pairwise (Ahead (Older acts))

theorem Monitor.Inv.top (h : m.Inv fl threshold events) (n : Int) :
    Top (failures events) n (m.topFailures n) := by
  have hperm := ranked_perm m.anomalyTracker.counts
  refine ⟨ranked m.anomalyTracker.counts, rfl, ?_, fun fp count => ?_, ?_⟩
  · exact (hperm.map _).nodup_iff.mpr h.tracker.tallies.nodup
  · rw [hperm.mem_iff]
    exact h.tracker.tallies.mem_iff fp count
  · exact ranked_ahead h.tracker.tallies.older

/-- **An anomaly escalates once**, with the failure that brings its count since the last
acknowledgement to the threshold, in whatever order outcomes and acknowledgements come; and the top
failures are those counts. -/
theorem anomaly_escalates (fl : ℚ → ℚ) (threshold : Int) (events : List Event) :
    (∀ task headName, ((Monitor.after fl threshold events).recordOutcome fl task headName).1 =
      true ↔
        task.status = .failed ∧ since (fingerprint task) (failures events) + 1 =
          max 1 threshold.toNat) ∧
      ∀ n, Top (failures events) n ((Monitor.after fl threshold events).topFailures n) := by
  have h := Monitor.inv_after fl threshold events
  refine ⟨fun task headName => ?_, h.top⟩
  have hfires := h.tracker.fires (fingerprint task)
  rw [h.level] at hfires
  unfold Monitor.recordOutcome
  dsimp only
  split
  · next hfailed => simpa [hfailed] using hfires
  · next hother => simp [hother]

/-! ## The preflight of a history -/

theorem Monitor.Inv.headAvgCost (h : m.Inv fl threshold events) (head : String) :
    m.headAvgCost fl head = meanCost fl head events := by
  unfold Monitor.headAvgCost meanCost
  dsimp only
  rw [h.count, h.sum]
  by_cases hnone : costs head events = []
  · simp [hnone]
  · simp [hnone]

/-- Nothing that the head did. -/
def Event.Elsewhere (head : String) : Event → Prop
  | .outcome _ headName => headName ≠ head
  | .acknowledged _ => True

theorem costs_elsewhere {e : Event} {head : String} (h : e.Elsewhere head) :
    costs head [e] = [] := by
  cases e with
  | outcome task headName => simpa [costs, Event.Elsewhere] using h
  | acknowledged fp => rfl

theorem meanCost_elsewhere {e : Event} {head : String} (h : e.Elsewhere head) :
    meanCost fl head (events ++ [e]) = meanCost fl head events := by
  rw [meanCost, costs_snoc, costs_elsewhere h, List.append_nil, meanCost]

/-! ### In exact arithmetic -/

theorem total_exact (costs : List ℚ) : total id costs = costs.sum := by
  simp [total, List.sum_eq_foldl]

/-- For this head nothing was cheaper than the mean. -/
def Event.Dearer (head : String) (mean : ℚ) : Event → Prop
  | .outcome task headName => headName = head → mean ≤ task.costUsd
  | .acknowledged _ => True

/-- For this head nothing was dearer than the mean. -/
def Event.Cheaper (head : String) (mean : ℚ) : Event → Prop
  | .outcome task headName => headName = head → task.costUsd ≤ mean
  | .acknowledged _ => True

theorem meanCost_of_snoc {e : Event} {head : String} {cost : ℚ} (he : costs head [e] = [cost]) :
    (meanCost id head events ≤ cost → meanCost id head events ≤ meanCost id head (events ++ [e])) ∧
      (cost ≤ meanCost id head events →
        meanCost id head (events ++ [e]) ≤ meanCost id head events) := by
  simp only [meanCost, total_exact, id_eq]
  rw [costs_snoc, he, if_neg (by simp : costs head events ++ [cost] ≠ [])]
  by_cases hnone : costs head events = []
  · simp [hnone]
  · rw [if_neg hnone]
    have hpos : (0 : ℚ) < (costs head events).length := by
      exact_mod_cast List.length_pos_of_ne_nil hnone
    have hpos' : (0 : ℚ) < (costs head events).length + 1 := by positivity
    simp only [List.sum_append, List.sum_singleton, List.length_append, List.length_singleton, Nat.cast_add,
      Nat.cast_one]
    constructor
    · intro hle
      rw [div_le_iff₀ hpos] at hle
      rw [div_le_div_iff₀ hpos hpos']
      linarith
    · intro hle
      rw [le_div_iff₀ hpos] at hle
      rw [div_le_div_iff₀ hpos' hpos]
      linarith

theorem meanCost_snoc (events : List Event) (e : Event) (head : String) :
    (e.Dearer head (meanCost id head events) →
      meanCost id head events ≤ meanCost id head (events ++ [e])) ∧
      (e.Cheaper head (meanCost id head events) →
        meanCost id head (events ++ [e]) ≤ meanCost id head events) := by
  cases e with
  | outcome task headName =>
    by_cases hhead : headName = head
    · have hcost : costs head [.outcome task headName] = [task.costUsd] := by simp [costs, hhead]
      obtain ⟨hup, hdown⟩ := meanCost_of_snoc hcost
      exact ⟨fun h => hup (h hhead), fun h => hdown (h hhead)⟩
    · have hmean : meanCost id head (events ++ [.outcome task headName]) = meanCost id head events :=
        meanCost_elsewhere hhead
      exact ⟨fun _ => hmean.ge, fun _ => hmean.le⟩
  | acknowledged fp =>
    have hmean : meanCost id head (events ++ [.acknowledged fp]) = meanCost id head events :=
      meanCost_elsewhere trivial
    exact ⟨fun _ => hmean.ge, fun _ => hmean.le⟩

/-! ### The verdict grows with the estimate -/

theorem le_finite_trans {x : Num} {p q : ℚ} (hpq : p ≤ q) (h : x.le (.finite p) = true) :
    x.le (.finite q) = true := by
  cases x with
  | finite r =>
    simp only [Num.le, decide_eq_true_eq] at h ⊢
    exact h.trans hpq
  | inf negative => exact h
  | nan => simp [Num.le] at h

theorem lt_finite_trans {x : Num} {p q : ℚ} (hpq : p ≤ q) (h : x.lt (.finite p) = true) :
    x.lt (.finite q) = true := by
  cases x with
  | finite r =>
    simp only [Num.lt, decide_eq_true_eq] at h ⊢
    exact h.trans_le hpq
  | inf negative => exact h
  | nan => simp [Num.lt] at h

/-- What a verdict means. -/
structure Judged (fl : ℚ → ℚ) (estimate : Num) (cap budget : Option Num) (v : Verdict) : Prop where
  reject : v = .REJECT ↔ (∃ c, cap = some c ∧ c.le estimate = true) ∨ ∃ b, budget = some b ∧ b.lt estimate = true
  hold : v = .HOLD ↔ v ≠ .REJECT ∧ ∃ c, cap = some c ∧ (warnLevel fl c).le estimate = true

theorem judge_judged (estimate : Num) (cap budget : Option Num) :
    Judged fl estimate cap budget (judge fl estimate cap budget).verdict := by
  have hfilter : ∀ (x : Option Num) (p : Num → Bool), x.filter p = none ↔ ¬ ∃ c, x = some c ∧ p c = true := by
    intro x p
    cases x <;> simp
  unfold judge
  dsimp only
  split
  · next c hcap =>
    obtain ⟨hc, hle⟩ := Option.filter_eq_some_iff.mp hcap
    exact ⟨iff_of_true rfl (.inl ⟨c, hc, hle⟩), by simp⟩
  · next b _ hbudget =>
    obtain ⟨hb, hlt⟩ := Option.filter_eq_some_iff.mp hbudget
    exact ⟨iff_of_true rfl (.inr ⟨b, hb, hlt⟩), by simp⟩
  · next c hcap hbudget hclose =>
    obtain ⟨hc, hle⟩ := Option.filter_eq_some_iff.mp hclose
    refine ⟨iff_of_false (by simp) (not_or.mpr ⟨(hfilter _ _).mp hcap, (hfilter _ _).mp hbudget⟩), ?_⟩
    exact iff_of_true rfl ⟨by simp, c, hc, hle⟩
  · next hcap hbudget hclose =>
    refine ⟨iff_of_false (by simp) (not_or.mpr ⟨(hfilter _ _).mp hcap, (hfilter _ _).mp hbudget⟩), ?_⟩
    exact iff_of_false (by simp) fun h => (hfilter _ _).mp hclose h.2

theorem Judged.severity_le {p q : ℚ} (hpq : p ≤ q) {cap budget : Option Num} {v w : Verdict}
    (hv : Judged fl (.finite p) cap budget v) (hw : Judged fl (.finite q) cap budget w) :
    v.severity ≤ w.severity := by
  have hreject : v = .REJECT → w = .REJECT := by
    intro h
    rcases hv.reject.mp h with ⟨c, hc, hle⟩ | ⟨b, hb, hlt⟩
    · exact hw.reject.mpr (.inl ⟨c, hc, le_finite_trans hpq hle⟩)
    · exact hw.reject.mpr (.inr ⟨b, hb, lt_finite_trans hpq hlt⟩)
  have hhold : v = .HOLD → w ≠ .ADMIT := by
    rintro h rfl
    obtain ⟨-, c, hc, hle⟩ := hv.hold.mp h
    have := hw.hold.mpr ⟨by simp, c, hc, le_finite_trans hpq hle⟩
    simp at this
  cases v <;> cases w <;> simp_all [Verdict.severity]

theorem Monitor.preflight_eq (fl : ℚ → ℚ) (threshold : Int) (events : List Event) (py : Builtins)
    (task : Task) (headName : Option String) (budget : Option Num) :
    (Monitor.after fl threshold events).costPreflight fl py task headName budget =
      (costCapUsd py task).map fun cap =>
        judge fl (.finite (meanCost fl (headFor task headName) events)) cap budget := by
  rw [Monitor.costPreflight, (Monitor.inv_after fl threshold events).headAvgCost]
  rfl

/-- **The gate follows the costs.** After any history the verdict is that on the mean of what the
head has cost, as floats add and divide. What is no outcome of the head changes nothing, and of the
others the verdict is the stricter the higher they bring the mean. In exact arithmetic an outcome
that is no cheaper than the mean never loosens it, and one that is no dearer never tightens it. -/
theorem gate_follows_costs (fl : ℚ → ℚ) (threshold : Int) (events : List Event) (py : Builtins)
    (task : Task) (headName : Option String) (budget : Option Num) (v : PreflightVerdict)
    (hv : (Monitor.after fl threshold events).costPreflight fl py task headName budget = .ok v) :
    let head := headFor task headName
    v.estimatedCostUsd = .finite (meanCost fl head events) ∧ Judged fl v.estimatedCostUsd v.capUsd budget v.verdict ∧
      ∀ e, ∃ w, (Monitor.after fl threshold (events ++ [e])).costPreflight fl py task headName budget = .ok w ∧
        (e.Elsewhere head → w = v) ∧
        (meanCost fl head events ≤ meanCost fl head (events ++ [e]) → v.verdict.severity ≤ w.verdict.severity) ∧
        (meanCost fl head (events ++ [e]) ≤ meanCost fl head events → w.verdict.severity ≤ v.verdict.severity) ∧
        (fl = id →
          (e.Dearer head (meanCost fl head events) → v.verdict.severity ≤ w.verdict.severity) ∧
            (e.Cheaper head (meanCost fl head events) → w.verdict.severity ≤ v.verdict.severity)) := by
  rw [Monitor.preflight_eq] at hv
  simp only [Monitor.preflight_eq]
  -- The cap is of the task alone, so before and after `e` it is the same.
  cases hcap : costCapUsd py task with
  | error e =>
    rw [hcap] at hv
    cases hv
  | ok cap =>
    rw [hcap] at hv
    obtain rfl := Except.ok.inj hv
    have hfields : ∀ estimate, (judge fl estimate cap budget).estimatedCostUsd = estimate ∧
        (judge fl estimate cap budget).capUsd = cap := by
      intro estimate
      unfold judge
      dsimp only
      split <;> exact ⟨rfl, rfl⟩
    have hgrows : ∀ {p q : ℚ}, p ≤ q →
        (judge fl (.finite p) cap budget).verdict.severity ≤ (judge fl (.finite q) cap budget).verdict.severity :=
      fun hpq => (judge_judged _ cap budget).severity_le hpq (judge_judged _ cap budget)
    refine ⟨(hfields _).1, ?_, fun e => ⟨_, rfl, fun h => ?_, hgrows, hgrows, ?_⟩⟩
    · rw [(hfields _).1, (hfields _).2]
      exact judge_judged _ cap budget
    · rw [meanCost_elsewhere h]
    · rintro rfl
      exact ⟨fun h => hgrows ((meanCost_snoc events e _).1 h), fun h => hgrows ((meanCost_snoc events e _).2 h)⟩

/-! ### Three dimes -/

def dime : ℚ := toDouble (1 / 10)

/-- No cap. -/
def plain : Task := ⟨[], "agent", "builder", []⟩

def dimes (n : Nat) : List Event :=
  List.replicate n (.outcome { Kanban.Task.new "a" 0 with costUsd := dime, status := .done } "builder")

/-- The verdict after so many dimes, with a dime left of the budget. -/
def dimeLeft (fl : ℚ → ℚ) (n : Nat) : Except PyError PreflightVerdict :=
  (Monitor.after fl 3 (dimes n)).costPreflight fl noNumbers plain none (some (.finite dime))

def withinBounds : PreflightVerdict := ⟨.ADMIT, "within bounds", .finite dime, none⟩

theorem twoDimes_admitted :
    dimeLeft toDouble 2 = .ok withinBounds ∧ dimeLeft id 2 = .ok withinBounds :=
  ⟨by decide +kernel, by decide +kernel⟩

/-- The third dime is no dearer than the mean of two. As floats its sum rounds up, and the mean
exceeds a dime. -/
theorem dimes_gate :
    (∃ w, dimeLeft toDouble 3 = .ok w ∧ w.verdict = .REJECT ∧
      (meanCost toDouble "builder" (dimes 2) ≤ meanCost toDouble "builder" (dimes 3) →
        withinBounds.verdict.severity ≤ w.verdict.severity)) ∧
      ∃ w, dimeLeft id 3 = .ok w ∧ w.verdict.severity ≤ withinBounds.verdict.severity := by
  obtain ⟨hfloat, hexact⟩ := twoDimes_admitted
  obtain ⟨-, -, hnext⟩ :=
    gate_follows_costs toDouble 3 (dimes 2) noNumbers plain none _ withinBounds hfloat
  obtain ⟨-, -, hnext'⟩ :=
    gate_follows_costs id 3 (dimes 2) noNumbers plain none _ withinBounds hexact
  let third : Event :=
    .outcome { Kanban.Task.new "a" 0 with costUsd := dime, status := .done } "builder"
  obtain ⟨w, hw, -, hgrows, -⟩ := hnext third
  obtain ⟨w', hw', -, -, -, hid⟩ := hnext' third
  have hthird : (dimeLeft toDouble 3).map (·.verdict) = .ok .REJECT := by decide +kernel
  refine ⟨⟨w, hw, ?_, hgrows⟩, w', hw', (hid rfl).2 fun _ => ?_⟩
  · have hmap : (dimeLeft toDouble 3).map (·.verdict) = .ok w.verdict := congrArg (Except.map _) hw
    exact (Except.ok.inj (hthird.symm.trans hmap)).symm
  · decide +kernel

end Swarm.MetaSupervisor
