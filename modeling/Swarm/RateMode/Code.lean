import Swarm.Usage

/-! # The governor, as `governor.py` computes it -/

namespace Swarm.RateMode

open Usage

/-- The modes of the governor. -/
inductive Mode
  | cheapPlans
  | apiSwarm
  | throttled
  deriving DecidableEq, Repr

/-! ## Configuration -/

/-- A `GovernorConfig` that its `__post_init__` accepts. -/
structure GovernorConfig where
  enterCheapFraction : ℚ
  exitCheapFraction : ℚ
  apiDailyBudgetUsd : Num
  minDwellS : Num
  band : 0 ≤ exitCheapFraction ∧ exitCheapFraction < enterCheapFraction ∧ enterCheapFraction ≤ 1
  budget_nonneg : apiDailyBudgetUsd.lt (.finite 0) = false
  dwell_nonneg : minDwellS.lt (.finite 0) = false

/-- The `ValueError`s of `__post_init__`, with what their texts quote. -/
inductive ConfigError
  | band (exit enter : ℚ)
  | apiDailyBudgetUsd
  | minDwellS
  deriving DecidableEq, Repr

/-- The constructor. Fractions that are not finite fail its first test. -/
def governorConfig (enter exit : ℚ) (budget dwell : Num) : Except ConfigError GovernorConfig :=
  if hband : 0 ≤ exit ∧ exit < enter ∧ enter ≤ 1 then
    if hbudget : budget.lt (.finite 0) = false then
      if hdwell : dwell.lt (.finite 0) = false then
        .ok ⟨enter, exit, budget, dwell, hband, hbudget, hdwell⟩
      else .error .minDwellS
    else .error .apiDailyBudgetUsd
  else .error (.band exit enter)

def GovernorConfig.default : GovernorConfig where
  enterCheapFraction := 3 / 20
  exitCheapFraction := 1 / 20
  apiDailyBudgetUsd := .finite 25
  minDwellS := .finite 120
  band := by norm_num
  budget_nonneg := by decide
  dwell_nonneg := by decide

theorem governorConfig_ok (c : GovernorConfig) :
    governorConfig c.enterCheapFraction c.exitCheapFraction c.apiDailyBudgetUsd c.minDwellS =
      .ok c := by
  rw [governorConfig, dif_pos c.band, dif_pos c.budget_nonneg, dif_pos c.dwell_nonneg]

/-! ## State -/

/-- `api_spend_day`: the text of a day, counted from 1970-01-01, or text that no day has. -/
inductive DayText
  | date (day : Int)
  | other (text : String)
  deriving DecidableEq, Repr

/-- `_GovernorState`. -/
structure GovernorState where
  mode : Mode
  modeSince : Option Num
  apiSpendUsd : Num
  apiSpendDay : DayText
  deriving DecidableEq, Repr

def GovernorState.fresh : GovernorState := ⟨.cheapPlans, none, .finite 0, .other ""⟩

/-- What `to_dict` keeps. -/
def GovernorState.toDict (s : GovernorState) : GovernorState :=
  { s with apiSpendUsd := s.apiSpendUsd.round 6 }

structure Governor where
  state : GovernorState
  file : Option GovernorState
  deriving DecidableEq, Repr

def Governor.fresh : Governor := ⟨.fresh, none⟩

def Governor.save (g : Governor) : Governor := { g with file := some g.state.toDict }

/-! ## The UTC day -/

def microsPerDay : Int := 86400 * 10 ^ 6

/-- `datetime.fromtimestamp` rounds to microseconds and knows the years 1 to 9999. Its error also
names the year, and far out it is the C library's own. -/
def utcDay (now : ℚ) : Except PyError Int :=
  let day := Lib.roundHalfEven (now * 10 ^ 6) / microsPerDay
  if -719162 ≤ day ∧ day ≤ 2932896 then .ok day else .error (.valueError "year is out of range")

/-! ## Spend -/

def Governor.rollDay (g : Governor) (today : Int) : Governor :=
  if g.state.apiSpendDay = .date today then g
  else Governor.save
    { g with state := { g.state with apiSpendDay := .date today, apiSpendUsd := .finite 0 } }

def Governor.recordApiSpend (g : Governor) (usd : Num) (now : ℚ) : Except PyError Unit × Governor :=
  if usd.lt (.finite 0) then (.error (.valueError "usd must be non-negative"), g)
  else
    match utcDay now with
    | .error e => (.error e, g)
    | .ok today =>
      let g := g.rollDay today
      (.ok (), Governor.save
        { g with state := { g.state with apiSpendUsd := g.state.apiSpendUsd.add usd } })

/-! ## The decision -/

/-- The `reason` of a decision, with what its text quotes. -/
inductive Reason
  | withinDwell
  | noThresholdCrossed
  | overBudget (spend budget : Num)
  | exhausted (exitCheapFraction : ℚ)
  | recovered (enterCheapFraction : ℚ)
  | budgetRecoveredCheap
  | budgetRecoveredApi
  deriving DecidableEq, Repr

structure Decision where
  mode : Mode
  lane : Lane
  reason : Reason
  changed : Bool
  modeSince : Option Num
  apiSpendUsd : Num
  apiDailyBudgetUsd : Num
  deriving DecidableEq, Repr

def laneForMode (mode : Mode) (snap : Snapshot) : Lane :=
  match mode with
  | .cheapPlans | .throttled => (snap.bestSubscriptionLane.map (·.lane)).getD .api
  | .apiSwarm => .api

def Governor.transition (g : Governor) (newMode : Mode) (now : ℚ) : Governor :=
  if newMode = g.state.mode then g
  else Governor.save { g with state := { g.state with mode := newMode, modeSince := some (.finite now) } }

/-- The dwell clock starts at the first decision. -/
def Governor.stamp (g : Governor) (now : ℚ) : Governor :=
  match g.state.modeSince with
  | some _ => g
  | none => Governor.save { g with state := { g.state with modeSince := some (.finite now) } }

variable (cfg : GovernorConfig)

def overBudget (spend : Num) : Bool := cfg.apiDailyBudgetUsd.le spend

def dwellOk (now : ℚ) (since : Num) : Bool := cfg.minDwellS.le ((Num.finite now).sub since)

/-- Where the thresholds send a mode whose dwell is over, within the budget. -/
def crossed (snap : Snapshot) (current : Mode) : Mode × Reason :=
  match current with
  | .cheapPlans =>
    if snap.anySubscriptionHeadroom cfg.exitCheapFraction then (.cheapPlans, .noThresholdCrossed)
    else (.apiSwarm, .exhausted cfg.exitCheapFraction)
  | .apiSwarm =>
    if snap.anySubscriptionHeadroom cfg.enterCheapFraction then
      (.cheapPlans, .recovered cfg.enterCheapFraction)
    else (.apiSwarm, .noThresholdCrossed)
  | .throttled =>
    if snap.anySubscriptionHeadroom cfg.enterCheapFraction then (.cheapPlans, .budgetRecoveredCheap)
    else (.apiSwarm, .budgetRecoveredApi)

/-- The target of a decision and its reason. The budget stop does not wait for the dwell. -/
def target (snap : Snapshot) (now : ℚ) (since spend : Num) (current : Mode) : Mode × Reason :=
  if overBudget cfg spend then (.throttled, .overBudget spend cfg.apiDailyBudgetUsd)
  else if dwellOk cfg now since then crossed cfg snap current
  else (current, .withinDwell)

def Governor.decide (g : Governor) (tracker : Tracker) (now : ℚ) :
    Except PyError Decision × Governor :=
  match utcDay now with
  | .error e => (.error e, g)
  | .ok today =>
    let g := (g.rollDay today).stamp now
    let snap := snapshot tracker now
    let t := target cfg snap now (g.state.modeSince.getD (.finite now)) g.state.apiSpendUsd g.state.mode
    let g' := g.transition t.1 now
    (.ok {
      mode := g'.state.mode
      lane := laneForMode g'.state.mode snap
      reason := t.2
      changed := t.1 ≠ g.state.mode
      modeSince := g'.state.modeSince
      apiSpendUsd := g'.state.apiSpendUsd
      apiDailyBudgetUsd := cfg.apiDailyBudgetUsd }, g')

end Swarm.RateMode
