import Swarm.RateMode.Budget

/-! # The first decision of a governor without stored state -/

namespace Swarm.RateMode

open Usage

/-- The config with a dwell of zero. -/
def GovernorConfig.noDwell (cfg : GovernorConfig) : GovernorConfig :=
  { cfg with minDwellS := .finite 0, dwell_nonneg := by decide }

variable (cfg : GovernorConfig) (tracker : Tracker) (now : ℚ)

/-- The target of the first decision: nothing is spent, and the dwell starts now. -/
def firstTarget : Mode × Reason := target cfg (snapshot tracker now) now (.finite now) (.finite 0) .cheapPlans

theorem fresh_stamped (today : Int) :
    (((Governor.fresh.rollDay today).stamp now).state : GovernorState) =
      ⟨.cheapPlans, some (.finite now), .finite 0, .date today⟩ := by
  unfold Governor.rollDay
  rw [if_neg (by simp [Governor.fresh, GovernorState.fresh])]
  rfl

theorem dwellOk_now : dwellOk cfg now (.finite now) = cfg.minDwellS.le (.finite 0) := by
  -- The dwell clock has just been set when it is read.
  unfold dwellOk
  rw [show (Num.finite now).sub (.finite now) = .finite 0 by simp [Num.sub, Num.neg, Num.add]]

theorem firstTarget_eq :
    firstTarget cfg tracker now =
      if overBudget cfg (.finite 0) then (.throttled, .overBudget (.finite 0) cfg.apiDailyBudgetUsd)
      else if cfg.minDwellS.le (.finite 0) then crossed cfg (snapshot tracker now) .cheapPlans
      else (.cheapPlans, .withinDwell) := by
  unfold firstTarget target
  rw [dwellOk_now]

theorem firstTarget_noDwell :
    firstTarget cfg.noDwell tracker now =
      if overBudget cfg (.finite 0) then (.throttled, .overBudget (.finite 0) cfg.apiDailyBudgetUsd)
      else crossed cfg (snapshot tracker now) .cheapPlans := by
  rw [firstTarget_eq]
  rfl

theorem crossed_reason (snap : Snapshot) : (crossed cfg snap .cheapPlans).2 ≠ .withinDwell := by
  unfold crossed
  dsimp only
  split <;> simp

/-! ## The decision by its target -/

theorem first_decision {now : ℚ} {today : Int} (hday : utcDay now = .ok today) :
    ∃ d, (Governor.fresh.decide cfg tracker now).1 = .ok d ∧
      d.mode = (firstTarget cfg tracker now).1 ∧
      d.reason = (firstTarget cfg tracker now).2 := by
  unfold Governor.decide
  rw [hday]
  refine ⟨_, rfl, ?_⟩
  simp only [transition_keeps, fresh_stamped, Option.getD_some, firstTarget, and_self]

theorem first_raises {now : ℚ} {e : PyError} (hday : utcDay now = .error e) :
    Governor.fresh.decide cfg tracker now = (.error e, .fresh) := by
  unfold Governor.decide
  rw [hday]

theorem decide_noDwell (h : firstTarget cfg tracker now = firstTarget cfg.noDwell tracker now) :
    Governor.fresh.decide cfg tracker now = Governor.fresh.decide cfg.noDwell tracker now := by
  cases hday : utcDay now with
  | error e => rw [first_raises cfg tracker hday, first_raises cfg.noDwell tracker hday]
  | ok today =>
    unfold firstTarget at h
    unfold Governor.decide
    simp only [hday, fresh_stamped, Option.getD_some, h]
    rfl

theorem first_same_iff :
    Governor.fresh.decide cfg tracker now = Governor.fresh.decide cfg.noDwell tracker now ↔
      cfg.minDwellS.le (.finite 0) = true ∨ overBudget cfg (.finite 0) = true ∨
        ∃ e, utcDay now = .error e := by
  constructor
  · intro hsame
    by_contra hcond
    rw [not_or, not_or] at hcond
    obtain ⟨hdwell, hover, hnever⟩ := hcond
    cases hday : utcDay now with
    | error e => exact hnever ⟨e, hday⟩
    | ok today =>
      obtain ⟨d, hd, -, hreason⟩ := first_decision cfg tracker hday
      obtain ⟨d', hd', -, hreason'⟩ := first_decision cfg.noDwell tracker hday
      rw [hsame, hd', Except.ok.injEq] at hd
      rw [hd, hreason, firstTarget_eq, firstTarget_noDwell, if_neg hover, if_neg hover, if_neg hdwell] at hreason'
      exact crossed_reason cfg _ hreason'.symm
  · rintro (hdwell | hover | ⟨e, he⟩)
    · apply decide_noDwell
      rw [firstTarget_eq, firstTarget_noDwell, if_pos hdwell]
    · apply decide_noDwell
      rw [firstTarget_eq, firstTarget_noDwell, if_pos hover, if_pos hover]
    · rw [first_raises cfg tracker he, first_raises cfg.noDwell tracker he]

theorem first_mode {now : ℚ} {today : Int} (hday : utcDay now = .ok today) {d : Decision}
    (hd : (Governor.fresh.decide cfg tracker now).1 = .ok d)
    (hroom : ¬ ∃ l : Lane, l.isSubscription = true ∧
      HasHeadroom tracker now cfg.exitCheapFraction l)
    (hover : overBudget cfg (.finite 0) = false) :
    d.mode = if cfg.minDwellS.le (.finite 0) then .apiSwarm else .cheapPlans := by
  obtain ⟨d', hd', hmode, -⟩ := first_decision cfg tracker hday
  rw [hd, Except.ok.injEq] at hd'
  rw [← anySubscriptionHeadroom_iff, Bool.not_eq_true] at hroom
  rw [hd', hmode, firstTarget_eq, hover]
  simp only [Bool.false_eq_true, if_false, crossed, hroom]
  split <;> rfl

theorem first_apiSwarm_iff :
    ((¬ ∃ l : Lane, l.isSubscription = true ∧ HasHeadroom tracker now cfg.exitCheapFraction l) →
        overBudget cfg (.finite 0) = false →
        ∃ d, (Governor.fresh.decide cfg tracker now).1 = .ok d ∧ d.mode = .apiSwarm) ↔
      (cfg.minDwellS.le (.finite 0) = true ∧ ∃ today, utcDay now = .ok today) ∨
        overBudget cfg (.finite 0) = true ∨
        ∃ l : Lane, l.isSubscription = true ∧ HasHeadroom tracker now cfg.exitCheapFraction l := by
  constructor
  · intro hacts
    by_contra hcond
    rw [not_or, not_or, Bool.not_eq_true] at hcond
    obtain ⟨hdwell, hover, hroom⟩ := hcond
    obtain ⟨d, hd, hmode⟩ := hacts hroom hover
    obtain ⟨today, hday, -⟩ := decide_spec hd
    rw [first_mode cfg tracker hday hd hroom hover] at hmode
    split at hmode
    · next hzero => exact hdwell ⟨hzero, today, hday⟩
    · cases hmode
  · rintro (⟨hdwell, today, hday⟩ | hover | hroom) hno hunder
    · obtain ⟨d, hd, -⟩ := first_decision cfg tracker hday
      refine ⟨d, hd, ?_⟩
      rw [first_mode cfg tracker hday hd hno hunder, if_pos hdwell]
    · rw [hover] at hunder
      cases hunder
    · exact absurd hroom hno

/-- **When the first tick acts.** It decides as without a dwell exactly when the dwell is zero, the
budget is reached at once or the day is out of range. It returns API_SWARM where it should exactly
when the dwell is zero, on a day in range, or where nothing asks for API_SWARM. -/
theorem first_tick_iff :
    (Governor.fresh.decide cfg tracker now = Governor.fresh.decide cfg.noDwell tracker now ↔
      cfg.minDwellS.le (.finite 0) = true ∨ overBudget cfg (.finite 0) = true ∨
        ∃ e, utcDay now = .error e) ∧
    (((¬ ∃ l : Lane, l.isSubscription = true ∧ HasHeadroom tracker now cfg.exitCheapFraction l) →
        overBudget cfg (.finite 0) = false →
        ∃ d, (Governor.fresh.decide cfg tracker now).1 = .ok d ∧ d.mode = .apiSwarm) ↔
      (cfg.minDwellS.le (.finite 0) = true ∧ ∃ today, utcDay now = .ok today) ∨
        overBudget cfg (.finite 0) = true ∨
        ∃ l : Lane, l.isSubscription = true ∧ HasHeadroom tracker now cfg.exitCheapFraction l) :=
  ⟨first_same_iff cfg tracker now, first_apiSwarm_iff cfg tracker now⟩

/-- Every lane is in a cooldown. -/
def coolingDown : Tracker := fun _ => ⟨0, 18000, [], some (.finite 900), some (.finite 2000), none⟩

/-- With the default dwell, two minutes, the first decision stays on the throttled plans. -/
theorem first_tick_held :
    (¬ ∃ l : Lane, l.isSubscription = true ∧
      HasHeadroom coolingDown 1000 GovernorConfig.default.exitCheapFraction l) ∧
      overBudget .default (.finite 0) = false ∧
      ∃ d, (Governor.fresh.decide .default coolingDown 1000).1 = .ok d ∧ d.mode = .cheapPlans ∧
        d.reason = .withinDwell := by
  have hday : utcDay 1000 = .ok 0 := by decide +kernel
  refine ⟨?_, by decide, ?_⟩
  · rintro ⟨l, -, hopen, -⟩
    have hthrottled : (coolingDown l).isThrottled 1000 = true := by
      show decide ((1000 : ℚ) < 2000) = true
      decide +kernel
    rw [hthrottled] at hopen
    cases hopen
  · obtain ⟨d, hd, hmode, hreason⟩ := first_decision .default coolingDown hday
    have hzero : GovernorConfig.default.minDwellS.le (.finite 0) = false := by decide +kernel
    have hheld : firstTarget .default coolingDown 1000 = (.cheapPlans, .withinDwell) := by
      rw [firstTarget_eq, hzero]
      rfl
    rw [hheld] at hmode hreason
    exact ⟨d, hd, hmode, hreason⟩

end Swarm.RateMode
