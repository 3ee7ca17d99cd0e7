import Swarm.RateMode.Restart

/-! # The lane of a decision, against the reason of its mode -/

namespace Swarm.RateMode

open Usage

section Lanes

variable (tracker : Tracker) (now : ℚ)

/-- A subscription lane that is not throttled. -/
def Open (l : Lane) : Prop := l.isSubscription = true ∧ (tracker l).isThrottled now = false

/-- The lanes that keep the mode at CHEAP_PLANS. -/
def Roomy (minFraction : ℚ) (l : Lane) : Prop :=
  l.isSubscription = true ∧ HasHeadroom tracker now minFraction l

/-- Nothing but unknown headroom keeps the mode, and a lane below the threshold is known to have
some. -/
def OutrankedUnknown (minFraction : ℚ) : Prop :=
  (∀ l, Roomy tracker now minFraction l → (tracker l).headroomFraction now = none) ∧
    ∃ l frac, Open tracker now l ∧ (tracker l).headroomFraction now = some frac ∧ 0 < frac

end Lanes

variable {tracker : Tracker} {now : ℚ}

/-! ## The three tiers -/

theorem key_unknown {l : Lane} (h : (tracker l).headroomFraction now = none) :
    Snapshot.key (laneView tracker now l) = toLex (1, 0) := by
  unfold Snapshot.key
  rw [show (laneView tracker now l).headroomFraction = none from h]

theorem key_positive {l : Lane} {frac : ℚ} (h : (tracker l).headroomFraction now = some frac)
    (hpos : 0 < frac) :
    Snapshot.key (laneView tracker now l) = toLex (2, frac) := by
  unfold Snapshot.key
  rw [show (laneView tracker now l).headroomFraction = some frac from h]
  exact if_neg hpos.not_ge

theorem key_spent {l : Lane} {frac : ℚ} (h : (tracker l).headroomFraction now = some frac)
    (hneg : frac ≤ 0) :
    Snapshot.key (laneView tracker now l) = toLex (0, 0) := by
  unfold Snapshot.key
  rw [show (laneView tracker now l).headroomFraction = some frac from h]
  exact if_pos hneg

theorem mem_candidates (lv : LaneView) :
    lv ∈ (snapshot tracker now).lanes.filter (fun lv => lv.isSubscription && !lv.throttled) ↔
      ∃ l, Open tracker now l ∧ lv = laneView tracker now l := by
  simp only [snapshot, List.mem_filter, List.mem_map, Bool.and_eq_true, Bool.not_eq_true', Open]
  constructor
  · rintro ⟨⟨l, -, rfl⟩, hs, ht⟩
    exact ⟨l, ⟨hs, ht⟩, rfl⟩
  · rintro ⟨l, ⟨hs, ht⟩, rfl⟩
    exact ⟨⟨l, l.mem_all, rfl⟩, hs, ht⟩

/-- The best lane has the greatest key of the open ones. There is none when none is open. -/
theorem best_spec (tracker : Tracker) (now : ℚ) :
    ((snapshot tracker now).bestSubscriptionLane = none ∧ ∀ l, ¬ Open tracker now l) ∨
      ∃ l, (snapshot tracker now).bestSubscriptionLane = some (laneView tracker now l) ∧
        Open tracker now l ∧
        ∀ l', Open tracker now l' →
          Snapshot.key (laneView tracker now l') ≤ Snapshot.key (laneView tracker now l) := by
  unfold Snapshot.bestSubscriptionLane
  cases hbest : ((snapshot tracker now).lanes.filter fun lv =>
      lv.isSubscription && !lv.throttled).argmax Snapshot.key with
  | none =>
    left
    refine ⟨rfl, fun l hl => ?_⟩
    have hmem := (mem_candidates (laneView tracker now l)).mpr ⟨l, hl, rfl⟩
    rw [List.argmax_eq_none.mp hbest] at hmem
    cases hmem
  | some best =>
    right
    obtain ⟨l, hl, rfl⟩ := (mem_candidates best).mp (List.argmax_mem hbest)
    refine ⟨l, rfl, hl, fun l' hl' => ?_⟩
    exact List.le_of_mem_argmax ((mem_candidates _).mpr ⟨l', hl', rfl⟩) hbest

/-! ## The lane that comes back -/

theorem laneForMode_open (mode : Mode)
    (h : (laneForMode mode (snapshot tracker now)).isSubscription = true) :
    Open tracker now (laneForMode mode (snapshot tracker now)) := by
  have hcheap : (laneForMode .cheapPlans (snapshot tracker now)).isSubscription = true →
      Open tracker now (laneForMode .cheapPlans (snapshot tracker now)) := by
    unfold laneForMode
    rcases best_spec tracker now with ⟨hnone, -⟩ | ⟨l, hsome, hl, -⟩
    · rw [hnone]
      intro hapi
      cases hapi
    · rw [hsome]
      exact fun _ => hl
  cases mode with
  | cheapPlans => exact hcheap h
  | throttled => exact hcheap h
  | apiSwarm => cases h

/-- In CHEAP_PLANS, with some lane to keep the mode: the lane is one of these, unless a lane below
the threshold outranks them. -/
theorem laneForMode_roomy {minFraction : ℚ} (hmin : 0 ≤ minFraction) {l₀ : Lane}
    (hroomy : Roomy tracker now minFraction l₀) :
    let lane := laneForMode .cheapPlans (snapshot tracker now)
    (¬ OutrankedUnknown tracker now minFraction → Roomy tracker now minFraction lane) ∧
      (OutrankedUnknown tracker now minFraction →
        Open tracker now lane ∧ ∃ frac, (tracker lane).headroomFraction now = some frac ∧ 0 < frac ∧
          frac ≤ minFraction ∧ ∀ l frac', Open tracker now l →
            (tracker l).headroomFraction now = some frac' → frac' ≤ frac) := by
  rcases best_spec tracker now with ⟨-, hno⟩ | ⟨l, hsome, hl, hmax⟩
  · exact absurd ⟨hroomy.1, hroomy.2.1⟩ (hno l₀)
  have hlane : laneForMode .cheapPlans (snapshot tracker now) = l := by
    unfold laneForMode
    rw [hsome]
    rfl
  rw [hlane]
  cases hfrac : (tracker l).headroomFraction now with
  | none =>
    -- The tier of unknown headroom is on top: no open lane has a known positive fraction.
    have hl_roomy : Roomy tracker now minFraction l := by
      refine ⟨hl.1, hl.2, ?_⟩
      intro frac h
      rw [hfrac] at h
      cases h
    refine ⟨fun _ => hl_roomy, ?_⟩
    rintro ⟨-, l', frac, hl', hfrac', hpos⟩
    have hle := hmax l' hl'
    rw [key_unknown hfrac, key_positive hfrac' hpos, Prod.Lex.toLex_le_toLex] at hle
    omega
  | some frac =>
    by_cases hpos : 0 < frac
    · have hgreatest : ∀ l' frac', Open tracker now l' → (tracker l').headroomFraction now = some frac' →
          frac' ≤ frac := by
        intro l' frac' hl' hfrac'
        by_cases hpos' : 0 < frac'
        · have hle := hmax l' hl'
          rw [key_positive hfrac hpos, key_positive hfrac' hpos', Prod.Lex.toLex_le_toLex] at hle
          exact hle.elim (fun hlt => absurd hlt (lt_irrefl _)) fun heq => heq.2
        · exact (not_lt.mp hpos').trans hpos.le
      constructor
      · intro hout
        refine ⟨hl.1, hl.2, ?_⟩
        intro frac' h
        rw [hfrac, Option.some.injEq] at h
        subst h
        by_contra hle
        -- Were the best fraction at the threshold or below, no known one would be above it.
        refine hout ⟨fun l' hl' => ?_, l, frac, hl, hfrac, hpos⟩
        cases hfrac' : (tracker l').headroomFraction now with
        | none => rfl
        | some frac' =>
          have habove := hl'.2.2 frac' hfrac'
          have hbelow := hgreatest l' frac' ⟨hl'.1, hl'.2.1⟩ hfrac'
          exact absurd (habove.trans_le hbelow) hle
      · rintro ⟨hunknown, -⟩
        refine ⟨hl, frac, hfrac, hpos, ?_, hgreatest⟩
        by_contra hgt
        have hl_roomy : Roomy tracker now minFraction l := by
          refine ⟨hl.1, hl.2, ?_⟩
          intro frac' h
          rw [hfrac, Option.some.injEq] at h
          exact h ▸ not_le.mp hgt
        rw [hunknown l hl_roomy] at hfrac
        cases hfrac
    · -- The best lane is spent, so no lane has any headroom.
      exfalso
      have hle := hmax l₀ ⟨hroomy.1, hroomy.2.1⟩
      rw [key_spent hfrac (not_lt.mp hpos)] at hle
      cases hfrac₀ : (tracker l₀).headroomFraction now with
      | none =>
        rw [key_unknown hfrac₀, Prod.Lex.toLex_le_toLex] at hle
        omega
      | some frac' =>
        have hfrac_pos := hmin.trans_lt (hroomy.2.2 frac' hfrac₀)
        rw [key_positive hfrac₀ hfrac_pos, Prod.Lex.toLex_le_toLex] at hle
        omega

theorem decide_lane {cfg : GovernorConfig} {g : Governor} {d : Decision}
    (h : (g.decide cfg tracker now).1 = .ok d) :
    d.lane = laneForMode d.mode (snapshot tracker now) := by
  obtain ⟨today, hday, -⟩ := decide_spec h
  obtain ⟨d', hd', hlane⟩ := decide_ok cfg g tracker hday
  rw [h, Except.ok.injEq] at hd'
  rw [hd', hlane]

/-- **The lane of a decision.** It is never a throttled subscription lane. In CHEAP_PLANS it is one
of the lanes that keep the mode, unless their headroom is unknown and another lane's is known. -/
theorem lane_matches_mode (cfg : GovernorConfig) (g : Governor) (tracker : Tracker) (now : ℚ)
    (d : Decision) (h : (g.decide cfg tracker now).1 = .ok d) :
    (d.lane.isSubscription = true → (tracker d.lane).isThrottled now = false) ∧
      (d.mode = .cheapPlans → (∃ l, Roomy tracker now cfg.exitCheapFraction l) →
        (¬ OutrankedUnknown tracker now cfg.exitCheapFraction →
          Roomy tracker now cfg.exitCheapFraction d.lane) ∧
        (OutrankedUnknown tracker now cfg.exitCheapFraction →
          Open tracker now d.lane ∧ ∃ frac, (tracker d.lane).headroomFraction now = some frac ∧
            0 < frac ∧
            frac ≤ cfg.exitCheapFraction ∧ ∀ l frac', Open tracker now l →
              (tracker l).headroomFraction now = some frac' → frac' ≤ frac)) := by
  rw [decide_lane h]
  constructor
  · intro hs
    exact (laneForMode_open d.mode hs).2
  · rintro hmode ⟨l, hl⟩
    rw [hmode]
    exact laneForMode_roomy cfg.band.1 hl

/-- One lane of a known cap with a hundredth of it left, the others without a cap. -/
def nearlySpent : Tracker := fun l =>
  match l with
  | .claudeCodeMax => ⟨100, 18000, [⟨.finite 0, 99, 1⟩], none, none, none⟩
  | _ => ⟨0, 18000, [], none, none, none⟩

theorem nearlySpent_decision :
    ∃ d, (Governor.fresh.decide .default nearlySpent 1000).1 = .ok d ∧ d.mode = .cheapPlans ∧
      d.lane = .claudeCodeMax := by
  obtain ⟨d, hd, hlane⟩ :=
    decide_ok .default .fresh nearlySpent (show utcDay 1000 = .ok 0 by decide +kernel)
  obtain ⟨today, hday, hmode, -⟩ := decide_spec hd
  have hcheap : d.mode = .cheapPlans := by
    rw [hmode, (rollDay_spec _ _).2]
    simp only [heldFor, Governor.fresh, GovernorState.fresh, reduceCtorEq, if_false]
    decide +kernel
  refine ⟨d, hd, hcheap, ?_⟩
  rw [hlane, hcheap]
  decide +kernel

theorem lane_matches_mode_best :
    ∃ d, (Governor.fresh.decide .default nearlySpent 1000).1 = .ok d ∧ d.mode = .cheapPlans ∧
      d.lane = .claudeCodeMax ∧ (nearlySpent d.lane).isThrottled 1000 = false := by
  obtain ⟨d, hd, hmode, hlane⟩ := nearlySpent_decision
  have hsub : d.lane.isSubscription = true := by
    rw [hlane]
    rfl
  exact ⟨d, hd, hmode, hlane, (lane_matches_mode .default .fresh nearlySpent 1000 d hd).1 hsub⟩

/-- A lane of unknown headroom keeps the mode, and the nearly spent one is returned. -/
theorem nearlySpent_lane :
    ∃ d, (Governor.fresh.decide .default nearlySpent 1000).1 = .ok d ∧ d.mode = .cheapPlans ∧
      Roomy nearlySpent 1000 GovernorConfig.default.exitCheapFraction .cursor ∧
      ¬ Roomy nearlySpent 1000 GovernorConfig.default.exitCheapFraction d.lane := by
  obtain ⟨d, hd, hmode, hlane⟩ := nearlySpent_decision
  refine ⟨d, hd, hmode, ⟨rfl, rfl, ?_⟩, ?_⟩
  · intro frac h
    cases h
  · rw [hlane]
    rintro ⟨-, -, habove⟩
    have hfrac : (nearlySpent .claudeCodeMax).headroomFraction 1000 = some (1 / 100) := by
      decide +kernel
    exact absurd (habove _ hfrac) (by decide +kernel)

end Swarm.RateMode
