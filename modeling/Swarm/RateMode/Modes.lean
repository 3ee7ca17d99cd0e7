import Swarm.Lib.Settle
import Swarm.RateMode.Trace

/-! # Mode changes: dwell, hysteresis, no flapping -/

namespace Swarm.RateMode

open Usage Lib

/-! ## Targets -/

/-- The target of a mode once its dwell is over. -/
def settled (cfg : GovernorConfig) (snap : Snapshot) (spend : Num) (current : Mode) : Mode :=
  if overBudget cfg spend then .throttled else (crossed cfg snap current).1

theorem target_eq (cfg : GovernorConfig) (snap : Snapshot) (now : ℚ) (since spend : Num)
    (m : Mode) :
    (target cfg snap now since spend m).1 = m ∨
      (target cfg snap now since spend m).1 = settled cfg snap spend m := by
  unfold target settled
  split
  · exact .inr rfl
  · split
    · exact .inr rfl
    · exact .inl rfl

theorem settled_settled (cfg : GovernorConfig) (tracker : Tracker) (now : ℚ) (spend : Num)
    (m : Mode) :
    settled cfg (snapshot tracker now) spend (settled cfg (snapshot tracker now) spend m) =
      settled cfg (snapshot tracker now) spend m := by
  -- A target is its own target, since the band is ordered.
  have hband : (snapshot tracker now).anySubscriptionHeadroom cfg.enterCheapFraction = true →
      (snapshot tracker now).anySubscriptionHeadroom cfg.exitCheapFraction = true :=
    anySubscriptionHeadroom_mono cfg.band.2.1.le
  unfold settled
  split
  · rfl
  · cases m <;> simp only [crossed] <;> grind

theorem dwellOk_of_changed {cfg : GovernorConfig} {snap : Snapshot} {now : ℚ} {since spend : Num}
    {m : Mode} (hne : (target cfg snap now since spend m).1 ≠ m)
    (ht : (target cfg snap now since spend m).1 ≠ .throttled) :
    dwellOk cfg now since = true ∧
      (target cfg snap now since spend m).1 = (crossed cfg snap m).1 := by
  unfold target at hne ht ⊢
  by_cases hb : overBudget cfg spend = true
  · simp [hb] at ht
  · by_cases hd : dwellOk cfg now since = true
    · simp [hb, hd]
    · simp [hb, hd] at hne

theorem crossed_apiSwarm {cfg : GovernorConfig} {snap : Snapshot}
    (h : (crossed cfg snap .cheapPlans).1 = .apiSwarm) :
    snap.anySubscriptionHeadroom cfg.exitCheapFraction = false := by
  by_contra hs
  rw [Bool.not_eq_false] at hs
  simp [crossed, hs] at h

theorem crossed_cheapPlans {cfg : GovernorConfig} {snap : Snapshot} {m : Mode}
    (hm : m ≠ .cheapPlans) (h : (crossed cfg snap m).1 = .cheapPlans) :
    snap.anySubscriptionHeadroom cfg.enterCheapFraction = true := by
  by_contra hs
  cases m with
  | cheapPlans => exact hm rfl
  | apiSwarm => simp [crossed, hs] at h
  | throttled => simp [crossed, hs] at h

/-! ## Each decision -/

/-- What a decision may do to the mode, given the mode before it and where its dwell starts. -/
structure Justified (cfg : GovernorConfig) (before : Mode) (start : Num) (r : Record) : Prop where
  changed_iff : r.decision.changed = true ↔ r.decision.mode ≠ before
  /-- A change into CHEAP_PLANS or API_SWARM waits for the dwell. -/
  dwell : r.decision.changed = true → r.decision.mode ≠ .throttled →
    cfg.minDwellS.le ((Num.finite r.now).sub start) = true
  leaves : before = .cheapPlans → r.decision.mode = .apiSwarm →
    ¬ ∃ l : Lane, l.isSubscription = true ∧ HasHeadroom r.tracker r.now cfg.exitCheapFraction l
  enters : before ≠ .cheapPlans → r.decision.mode = .cheapPlans →
    ∃ l : Lane, l.isSubscription = true ∧ HasHeadroom r.tracker r.now cfg.enterCheapFraction l

theorem decide_change {cfg : GovernorConfig} {g : Governor} {tracker : Tracker} {now : ℚ}
    {d : Decision} (h : (g.decide cfg tracker now).1 = .ok d) (hc : d.mode ≠ g.state.mode)
    (ht : d.mode ≠ .throttled) :
    dwellOk cfg now (g.state.modeSince.getD (.finite now)) = true ∧
      d.mode = (crossed cfg (snapshot tracker now) g.state.mode).1 := by
  obtain ⟨today, -, hm, -⟩ := decide_spec h
  rw [hm] at hc ht ⊢
  exact dwellOk_of_changed hc ht

theorem decide_justified {cfg : GovernorConfig} {g : Governor} {r : Record}
    (h : (g.decide cfg r.tracker r.now).1 = .ok r.decision) :
    Justified cfg g.state.mode (g.state.modeSince.getD (.finite r.now)) r := by
  obtain ⟨today, -, -, hchanged, -⟩ := decide_spec h
  refine ⟨hchanged, fun hc ht => (decide_change h (hchanged.mp hc) ht).1, ?_, ?_⟩
  · intro hb hm
    have hcross := (decide_change h (by simp [hb, hm]) (by simp [hm])).2
    rw [hm, hb] at hcross
    rw [← anySubscriptionHeadroom_iff, crossed_apiSwarm hcross.symm]
    simp
  · intro hb hm
    have hcross := (decide_change h (by rw [hm]; exact hb.symm) (by simp [hm])).2
    rw [hm] at hcross
    rw [← anySubscriptionHeadroom_iff]
    exact crossed_cheapPlans hb hcross.symm

theorem decide_moves {cfg : GovernorConfig} {g : Governor} {tracker : Tracker} {now : ℚ}
    {d : Decision} (h : (g.decide cfg tracker now).1 = .ok d) :
    d.mode = g.state.mode ∨
      d.mode = settled cfg (snapshot tracker now) d.apiSpendUsd g.state.mode := by
  obtain ⟨today, -, hm, -, hu, -⟩ := decide_spec h
  rw [hm, hu]
  exact target_eq ..

/-! ## Stretches -/

/-- Two decisions saw the same throttled flags, headroom fractions and over-budget status. -/
def SameView (cfg : GovernorConfig) (r r' : Record) : Prop :=
  (∀ l, (r.tracker l).isThrottled r.now = (r'.tracker l).isThrottled r'.now ∧
    (r.tracker l).headroomFraction r.now = (r'.tracker l).headroomFraction r'.now) ∧
  overBudget cfg r.decision.apiSpendUsd = overBudget cfg r'.decision.apiSpendUsd

theorem SameView.settled_eq {cfg : GovernorConfig} {r r' : Record} (h : SameView cfg r r')
    (m : Mode) :
    settled cfg (snapshot r.tracker r.now) r.decision.apiSpendUsd m =
      settled cfg (snapshot r'.tracker r'.now) r'.decision.apiSpendUsd m := by
  unfold settled
  rw [h.2]
  cases m <;> simp only [crossed, anySubscriptionHeadroom_congr _ h.1]

theorem trace_moves {cfg : GovernorConfig} {p : Process} {es : List Event} {r₀ : Record}
    {pre mid post : List Record} (h : trace cfg p es = pre ++ mid ++ post)
    (hview : ∀ r ∈ mid, SameView cfg r r₀) :
    (modeAfter p.governor.state.mode pre :: mid.map (·.decision.mode)).IsChain fun m m' =>
      m' = m ∨ m' = settled cfg (snapshot r₀.tracker r₀.now) r₀.decision.apiSpendUsd m := by
  induction mid generalizing pre with
  | nil => exact .singleton _
  | cons r mid ih =>
    have hsplit : trace cfg p es = pre ++ r :: (mid ++ post) := by simpa using h
    obtain ⟨past, hpre, -, hd, -⟩ := trace_split cfg hsplit
    have hmode := (play_state cfg p past).1
    rw [hpre] at hmode
    rw [List.map_cons, List.isChain_cons_cons]
    refine ⟨?_, ?_⟩
    · rw [← hmode, ← (hview r (by simp)).settled_eq]
      exact decide_moves hd
    · have hnext : trace cfg p es = (pre ++ [r]) ++ mid ++ post := by simpa using h
      have hrest := ih hnext fun r' hr' => hview r' (by simp [hr'])
      rwa [modeAfter_snoc] at hrest

/-- **The mode is steady.** Each change is justified, and over a stretch with one view of the lanes
and the budget the mode changes at most once. Nothing but a decision changes it. -/
theorem modes_steady (cfg : GovernorConfig) (p : Process) (es : List Event) :
    (∀ pre r post, trace cfg p es = pre ++ r :: post →
      Justified cfg (modeAfter p.governor.state.mode pre)
        ((dwellStart p.governor.state.modeSince pre).getD (.finite r.now)) r) ∧
    (∀ pre mid post, trace cfg p es = pre ++ mid ++ post →
      (∀ r ∈ mid, ∀ r' ∈ mid, SameView cfg r r') →
      changes (modeAfter p.governor.state.mode pre) (mid.map (·.decision.mode)) ≤ 1) ∧
    (play cfg p es).governor.state.mode = modeAfter p.governor.state.mode (trace cfg p es) := by
  refine ⟨?_, ?_, (play_state cfg p es).1⟩
  · intro pre r post h
    obtain ⟨past, rfl, -, hd, -⟩ := trace_split cfg h
    rw [← (play_state cfg p past).1, ← (play_state cfg p past).2]
    exact decide_justified hd
  · intro pre mid post h hview
    cases mid with
    | nil => simp [changes]
    | cons r mid =>
      exact changes_le_one (settled_settled cfg _ _ _) _
        (trace_moves h fun r' hr' => hview r' hr' r (by simp))

end Swarm.RateMode
