import Swarm.RateMode.Trace

/-! # The daily budget -/

namespace Swarm.RateMode

open Usage

/-! ## What was spent on a day -/

def Event.time : Event → Option ℚ
  | .usage _ => none
  | .spend _ now | .decide now => some now

/-- What an event spends on a day: a record that was not refused. -/
def Event.spentOn (day : Int) : Event → Option Num
  | .spend usd now =>
    if usd.lt (.finite 0) = false ∧ utcDay now = .ok day then some usd else none
  | _ => none

/-- What a history spends on a day. -/
def spentOn (day : Int) (es : List Event) : Num :=
  (es.filterMap (Event.spentOn day)).foldl Num.add (.finite 0)

theorem spentOn_snoc (day : Int) (es : List Event) (e : Event) :
    spentOn day (es ++ [e]) =
      match e.spentOn day with
      | some usd => (spentOn day es).add usd
      | none => spentOn day es := by
  unfold spentOn
  rw [List.filterMap_append, List.foldl_append]
  cases h : e.spentOn day <;> simp [h]

/-! ## Days and times -/

theorem utcDay_mono {s t : ℚ} {a b : Int} (h : s ≤ t) (ha : utcDay s = .ok a)
    (hb : utcDay t = .ok b) :
    a ≤ b := by
  simp only [utcDay] at ha hb
  split at ha <;> split at hb <;> try contradiction
  obtain rfl := Except.ok.inj ha
  obtain rfl := Except.ok.inj hb
  apply Int.ediv_le_ediv (by decide)
  apply Lib.roundHalfEven_mono
  linarith

/-- No event comes after the day. -/
def UpTo (day : Int) (es : List Event) : Prop :=
  ∀ t ∈ es.filterMap Event.time, ∀ d, utcDay t = .ok d → d ≤ day

theorem spentOn_later {today day : Int} {es : List Event} (h : UpTo today es) (hlt : today < day) :
    spentOn day es = .finite 0 := by
  have hnone : es.filterMap (Event.spentOn day) = [] := by
    rw [List.filterMap_eq_nil_iff]
    intro e he
    cases e with
    | usage _ => rfl
    | decide _ => rfl
    | spend usd t =>
      simp only [Event.spentOn, ite_eq_right_iff, reduceCtorEq, imp_false, not_and]
      intro _ hd
      have := h t (List.mem_filterMap.mpr ⟨_, he, rfl⟩) day hd
      omega
  simp [spentOn, hnone]

theorem upTo_of_sorted {es : List Event} {e : Event} {now : ℚ} {today : Int}
    (hs : ((es ++ [e]).filterMap Event.time).Pairwise (· ≤ ·)) (he : e.time = some now)
    (hday : utcDay now = .ok today) : UpTo today es := by
  intro t ht d hd
  rw [List.filterMap_append, List.pairwise_append] at hs
  exact utcDay_mono (hs.2.2 t ht now (by simp [he])) hd hday

/-! ## The tally -/

/-- What the counter has for a day. -/
def heldFor (day : Int) (s : GovernorState) : Num :=
  if s.apiSpendDay = .date day then s.apiSpendUsd else .finite 0

theorem rollDay_spec (g : Governor) (today : Int) :
    (g.rollDay today).state.apiSpendDay = .date today ∧
      (g.rollDay today).state.apiSpendUsd = heldFor today g.state := by
  unfold Governor.rollDay heldFor
  split
  · next h => exact ⟨h, rfl⟩
  · exact ⟨rfl, rfl⟩

/-- The state holds the sum of every day that no event has passed. -/
def Tally (es : List Event) (s : GovernorState) : Prop :=
  ∀ day, UpTo day es → heldFor day s = spentOn day es

theorem Tally.snoc_same {es : List Event} {e : Event} {s : GovernorState} (h : Tally es s)
    (he : ∀ day, e.spentOn day = none) : Tally (es ++ [e]) s := by
  intro day hday
  rw [spentOn_snoc, he day]
  exact h day fun t ht => hday t (by rw [List.filterMap_append]; exact List.mem_append_left _ ht)

theorem tally_rolled {es : List Event} {e : Event} {now : ℚ} {today : Int} {s' : GovernorState}
    (hs : ((es ++ [e]).filterMap Event.time).Pairwise (· ≤ ·)) (he : e.time = some now)
    (hday : utcDay now = .ok today) (hspent : ∀ day, day ≠ today → e.spentOn day = none)
    (hd : s'.apiSpendDay = .date today) (hu : s'.apiSpendUsd = spentOn today (es ++ [e])) :
    Tally (es ++ [e]) s' := by
  intro day hupTo
  have hle : today ≤ day := hupTo now (by simp [List.filterMap_append, he]) today hday
  rcases hle.eq_or_lt with rfl | hlt
  · rw [heldFor, if_pos hd, hu]
  · -- Nothing was spent yet on a day still to come.
    rw [heldFor, if_neg (by rw [hd]; simp; omega), spentOn_snoc, hspent day hlt.ne']
    exact (spentOn_later (upTo_of_sorted hs he hday) hlt).symm

/-! ## The day that a call rolls to -/

/-- The UTC day that a call counts for, unless it raises before it rolls the counter. -/
def Event.rollsTo : Event → Option Int
  | .usage _ => none
  | .spend usd now => if usd.lt (.finite 0) then none else (utcDay now).toOption
  | .decide now => (utcDay now).toOption

/-- What a call adds to the counter it has rolled. -/
def Event.adds (held : Num) : Event → Num
  | .spend usd _ => held.add usd
  | _ => held

theorem toOption_eq_some {now : ℚ} {today : Int} :
    (utcDay now).toOption = some today ↔ utcDay now = .ok today := by
  cases utcDay now <;> simp [Except.toOption]

theorem rollsTo_time {e : Event} {today : Int} (h : e.rollsTo = some today) :
    ∃ now, e.time = some now ∧ utcDay now = .ok today := by
  cases e with
  | usage _ => cases h
  | spend usd now =>
    simp only [Event.rollsTo] at h
    split at h
    · cases h
    · exact ⟨now, rfl, toOption_eq_some.mp h⟩
  | decide now => exact ⟨now, rfl, toOption_eq_some.mp h⟩

theorem spentOn_other {e : Event} {day : Int} (h : e.rollsTo ≠ some day) :
    e.spentOn day = none := by
  cases e with
  | spend usd now =>
    rw [Event.spentOn, if_neg]
    rintro ⟨hneg, hday⟩
    exact h (by simp [Event.rollsTo, hneg, hday, Except.toOption])
  | _ => rfl

theorem adds_spentOn {e : Event} {day : Int} (h : e.rollsTo = some day) (held : Num) :
    e.adds held = match e.spentOn day with
      | some usd => held.add usd
      | none => held := by
  cases e with
  | spend usd now =>
    simp only [Event.rollsTo] at h
    split at h
    · cases h
    · next hneg => simp [Event.adds, Event.spentOn, hneg, toOption_eq_some.mp h]
  | _ => rfl

theorem decide_ok (cfg : GovernorConfig) (g : Governor) (tracker : Tracker) {now : ℚ} {today : Int}
    (hday : utcDay now = .ok today) :
    ∃ d, (g.decide cfg tracker now).1 = .ok d ∧
      d.lane = laneForMode d.mode (snapshot tracker now) := by
  unfold Governor.decide
  rw [hday]
  exact ⟨_, rfl, rfl⟩

/-- A call that rolls the counter leaves it at that day, with what it adds. Any other leaves the
governor as it is. -/
theorem step_rolls (cfg : GovernorConfig) (p : Process) (e : Event) :
    match e.rollsTo with
    | none => (step cfg p e).governor = p.governor
    | some today => (step cfg p e).governor.state.apiSpendDay = .date today ∧
      (step cfg p e).governor.state.apiSpendUsd = e.adds (heldFor today p.governor.state) := by
  cases e with
  | usage tracker => rfl
  | spend usd now =>
    by_cases hneg : usd.lt (.finite 0) = true
    · simp only [Event.rollsTo, step, Governor.recordApiSpend, if_pos hneg]
    · cases hday : utcDay now with
      | error err =>
        simp only [Event.rollsTo, step, Governor.recordApiSpend, if_neg hneg, hday, Except.toOption]
      | ok today =>
        simp only [Event.rollsTo, step, Governor.recordApiSpend, if_neg hneg, hday, Except.toOption]
        exact ⟨(rollDay_spec _ _).1, congrArg (·.add usd) (rollDay_spec _ _).2⟩
  | decide now =>
    cases hday : utcDay now with
    | error err => simp only [Event.rollsTo, step, Governor.decide, hday, Except.toOption]
    | ok today =>
      obtain ⟨d, hd, -⟩ := decide_ok cfg p.governor p.tracker hday
      obtain ⟨_, hday', -, -, -, -, -, hu, hdate⟩ := decide_spec hd
      obtain rfl := Except.ok.inj (hday.symm.trans hday')
      simp only [Event.rollsTo, hday, Except.toOption]
      exact ⟨hdate.trans (rollDay_spec _ _).1, hu.trans (rollDay_spec _ _).2⟩

variable {cfg : GovernorConfig}

theorem tally_step {p : Process} {es : List Event} {e : Event}
    (hs : ((es ++ [e]).filterMap Event.time).Pairwise (· ≤ ·)) (h : Tally es p.governor.state) :
    Tally (es ++ [e]) (step cfg p e).governor.state := by
  have hstep := step_rolls cfg p e
  cases hroll : e.rollsTo with
  | none =>
    rw [hroll] at hstep
    rw [hstep]
    exact h.snoc_same fun day => spentOn_other (by simp [hroll])
  | some today =>
    rw [hroll] at hstep
    obtain ⟨now, htime, hday⟩ := rollsTo_time hroll
    refine tally_rolled hs htime hday (fun day hne => spentOn_other ?_) hstep.1 ?_
    · rw [hroll]
      exact fun heq => hne (Option.some.inj heq).symm
    · rw [hstep.2, h today (upTo_of_sorted hs htime hday), adds_spentOn hroll, spentOn_snoc]

theorem tally_play {tracker : Tracker} {es : List Event}
    (hs : (es.filterMap Event.time).Pairwise (· ≤ ·)) :
    Tally es (play cfg ⟨.fresh, tracker⟩ es).governor.state := by
  induction es using List.reverseRecOn with
  | nil => intro day _; simp [heldFor, spentOn, play, Governor.fresh, GovernorState.fresh]
  | append_singleton es e ih =>
    rw [play_snoc]
    refine tally_step hs (ih (hs.sublist ?_))
    exact (List.sublist_append_left es [e]).filterMap _

/-! ## Decisions within and over the budget -/

/-- What a decision owes the budget, given what was spent, the mode before and where its dwell
starts. -/
structure Budgeted (cfg : GovernorConfig) (spent : Num) (before : Mode) (start : Num) (now : ℚ)
    (d : Decision) : Prop where
  reported : d.apiSpendUsd = spent
  stops : cfg.apiDailyBudgetUsd.le spent = true → d.mode = .throttled
  only : d.mode = .throttled → before ≠ .throttled → cfg.apiDailyBudgetUsd.le spent = true
  resumes : spent.lt cfg.apiDailyBudgetUsd = true →
    cfg.minDwellS.le ((Num.finite now).sub start) = true → d.mode ≠ .throttled

theorem crossed_ne_throttled (cfg : GovernorConfig) (snap : Snapshot) (m : Mode) :
    (crossed cfg snap m).1 ≠ .throttled := by
  cases m <;> simp only [crossed] <;> split <;> simp

theorem decide_budgeted {g : Governor} {tracker : Tracker} {now : ℚ} {d : Decision}
    (h : (g.decide cfg tracker now).1 = .ok d) :
    ∃ today, utcDay now = .ok today ∧
      Budgeted cfg (heldFor today g.state) g.state.mode (g.state.modeSince.getD (.finite now)) now d := by
  obtain ⟨today, hday, hm, -, hu, -⟩ := decide_spec h
  rw [(rollDay_spec g today).2] at hm hu
  refine ⟨today, hday, hu, ?_, ?_, ?_⟩
  · intro hover
    simp [hm, target, overBudget, hover]
  · intro ht hb
    by_contra hover
    rw [hm, target, overBudget, if_neg hover] at ht
    split at ht
    · exact crossed_ne_throttled _ _ _ ht
    · exact hb ht
  · intro hunder hdwell
    rw [hm, target, overBudget, Num.not_le_of_lt hunder, dwellOk, hdwell]
    exact crossed_ne_throttled _ _ _

/-- **The daily budget.** Each decision answers for the sum of its UTC day, and nothing but a
decision changes the mode. -/
theorem budget_kept (cfg : GovernorConfig) (tracker : Tracker) (es : List Event)
    (hs : (es.filterMap Event.time).Pairwise (· ≤ ·)) :
    (∀ pre r post, trace cfg ⟨.fresh, tracker⟩ es = pre ++ r :: post →
      ∃ past later today, es = past ++ .decide r.now :: later ∧
        trace cfg ⟨.fresh, tracker⟩ past = pre ∧ utcDay r.now = .ok today ∧
        Budgeted cfg (spentOn today past) (modeAfter .cheapPlans pre)
          ((dwellStart none pre).getD (.finite r.now)) r.now r.decision) ∧
    (play cfg ⟨.fresh, tracker⟩ es).governor.state.mode =
      modeAfter .cheapPlans (trace cfg ⟨.fresh, tracker⟩ es) := by
  refine ⟨?_, (play_state cfg _ es).1⟩
  intro pre r post h
  obtain ⟨past, rfl, -, hd, later, rfl⟩ := trace_split cfg h
  obtain ⟨today, hday, hb⟩ := decide_budgeted hd
  have hcons : past ++ .decide r.now :: later = (past ++ [Event.decide r.now]) ++ later := by simp
  have hs' : ((past ++ [Event.decide r.now]).filterMap Event.time).Pairwise (· ≤ ·) := by
    rw [hcons] at hs
    exact hs.sublist ((List.sublist_append_left _ later).filterMap _)
  have htally : Tally past (play cfg ⟨.fresh, tracker⟩ past).governor.state :=
    tally_play (hs'.sublist ((List.sublist_append_left past _).filterMap _))
  rw [htally today (upTo_of_sorted hs' rfl hday), (play_state cfg _ past).1, (play_state cfg _ past).2] at hb
  exact ⟨past, later, today, rfl, rfl, hday, hb⟩

/-- Two spends within one budget, a stop over it, and the day after. -/
def twoDays : List Event :=
  [.spend (.finite 20) 1000, .decide 1000, .spend (.finite 6) 2000, .decide 2000, .decide 90000]

theorem twoDays_kept :
    (trace .default ⟨.fresh, Tracker.fresh (fun _ => none) DEFAULT_WINDOW_S⟩ twoDays).map
        (fun r => (r.decision.mode, r.decision.apiSpendUsd)) =
      [(.cheapPlans, .finite 20), (.throttled, .finite 26), (.cheapPlans, .finite 0)] ∧
    (play .default ⟨.fresh, Tracker.fresh (fun _ => none) DEFAULT_WINDOW_S⟩ twoDays).governor.state.mode =
      .cheapPlans := by
  have hrun : (trace .default ⟨.fresh, Tracker.fresh (fun _ => none) DEFAULT_WINDOW_S⟩ twoDays).map
        (fun r => (r.decision.mode, r.decision.apiSpendUsd)) =
      [(.cheapPlans, .finite 20), (.throttled, .finite 26), (.cheapPlans, .finite 0)] := by
    decide +kernel
  refine ⟨hrun, ?_⟩
  rw [(budget_kept .default (Tracker.fresh (fun _ => none) DEFAULT_WINDOW_S) twoDays (by decide +kernel)).2]
  decide +kernel

end Swarm.RateMode
