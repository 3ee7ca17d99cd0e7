import Swarm.Usage.Ingest

/-! # What pruning drops is never counted again -/

namespace Swarm.Usage

/-! ## A tracker that keeps every event -/

/-- `record_usage` without the call of `_prune`. -/
def UsageTracker.recordUsageKeeping (t : UsageTracker) (lane : Lane) (tokens requests : Num)
    (now : ℚ) :
    Except PyError Unit × UsageTracker :=
  if tokens.lt (.finite 0) || requests.lt (.finite 0) then
    (.error (.valueError "tokens and requests must be non-negative"), t)
  else
    match tokens.int, requests.int with
    | .error e, _ | _, .error e => (.error e, t)
    | .ok tokens, .ok requests =>
      let st := t.lanes lane
      (.ok (), (t.set lane { st with events := st.events ++ [Event.mk (.finite now) tokens requests] }).save)

def Call.applyKeeping (py : Parsing) (t : UsageTracker) : Call → Except PyError Unit × UsageTracker
  | .recordUsage lane tokens requests now => t.recordUsageKeeping lane tokens requests now
  | c => c.apply py t

def runKeeping (py : Parsing) (t : UsageTracker) (calls : List Call) : UsageTracker :=
  calls.foldl (fun t c => (c.applyKeeping py t).2) t

/-- The time of a call that reads it. -/
def Call.time : Call → Option ℚ
  | .recordUsage _ _ _ now | .recordRateLimit _ _ now | .applyAnthropicHeaders _ _ now => some now
  | .clearThrottle _ | .setCap _ _ _ => none

/-- A call that leaves the windows alone. -/
def Call.tokensOnly : Call → Bool
  | .setCap _ _ (some _) => false
  | _ => true

variable (py : Parsing)

theorem runCalls_snoc (t : UsageTracker) (calls : List Call) (c : Call) :
    runCalls py t (calls ++ [c]) = (c.apply py (runCalls py t calls)).2 := by simp [runCalls]

theorem runKeeping_snoc (t : UsageTracker) (calls : List Call) (c : Call) :
    runKeeping py t (calls ++ [c]) = (c.applyKeeping py (runKeeping py t calls)).2 := by
  simp [runKeeping]

/-! ## Calls that do not look at the events -/

/-- A step of a lane that neither reads nor changes its events and its window. -/
structure Blind (f : LaneState → LaneState) : Prop where
  events : ∀ st es, f { st with events := es } = { f st with events := es }
  window : ∀ st, (f st).windowS = st.windowS

theorem Blind.id : Blind id := ⟨fun _ _ => rfl, fun _ => rfl⟩

theorem Blind.same_events {f : LaneState → LaneState} (h : Blind f) (st : LaneState) :
    (f st).events = st.events := by
  have hst : f st = { f st with events := st.events } := h.events st st.events
  rw [hst]

theorem apply_blind {c : Call} (hc : c.tokensOnly = true)
    (hrecord : ∀ lane tokens requests now, c ≠ .recordUsage lane tokens requests now) :
    ∃ (lane : Lane) (f : LaneState → LaneState), Blind f ∧ ∀ (t : UsageTracker) l,
      (c.apply py t).2.lanes l = if l = lane then f (t.lanes l) else t.lanes l := by
  -- Every call but `record_usage` is a blind step of its lane.
  have hset : ∀ (lane : Lane) (f : LaneState → LaneState) (t : UsageTracker) (l : Lane),
      (t.set lane (f (t.lanes lane))).lanes l = if l = lane then f (t.lanes l) else t.lanes l := by
    intro lane f t l
    rw [set_lanes]
    split
    · next h => rw [h]
    · rfl
  cases c with
  | recordUsage lane tokens requests now => exact absurd rfl (hrecord lane tokens requests now)
  | recordRateLimit lane retryAfterS now =>
    let f : LaneState → LaneState := fun st => rateLimited st (retryDelay retryAfterS) now
    refine ⟨lane, f, ⟨fun _ _ => rfl, fun _ => rfl⟩, fun t l => ?_⟩
    rw [Call.apply, recordRateLimit_eq]
    exact hset lane f t l
  | applyAnthropicHeaders lane headers now =>
    simp only [Call.apply]
    cases hlimit : safeInt py (headers "anthropic-ratelimit-tokens-limit") with
    | error e =>
      refine ⟨lane, id, .id, fun t l => ?_⟩
      rw [headers_limit_raises hlimit, id, ite_self]
    | ok limit =>
      cases hremaining : safeInt py (headers "anthropic-ratelimit-tokens-remaining") with
      | error e =>
        refine ⟨lane, withLimit limit, ⟨fun _ _ => rfl, fun _ => rfl⟩, fun t l => ?_⟩
        rw [headers_remaining_raises hlimit hremaining]
        exact hset lane (withLimit limit) t l
      | ok remaining =>
        let f : LaneState → LaneState := fun st =>
          ingested st limit remaining (cooldown py headers remaining now) now
        refine ⟨lane, f, ⟨fun _ _ => rfl, fun _ => rfl⟩, fun t l => ?_⟩
        rw [headers_ok hlimit hremaining]
        exact hset lane f t l
  | clearThrottle lane =>
    let f : LaneState → LaneState :=
      fun st => { st with resetAt := none, reportedTokensRemaining := none }
    exact ⟨lane, f, ⟨fun _ _ => rfl, fun _ => rfl⟩, hset lane f⟩
  | setCap lane tokens windowS =>
    simp only [Call.apply, UsageTracker.setCap]
    cases tokens.int with
    | error e => exact ⟨lane, id, .id, fun t l => (ite_self _).symm⟩
    | ok cap =>
      cases windowS with
      | none =>
        let f : LaneState → LaneState := fun st => { st with tokenCap := cap }
        exact ⟨lane, f, ⟨fun _ _ => rfl, fun _ => rfl⟩, hset lane f⟩
      | some w => cases hc

/-! ## The two trackers -/

/-- The lanes agree at a time, and nothing that is kept is later than it. -/
structure Agree (now : ℚ) (a b : LaneState) : Prop where
  same : { a with events := b.events } = b
  early : ∀ e ∈ a.events, e.ts.le (.finite now) = true
  live : a.liveEvents now = b.liveEvents now

theorem Agree.blind {now : ℚ} {a b : LaneState} (h : Agree now a b) {f : LaneState → LaneState}
    (hf : Blind f) :
    Agree now (f a) (f b) := by
  have hlive : ∀ st, (f st).liveEvents now = st.liveEvents now := by
    intro st
    unfold LaneState.liveEvents
    rw [hf.same_events, hf.window]
  constructor
  · rw [hf.same_events, ← hf.events, h.same]
  · rw [hf.same_events]
    exact h.early
  · rw [hlive, hlive, h.live]

theorem live_of_live {w m now : ℚ} (h : m ≤ now) {ts : Num} (hts : ts.le (.finite m) = true)
    (hlive : (Num.finite (now - max 1 w)).lt ts = true) :
    (Num.finite (m - max 1 w)).lt ts = true := by
  -- What is in a window and not later than an earlier time was in the window then.
  cases ts with
  | finite q =>
    simp only [Num.lt, decide_eq_true_eq] at hlive ⊢
    linarith
  | inf negative => exact hlive
  | nan => cases hlive

theorem Agree.window {now : ℚ} {a b : LaneState} (h : Agree now a b) : b.windowS = a.windowS := by
  rw [← h.same]

theorem Agree.record {m now : ℚ} {a b : LaneState} (hm : Agree m a b) (h : Agree now a b)
    (hle : m ≤ now) {e : Event} (he : e.ts = .finite m) :
    Agree now { a with events := ({ a with events := a.events ++ [e] } : LaneState).liveEvents m }
      { b with events := b.events ++ [e] } := by
  have hearly : ∀ x ∈ a.events ++ [e], x.ts.le (.finite m) = true := by
    intro x hx
    rw [List.mem_append, List.mem_singleton] at hx
    rcases hx with hx | rfl
    · exact hm.early x hx
    · rw [he]
      exact decide_eq_true (le_refl m)
  constructor
  · rw [← h.same]
  · intro x hx
    have hx' := hearly x (List.mem_filter.mp hx).1
    revert hx'
    cases x.ts with
    | finite q =>
      simp only [Num.le, decide_eq_true_eq]
      exact fun hq => hq.trans hle
    | inf negative => exact id
    | nan => exact id
  · have hprune : (({ a with events := a.events ++ [e] } : LaneState).liveEvents m).filter
          (fun x => (Num.finite (now - max 1 a.windowS)).lt x.ts && x.ts.le (.finite now)) =
        (a.events ++ [e]).filter
          fun x => (Num.finite (now - max 1 a.windowS)).lt x.ts && x.ts.le (.finite now) := by
      unfold LaneState.liveEvents
      rw [List.filter_filter]
      apply List.filter_congr
      intro x hx
      cases hlive : (Num.finite (now - max 1 a.windowS)).lt x.ts with
      | false => rfl
      | true => simp [live_of_live hle (hearly x hx) hlive, hearly x hx]
    have hold := h.live
    unfold LaneState.liveEvents at hold hprune ⊢
    simp only [h.window] at hold ⊢
    rw [hprune, List.filter_append, List.filter_append, hold]

theorem record_lanes (lane : Lane) (tokens requests : Num) (m : ℚ) :
    (∀ t : UsageTracker, (t.recordUsage lane tokens requests m).2 = t ∧
        (t.recordUsageKeeping lane tokens requests m).2 = t) ∨
      ∃ e : Event, e.ts = .finite m ∧ ∀ t : UsageTracker,
        (t.recordUsage lane tokens requests m).2 = (t.set lane { t.lanes lane with
          events := ({ t.lanes lane with events := (t.lanes lane).events ++ [e] } : LaneState).liveEvents m }).save ∧
        (t.recordUsageKeeping lane tokens requests m).2 =
          (t.set lane { t.lanes lane with events := (t.lanes lane).events ++ [e] }).save := by
  -- `record_usage` with and without `_prune`: both raise, or both append one event.
  unfold UsageTracker.recordUsage UsageTracker.recordUsageKeeping
  split
  · exact .inl fun t => ⟨rfl, rfl⟩
  · cases tokens.int with
    | error e => exact .inl fun t => ⟨rfl, rfl⟩
    | ok tokens =>
      cases requests.int with
      | error e => exact .inl fun t => ⟨rfl, rfl⟩
      | ok requests => exact .inr ⟨⟨.finite m, tokens, requests⟩, rfl, fun t => ⟨rfl, rfl⟩⟩

/-- Both trackers run in step, at the times of the calls and at every later time. -/
theorem run_agree {start : UsageTracker} {calls : List Call}
    (hstart : ∀ l, (start.lanes l).events = []) (hcalls : ∀ c ∈ calls, c.tokensOnly = true)
    (hsorted : (calls.filterMap Call.time).Pairwise (· ≤ ·)) :
    ∀ now, (∀ time ∈ calls.filterMap Call.time, time ≤ now) →
      ∀ l, Agree now ((runCalls py start calls).lanes l) ((runKeeping py start calls).lanes l) := by
  induction calls using List.reverseRecOn with
  | nil =>
    intro now _ l
    refine ⟨rfl, fun e he => ?_, rfl⟩
    rw [show (runCalls py start []).lanes l = start.lanes l from rfl, hstart l] at he
    cases he
  | append_singleton calls c ih =>
    intro now hnow l
    rw [List.filterMap_append, List.pairwise_append] at hsorted
    have hbefore := ih (fun c hc => hcalls c (by simp [hc])) hsorted.1
    have hnow' : ∀ time ∈ calls.filterMap Call.time, time ≤ now := by
      intro time htime
      exact hnow time (by rw [List.filterMap_append]; exact List.mem_append_left _ htime)
    rw [runCalls_snoc, runKeeping_snoc]
    -- Only `record_usage` prunes.
    by_cases hrecord : ∃ lane tokens requests m, c = .recordUsage lane tokens requests m
    · obtain ⟨lane, tokens, requests, m, rfl⟩ := hrecord
      have hm : m ≤ now := hnow m (by simp [Call.time])
      -- The pruning is at the time of this call, which is no earlier than the others.
      have hearlier : ∀ time ∈ calls.filterMap Call.time, time ≤ m := by
        intro time htime
        exact hsorted.2.2 time htime m (by simp [Call.time])
      simp only [Call.apply, Call.applyKeeping]
      rcases record_lanes lane tokens requests m with hboth | ⟨e, he, hboth⟩
      · rw [(hboth _).1, (hboth _).2]
        exact hbefore now hnow' l
      · rw [(hboth _).1, (hboth _).2, save_lanes, save_lanes, set_lanes, set_lanes]
        by_cases hl : l = lane
        · rw [if_pos hl, if_pos hl]
          exact (hbefore m hearlier lane).record (hbefore now hnow' lane) hm he
        · rw [if_neg hl, if_neg hl]
          exact hbefore now hnow' l
    · have hother : ∀ lane tokens requests m, c ≠ .recordUsage lane tokens requests m :=
        fun lane tokens requests m h => hrecord ⟨lane, tokens, requests, m, h⟩
      have hsame : ∀ t, c.applyKeeping py t = c.apply py t := by
        intro t
        cases c with
        | recordUsage lane tokens requests m => exact absurd rfl (hother lane tokens requests m)
        | _ => rfl
      obtain ⟨lane, f, hf, hlanes⟩ := apply_blind py (hcalls c (by simp)) hother
      rw [hsame, hlanes, hlanes]
      split
      · exact (hbefore now hnow' l).blind hf
      · exact hbefore now hnow' l

/-- **Pruning loses nothing.** At the last call and after it, a lane shows what it would if every
event had been kept. -/
theorem pruning_loses_nothing (start : UsageTracker) (calls : List Call)
    (hstart : ∀ l, (start.lanes l).events = []) (hcalls : ∀ c ∈ calls, c.tokensOnly = true)
    (hsorted : (calls.filterMap Call.time).Pairwise (· ≤ ·)) (now : ℚ)
    (hnow : ∀ time ∈ calls.filterMap Call.time, time ≤ now) (l : Lane) :
    let pruned := (runCalls py start calls).lanes l
    let kept := (runKeeping py start calls).lanes l
    pruned.tokensUsed now = kept.tokensUsed now ∧ pruned.requestsMade now = kept.requestsMade now ∧
      pruned.headroomTokens now = kept.headroomTokens now ∧ pruned.isThrottled now = kept.isThrottled now := by
  have hagree := run_agree py hstart hcalls hsorted now hnow l
  dsimp only
  generalize (runCalls py start calls).lanes l = a at hagree
  generalize (runKeeping py start calls).lanes l = b at hagree
  have hused : a.tokensUsed now = b.tokensUsed now := by
    unfold LaneState.tokensUsed
    rw [hagree.live]
  have hthrottled : a.isThrottled now = b.isThrottled now := by rw [← hagree.same]; rfl
  refine ⟨hused, ?_, ?_, hthrottled⟩
  · unfold LaneState.requestsMade
    rw [hagree.live]
  · have hcap : b.tokenCap = a.tokenCap := by rw [← hagree.same]
    have hexpired : b.expired now = a.expired now := by rw [← hagree.same]; rfl
    have hreported : b.reportedTokensRemaining = a.reportedTokensRemaining := by rw [← hagree.same]
    unfold LaneState.headroomTokens
    rw [hthrottled, hused, hcap, hexpired, hreported]

/-- Windows of half a second. The second event is recorded one second, the least window, after the
first. -/
theorem pruned_at_edge :
    let start : UsageTracker := ⟨Tracker.fresh (fun _ => some 1000) (1 / 2), none⟩
    let calls : List Call := [.recordUsage .cursor (.finite 400) (.finite 1) 10,
      .recordUsage .cursor (.finite 5) (.finite 1) 11]
    ((runCalls noTexts start calls).lanes .cursor).events.length = 1 ∧
      ((runKeeping noTexts start calls).lanes .cursor).events.length = 2 ∧
      ((runCalls noTexts start calls).lanes .cursor).tokensUsed 11 =
        ((runKeeping noTexts start calls).lanes .cursor).tokensUsed 11 := by
  refine ⟨by decide +kernel, by decide +kernel, ?_⟩
  refine (pruning_loses_nothing noTexts ⟨Tracker.fresh (fun _ => some 1000) (1 / 2), none⟩
    [.recordUsage .cursor (.finite 400) (.finite 1) 10, .recordUsage .cursor (.finite 5) (.finite 1) 11]
    (fun _ => rfl) (by simp [Call.tokensOnly]) ?_ 11 ?_ .cursor).1
  · show ([10, 11] : List ℚ).Pairwise (· ≤ ·)
    norm_num
  · show ∀ time ∈ ([10, 11] : List ℚ), time ≤ 11
    norm_num

end Swarm.Usage
