import Mathlib.Data.List.DropRight
import Swarm.Usage.Ingest

/-! # How long a reported count is used -/

namespace Swarm.Usage

variable (py : Parsing)

/-! ## The count that has just come -/

theorem headroom_reported {st : LaneState} {now : ℚ} {r : Int}
    (hthrottled : st.isThrottled now = false) (hreported : st.reportedTokensRemaining = some r)
    (hr : 1 ≤ r) :
    st.headroomTokens now = some r ↔
      (st.expired now = true → 0 < st.tokenCap ∧ max 0 (st.tokenCap - st.tokensUsed now) = r) := by
  unfold LaneState.headroomTokens
  rw [hthrottled, hreported]
  cases hexpired : st.expired now with
  | false =>
    have hmax : max 0 r = r := by omega
    simp [hmax]
  | true =>
    by_cases hcap : 0 < st.tokenCap
    · simp [hcap]
    · simp [hcap]

/-- **When a fresh count is used.** The headers report `r` tokens and no cooldown is running. The
lane has headroom `r` exactly when the limit can be read and no reset has passed, but for the lanes
whose cap gives `r` as well. -/
theorem fresh_count_iff (t : UsageTracker) (lane : Lane) (headers : String → Option String)
    (now : ℚ) (r : Int) (hr : 1 ≤ r)
    (hremaining : safeInt py (headers "anthropic-ratelimit-tokens-remaining") =
      .ok (some r))
    (hretry : ((headers "retry-after").bind py.float).any (Num.finite 0).lt = false)
    (hthrottled : (t.lanes lane).isThrottled now = false) :
    ((t.applyAnthropicHeaders py lane headers now).1 = .ok () ∧
        ((t.applyAnthropicHeaders py lane headers now).2.lanes lane).headroomTokens now = some r) ↔
      ∃ limit, safeInt py (headers "anthropic-ratelimit-tokens-limit") = .ok limit ∧
        ((t.lanes lane).expired now = true → 0 < (withLimit limit (t.lanes lane)).tokenCap ∧
          max 0 ((withLimit limit (t.lanes lane)).tokenCap - (t.lanes lane).tokensUsed now) =
            r) := by
  cases hlimit : safeInt py (headers "anthropic-ratelimit-tokens-limit") with
  | error e =>
    rw [headers_limit_raises hlimit]
    simp
  | ok limit =>
    have hnone : cooldown py headers (some r) now = none := by
      have hpos : ¬ r ≤ 0 := by omega
      unfold cooldown
      simp [hretry, hpos]
    have hmax : max 0 r = r := by omega
    rw [headers_ok hlimit hremaining, hnone]
    simp only [true_and, Except.ok.injEq, exists_eq_left', save_lanes, set_lanes, if_true]
    have hcount : (ingested (t.lanes lane) limit (some r) none now).reportedTokensRemaining = some r := by
      simp [ingested, hmax]
    have hopen : (ingested (t.lanes lane) limit (some r) none now).isThrottled now = false :=
      hthrottled
    exact headroom_reported hopen hcount hr

/-- The texts of the examples that are numbers. -/
def plainNumbers : Parsing where
  strip := id
  float s :=
    if s = "5000" then some (.finite 5000)
    else if s = "0" then some (.finite 0)
    else if s = "inf" then some (.inf false)
    else none
  timestamp _ := none

/-- The headers of a response. -/
def remainingHeader (text : String) (name : String) : Option String :=
  if name = "anthropic-ratelimit-tokens-remaining" then some text else none

theorem fresh_count_used :
    ((opened.applyAnthropicHeaders plainNumbers .api (remainingHeader "5000") 100).2.lanes .api).headroomTokens 100 =
      some 5000 := by
  refine ((fresh_count_iff plainNumbers opened .api (remainingHeader "5000") 100 5000 (by decide) (by decide)
    (by decide) (by decide)).mpr ⟨none, by decide, ?_⟩).2
  intro hexpired
  exact absurd hexpired (by decide)

/-- After a 429 that is over, a lane without a cap does not use the count that has just come. -/
theorem fresh_count_lost :
    let t := (opened.recordRateLimit .api (some (.finite 60)) 0).2
    (t.lanes .api).isThrottled 100 = false ∧
      (t.applyAnthropicHeaders plainNumbers .api (remainingHeader "5000") 100).1 = .ok () ∧
      ((t.applyAnthropicHeaders plainNumbers .api (remainingHeader "5000") 100).2.lanes .api).headroomTokens 100 =
        none := by
  refine ⟨?_, rfl, ?_⟩ <;> decide +kernel

/-! ## The count that stays -/

section History

variable (l : Lane)

def Call.clears : Call → Bool
  | .clearThrottle lane => lane = l
  | _ => false

/-- The count that headers report, where it is a finite number. -/
def reportedCount (headers : String → Option String) : Option Int :=
  ((headers "anthropic-ratelimit-tokens-remaining").bind py.float).bind fun n => n.int.toOption

/-- The reset that a call sets for the lane. -/
def Call.cools : Call → Option Num
  | .recordRateLimit lane retryAfterS now =>
    if lane = l then some ((Num.finite now).add (retryDelay retryAfterS)) else none
  | .applyAnthropicHeaders lane headers now =>
    if lane = l then cooldown py headers (reportedCount py headers) now else none
  | _ => none

/-- The count that a call reports for the lane. -/
def Call.reports : Call → Option Int
  | .applyAnthropicHeaders lane headers _ =>
    if lane = l then (reportedCount py headers).map (max 0) else none
  | _ => none

/-- The calls after the last `clear_throttle` of the lane. -/
def sinceClear (calls : List Call) : List Call := calls.rtakeWhile fun c => !c.clears l

end History

/-- The values that a call gives for a header are finite numbers, or no numbers at all. -/
def Call.Finite : Call → Prop
  | .recordRateLimit _ retryAfterS _ => ∀ s, retryAfterS = some s → s.isFinite = true
  | .applyAnthropicHeaders _ headers now =>
    (∀ name ∈ ["anthropic-ratelimit-tokens-limit", "anthropic-ratelimit-tokens-remaining", "retry-after"],
      ∀ n, (headers name).bind py.float = some n → n.isFinite = true) ∧
    ∀ n, parseReset py (headers "anthropic-ratelimit-tokens-reset") now = some n → n.isFinite = true
  | _ => True

theorem getLast?_since {α : Type} (f : Call → Option α) (l : Lane) (calls : List Call) (c : Call) :
    ((sinceClear l (calls ++ [c])).filterMap f).getLast? =
      if c.clears l then none else (f c).or ((sinceClear l calls).filterMap f).getLast? := by
  unfold sinceClear
  rw [List.rtakeWhile_concat]
  cases c.clears l with
  | true => rfl
  | false => cases hf : f c <;> simp [hf]

theorem safeInt_finite {v : Option String} (h : ∀ n, v.bind py.float = some n → n.isFinite = true) :
    safeInt py v = .ok ((v.bind py.float).bind fun n => n.int.toOption) := by
  unfold safeInt
  cases hn : v.bind py.float with
  | none => rfl
  | some n =>
    cases n with
    | finite q => rfl
    | _ => cases h _ hn

theorem add_finite {now : ℚ} {s : Num} (h : s.isFinite = true) :
    ((Num.finite now).add s).isFinite = true := by
  cases s with
  | finite q => rfl
  | _ => cases h

theorem cools_finite {c : Call} (hc : c.Finite py) {l : Lane} {t : Num}
    (h : c.cools py l = some t) :
    t.isFinite = true := by
  cases c with
  | recordRateLimit lane retryAfterS now =>
    simp only [Call.cools, Option.ite_none_right_eq_some, Option.some.injEq] at h
    rw [← h.2]
    apply add_finite
    unfold retryDelay
    cases retryAfterS with
    | none => rfl
    | some s =>
      cases hs : (Num.finite 0).lt s with
      | false => simp [Option.filter, hs, Num.isFinite]
      | true => simp [Option.filter, hs, hc s rfl]
  | applyAnthropicHeaders lane headers now =>
    simp only [Call.cools, Option.ite_none_right_eq_some] at h
    obtain ⟨-, h⟩ := h
    unfold cooldown at h
    dsimp only at h
    split at h
    · obtain ⟨s, hs, rfl⟩ := Option.map_eq_some_iff.mp h
      exact add_finite (hc.1 _ (by simp) s hs)
    · split at h
      · exact hc.2 t h
      · cases h
  | _ => cases h

/-- What one call does to the reset and the reported count of a lane. -/
theorem apply_reported {c : Call} (hc : c.Finite py) (t : UsageTracker) (l : Lane) :
    ((c.apply py t).2.lanes l).resetAt =
      (if c.clears l then none else (c.cools py l).or (t.lanes l).resetAt) ∧
      ((c.apply py t).2.lanes l).reportedTokensRemaining =
        if c.clears l then none else (c.reports py l).or (t.lanes l).reportedTokensRemaining := by
  cases c with
  | recordUsage lane tokens requests now =>
    simp only [Call.apply, Call.clears, Call.cools, Call.reports, UsageTracker.recordUsage, Bool.false_eq_true,
      if_false, Option.none_or]
    split
    · exact ⟨rfl, rfl⟩
    · split
      · exact ⟨rfl, rfl⟩
      · exact ⟨rfl, rfl⟩
      · rw [save_lanes, set_lanes]
        split
        · next h => rw [h]; exact ⟨rfl, rfl⟩
        · exact ⟨rfl, rfl⟩
  | recordRateLimit lane retryAfterS now =>
    rw [Call.apply, recordRateLimit_eq, save_lanes, set_lanes]
    simp only [Call.clears, Call.cools, Call.reports, Bool.false_eq_true, if_false, Option.none_or]
    by_cases h : l = lane
    · rw [if_pos h, if_pos h.symm, h]
      exact ⟨rfl, rfl⟩
    · rw [if_neg h, if_neg (Ne.symm h)]
      exact ⟨rfl, rfl⟩
  | applyAnthropicHeaders lane headers now =>
    have hlimit := safeInt_finite py (hc.1 "anthropic-ratelimit-tokens-limit" (by simp))
    have hremaining := safeInt_finite py (hc.1 "anthropic-ratelimit-tokens-remaining" (by simp))
    rw [Call.apply, headers_ok hlimit hremaining, save_lanes, set_lanes]
    simp only [Call.clears, Call.cools, Call.reports, Bool.false_eq_true, if_false]
    by_cases h : l = lane
    · rw [if_pos h, if_pos h.symm, if_pos h.symm, h]
      exact ⟨rfl, rfl⟩
    · rw [if_neg h, if_neg (Ne.symm h), if_neg (Ne.symm h)]
      exact ⟨rfl, rfl⟩
  | clearThrottle lane =>
    simp only [Call.apply, UsageTracker.clearThrottle, Call.clears, Call.cools, Call.reports, save_lanes, set_lanes,
      Option.none_or, decide_eq_true_eq]
    by_cases h : l = lane
    · rw [if_pos h, if_pos h.symm, if_pos h.symm]
      exact ⟨rfl, rfl⟩
    · rw [if_neg h, if_neg (Ne.symm h), if_neg (Ne.symm h)]
      exact ⟨rfl, rfl⟩
  | setCap lane tokens windowS =>
    -- A cap that cannot be read leaves the lane, and any other touches neither field.
    have hkeep : ∀ st : LaneState, st.resetAt = (t.lanes lane).resetAt →
        st.reportedTokensRemaining = (t.lanes lane).reportedTokensRemaining →
        ((t.set lane st).lanes l).resetAt = (t.lanes l).resetAt ∧
          ((t.set lane st).lanes l).reportedTokensRemaining = (t.lanes l).reportedTokensRemaining := by
      intro st hreset hreported
      rw [set_lanes]
      split
      · next h => rw [h]; exact ⟨hreset, hreported⟩
      · exact ⟨rfl, rfl⟩
    simp only [Call.apply, UsageTracker.setCap, Call.clears, Call.cools, Call.reports, Bool.false_eq_true, if_false,
      Option.none_or]
    split
    · exact ⟨rfl, rfl⟩
    · split
      · exact hkeep _ rfl rfl
      · split
        · exact hkeep _ rfl rfl
        · exact hkeep _ rfl rfl

theorem reports_nonneg {c : Call} {l : Lane} {r : Int} (h : c.reports py l = some r) : 0 ≤ r := by
  cases c with
  | applyAnthropicHeaders lane headers now =>
    simp only [Call.reports, Option.ite_none_right_eq_some, Option.map_eq_some_iff] at h
    obtain ⟨-, n, -, rfl⟩ := h
    exact le_max_left 0 n
  | _ => cases h

theorem runCalls_reported {t : UsageTracker} {calls : List Call} (hcalls : ∀ c ∈ calls, c.Finite py)
    {l : Lane} (hreset : (t.lanes l).resetAt = none)
    (hreported : (t.lanes l).reportedTokensRemaining = none) :
    ((runCalls py t calls).lanes l).resetAt =
      ((sinceClear l calls).filterMap (Call.cools py l)).getLast? ∧
      ((runCalls py t calls).lanes l).reportedTokensRemaining =
        ((sinceClear l calls).filterMap (Call.reports py l)).getLast? := by
  induction calls using List.reverseRecOn with
  | nil => exact ⟨hreset, hreported⟩
  | append_singleton calls c ih =>
    have hstep : runCalls py t (calls ++ [c]) = (c.apply py (runCalls py t calls)).2 := by
      simp [runCalls]
    obtain ⟨ih_reset, ih_reported⟩ := ih fun c hc => hcalls c (by simp [hc])
    obtain ⟨hc_reset, hc_reported⟩ := apply_reported py (hcalls c (by simp)) (runCalls py t calls) l
    rw [hstep, hc_reset, hc_reported, getLast?_since, getLast?_since, ih_reset, ih_reported]
    exact ⟨rfl, rfl⟩

theorem liveEvents_end (st : LaneState) : ∃ T : ℚ, ∀ now, T ≤ now → st.liveEvents now = [] := by
  obtain ⟨cap, w, events, last, reset, reported⟩ := st
  unfold LaneState.liveEvents
  dsimp only
  induction events with
  | nil => exact ⟨0, fun _ _ => rfl⟩
  | cons e rest ih =>
    obtain ⟨T, hT⟩ := ih
    have he : ∃ B : ℚ, ∀ now, B ≤ now →
        ((Num.finite (now - max 1 w)).lt e.ts && e.ts.le (.finite now)) = false := by
      cases e.ts with
      | finite q =>
        refine ⟨q + max 1 w, fun now hnow => ?_⟩
        have hout : ¬ now - max 1 w < q := by linarith
        simp [Num.lt, hout]
      | inf negative => exact ⟨0, fun now _ => by cases negative <;> rfl⟩
      | nan => exact ⟨0, fun now _ => rfl⟩
    obtain ⟨B, hB⟩ := he
    refine ⟨max T B, fun now hnow => ?_⟩
    rw [List.filter_cons_of_neg (by rw [hB now (le_of_max_le_right hnow)]; exact Bool.false_ne_true)]
    exact hT now (le_of_max_le_left hnow)

theorem recovers_iff {st : LaneState} (hfinite : ∀ t, st.resetAt = some t → t.isFinite = true)
    (hpos : ∀ r, st.reportedTokensRemaining = some r → 0 ≤ r) (hcap : 0 < st.tokenCap) :
    (∃ T : ℚ, ∀ now, T ≤ now → st.isThrottled now = false ∧
        st.headroomTokens now = some (max 0 (st.tokenCap - st.tokensUsed now))) ↔
      st.resetAt.isSome = true ∨ ∀ r, st.reportedTokensRemaining = some r → r = st.tokenCap := by
  -- From `E` on the window is empty.
  obtain ⟨E, hE⟩ := liveEvents_end st
  have hunused : ∀ now, E ≤ now → st.tokensUsed now = 0 := by
    intro now hnow
    unfold LaneState.tokensUsed
    rw [hE now hnow]
    rfl
  cases hreset : st.resetAt with
  | none =>
    have hopen : ∀ now, st.isThrottled now = false := by
      intro now
      unfold LaneState.isThrottled
      rw [hreset]
    have hfresh : ∀ now, st.expired now = false := by
      intro now
      unfold LaneState.expired
      rw [hreset]
    cases hreported : st.reportedTokensRemaining with
    | none =>
      refine iff_of_true ⟨0, fun now _ => ⟨hopen now, ?_⟩⟩ (.inr fun r hr => by cases hr)
      unfold LaneState.headroomTokens
      rw [hopen, hreported]
      simp [hcap]
    | some r =>
      have hr := hpos r hreported
      -- Without a reset the reported count never expires.
      have hheadroom : ∀ now, st.headroomTokens now = some (max 0 r) := by
        intro now
        unfold LaneState.headroomTokens
        rw [hopen, hreported, hfresh]
        rfl
      have hmax : max 0 r = r := by omega
      constructor
      · rintro ⟨T, hT⟩
        right
        rintro _ ⟨⟩
        have hlate := (hT (max T E) (le_max_left ..)).2
        rw [hheadroom, hunused _ (le_max_right ..), Option.some.injEq] at hlate
        omega
      · rintro (h | h)
        · cases h
        · refine ⟨E, fun now hnow => ⟨hopen now, ?_⟩⟩
          have heq := h r rfl
          rw [hheadroom, hunused now hnow, Option.some.injEq]
          omega
  | some t =>
    refine iff_of_true ?_ (.inl rfl)
    cases t with
    | finite q =>
      refine ⟨q, fun now hnow => ?_⟩
      have hopen : st.isThrottled now = false := by
        unfold LaneState.isThrottled
        rw [hreset]
        exact decide_eq_false (not_lt.mpr hnow)
      have hexpired : st.expired now = true := by
        unfold LaneState.expired
        rw [hreset]
        exact decide_eq_true hnow
      refine ⟨hopen, ?_⟩
      unfold LaneState.headroomTokens
      rw [hopen, hexpired]
      simp [hcap]
    | _ => cases hfinite _ hreset

/-- **When a stale count lets go.** A lane with a cap comes back to the headroom that its cap gives
exactly when, since its throttle was last cleared, a call has set a reset, none has reported a
count, or the last count is the cap. -/
theorem stale_count_iff (planCaps : Lane → Option Int) (windowS : ℚ) (calls : List Call)
    (hcalls : ∀ c ∈ calls, c.Finite py) (l : Lane)
    (hcap : 0 < ((runCalls py ⟨Tracker.fresh planCaps windowS, none⟩ calls).lanes l).tokenCap) :
    let st := (runCalls py ⟨Tracker.fresh planCaps windowS, none⟩ calls).lanes l
    (∃ T : ℚ, ∀ now, T ≤ now → st.isThrottled now = false ∧
        st.headroomTokens now = some (max 0 (st.tokenCap - st.tokensUsed now))) ↔
      (∃ c ∈ sinceClear l calls, (c.cools py l).isSome = true) ∨
        ∀ r, ((sinceClear l calls).filterMap (Call.reports py l)).getLast? = some r → r = st.tokenCap := by
  have hlane : ∀ c ∈ sinceClear l calls, c ∈ calls := fun c hc =>
    (List.rtakeWhile_suffix (fun c : Call => !c.clears l) calls).subset hc
  obtain ⟨hreset, hreported⟩ :=
    runCalls_reported py hcalls (l := l) (t := ⟨Tracker.fresh planCaps windowS, none⟩)
    rfl rfl
  dsimp only
  generalize (runCalls py ⟨Tracker.fresh planCaps windowS, none⟩ calls).lanes l = st at hreset hreported hcap
  have hsome : st.resetAt.isSome = true ↔ ∃ c ∈ sinceClear l calls, (c.cools py l).isSome = true := by
    rw [hreset, List.getLast?_isSome, ne_eq, List.filterMap_eq_nil_iff]
    simp [Option.isSome_iff_ne_none]
  have hmem : ∀ {α : Type} {f : Call → Option α} {x : α}, ((sinceClear l calls).filterMap f).getLast? = some x →
      ∃ c ∈ sinceClear l calls, f c = some x := by
    intro α f x hx
    exact List.mem_filterMap.mp (List.mem_of_getLast? hx)
  rw [recovers_iff ?_ ?_ hcap, hsome, hreported]
  · intro t ht
    rw [hreset] at ht
    obtain ⟨c, hc, hcools⟩ := hmem ht
    exact cools_finite py (hcalls c (hlane c hc)) hcools
  · intro r hr
    rw [hreported] at hr
    obtain ⟨c, -, hreports⟩ := hmem hr
    exact reports_nonneg py hreports

/-- A cap of a thousand tokens, and a response that reports none left and names no reset. -/
def pinning : List Call :=
  [.setCap .api (.finite 1000) none, .applyAnthropicHeaders .api (remainingHeader "0") 100]

theorem pinning_finite : ∀ c ∈ pinning, c.Finite plainNumbers := by
  intro c hc
  simp only [pinning, List.mem_cons, List.not_mem_nil, or_false] at hc
  rcases hc with rfl | rfl
  · trivial
  · refine ⟨?_, fun n hn => by cases hn⟩
    intro name _ n hn
    unfold remainingHeader plainNumbers at hn
    split at hn
    · cases hn
      rfl
    · cases hn

theorem stale_count_clears :
    ∃ T : ℚ, ∀ now, T ≤ now →
      ((runCalls plainNumbers opened (pinning ++ [.clearThrottle .api])).lanes .api).headroomTokens now =
        some (max 0 (1000 -
          ((runCalls plainNumbers opened (pinning ++ [.clearThrottle .api])).lanes .api).tokensUsed now)) := by
  have hcalls : ∀ c ∈ pinning ++ [.clearThrottle .api], c.Finite plainNumbers := by
    intro c hc
    rw [List.mem_append, List.mem_singleton] at hc
    rcases hc with hc | rfl
    · exact pinning_finite c hc
    · trivial
  have hsince : sinceClear .api (pinning ++ [.clearThrottle .api]) = [] := by
    unfold sinceClear
    rw [List.rtakeWhile_concat]
    rfl
  obtain ⟨T, hT⟩ := (stale_count_iff plainNumbers (fun _ => none) DEFAULT_WINDOW_S
    (pinning ++ [.clearThrottle .api]) hcalls .api (by decide +kernel)).mpr
      (.inr (by rw [hsince]; intro r hr; cases hr))
  exact ⟨T, fun now hnow => (hT now hnow).2⟩

/-- The lane has no headroom for good, though nothing was ever used on it. -/
theorem stale_count_pins :
    (∀ c ∈ pinning, c.Finite plainNumbers) ∧
      ((runCalls plainNumbers opened pinning).lanes .api).tokenCap = 1000 ∧
      ¬ ∃ T : ℚ, ∀ now, T ≤ now → ((runCalls plainNumbers opened pinning).lanes .api).isThrottled now = false ∧
        ((runCalls plainNumbers opened pinning).lanes .api).headroomTokens now =
          some (max 0 (1000 - ((runCalls plainNumbers opened pinning).lanes .api).tokensUsed now)) := by
  have hlane : (runCalls plainNumbers opened pinning).lanes .api =
      ⟨1000, DEFAULT_WINDOW_S, [], none, none, some 0⟩ := by decide +kernel
  rw [hlane]
  refine ⟨pinning_finite, rfl, ?_⟩
  rintro ⟨T, hT⟩
  have hzero : some (0 : Int) = some (max 0 (1000 - 0)) := (hT T le_rfl).2
  cases hzero

end Swarm.Usage
