import Swarm.Usage.Restart

/-! # What the headers do to a lane -/

namespace Swarm.Usage

section Headers

variable (py : Parsing) (headers : String → Option String)

/-! ## The call, by its parsed headers -/

def withLimit (limit : Option Int) (st : LaneState) : LaneState :=
  { st with tokenCap := if 0 < limit.getD 0 then limit.getD 0 else st.tokenCap }

/-- The cooldown that the headers call for: a positive `retry-after`, else the reset of an empty
lane. -/
def cooldown (remaining : Option Int) (now : ℚ) : Option Num :=
  let retryAfter := (headers "retry-after").bind py.float
  if retryAfter.any (Num.finite 0).lt then retryAfter.map (Num.finite now).add
  else if remaining.any (· ≤ 0) then parseReset py (headers "anthropic-ratelimit-tokens-reset") now
  else none

def ingested (st : LaneState) (limit remaining : Option Int) (till : Option Num)
    (now : ℚ) : LaneState :=
  { withLimit limit st with
    reportedTokensRemaining := (remaining.map (max 0)).or st.reportedTokensRemaining
    last429Ts := (till.map fun _ => Num.finite now).or st.last429Ts
    resetAt := till.or st.resetAt }

theorem softThrottle_eq (now : ℚ) (st : LaneState) (resetAt : Option Num) (remaining : Option Int) :
    UsageTracker.applyAnthropicHeaders.softThrottle now st resetAt remaining =
      { st with
        last429Ts := ((if remaining.any (· ≤ 0) then resetAt else none).map fun _ => Num.finite now).or st.last429Ts
        resetAt := (if remaining.any (· ≤ 0) then resetAt else none).or st.resetAt } := by
  unfold UsageTracker.applyAnthropicHeaders.softThrottle
  cases resetAt with
  | none => simp
  | some t =>
    cases remaining with
    | none => simp
    | some n => by_cases hn : n ≤ 0 <;> simp [hn]

variable {py headers} {t : UsageTracker} {lane : Lane} {now : ℚ} {limit : Option Int}

theorem headers_limit_raises {e : PyError}
    (h : safeInt py (headers "anthropic-ratelimit-tokens-limit") = .error e) :
    t.applyAnthropicHeaders py lane headers now = (.error e, t) := by
  unfold UsageTracker.applyAnthropicHeaders
  rw [h]

theorem headers_remaining_raises {e : PyError}
    (hlimit : safeInt py (headers "anthropic-ratelimit-tokens-limit") = .ok limit)
    (h : safeInt py (headers "anthropic-ratelimit-tokens-remaining") = .error e) :
    t.applyAnthropicHeaders py lane headers now =
      (.error e, t.set lane (withLimit limit (t.lanes lane))) := by
  unfold UsageTracker.applyAnthropicHeaders
  rw [hlimit, h]
  cases limit with
  | none => rfl
  | some n => by_cases hn : 0 < n <;> simp [withLimit, hn]

theorem headers_ok {remaining : Option Int}
    (hlimit : safeInt py (headers "anthropic-ratelimit-tokens-limit") = .ok limit)
    (hremaining : safeInt py (headers "anthropic-ratelimit-tokens-remaining") = .ok remaining) :
    t.applyAnthropicHeaders py lane headers now =
      (.ok (), (t.set lane
        (ingested (t.lanes lane) limit remaining (cooldown py headers remaining now) now)).save) := by
  unfold UsageTracker.applyAnthropicHeaders
  simp only [hlimit, hremaining, softThrottle_eq]
  congr 3
  -- Only what is parsed decides, so the two lanes are compared case by case.
  cases hretry : (headers "retry-after").bind py.float with
  | none =>
    cases limit with
    | none => cases remaining <;> simp [ingested, withLimit, cooldown, hretry]
    | some n => cases remaining <;> by_cases hn : 0 < n <;> simp [ingested, withLimit, cooldown, hretry, hn]
  | some s =>
    cases hs : (Num.finite 0).lt s <;> cases limit with
    | none => cases remaining <;> simp [ingested, withLimit, cooldown, hretry, hs]
    | some n => cases remaining <;> by_cases hn : 0 < n <;> simp [ingested, withLimit, cooldown, hretry, hs, hn]

end Headers

/-! ## The rate limit -/

/-- The delay of a 429: the `retry_after_s` that is positive, else the default. -/
def retryDelay (retryAfterS : Option Num) : Num :=
  (retryAfterS.filter (Num.finite 0).lt).getD (.finite DEFAULT_REASSESS_AFTER_S)

def rateLimited (st : LaneState) (delay : Num) (now : ℚ) : LaneState :=
  { st with last429Ts := some (.finite now), resetAt := some ((Num.finite now).add delay) }

theorem recordRateLimit_eq (t : UsageTracker) (lane : Lane) (retryAfterS : Option Num) (now : ℚ) :
    t.recordRateLimit lane retryAfterS now =
      (.ok (), (t.set lane (rateLimited (t.lanes lane) (retryDelay retryAfterS) now)).save) := by
  unfold UsageTracker.recordRateLimit retryDelay
  cases retryAfterS with
  | none => rfl
  | some s => cases hs : (Num.finite 0).lt s <;> simp [rateLimited, Option.filter, hs]

end Swarm.Usage
