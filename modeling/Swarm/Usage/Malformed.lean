import Swarm.Usage.Reported

/-! # Headers whose values are malformed -/

namespace Swarm.Usage

/-! ## The documented forms -/

/-- The rest of a text after a shape, in which `d` stands for a digit. -/
def afterShape : List Char → List Char → Option (List Char)
  | [], text => some text
  | s :: shape, c :: text =>
    if c = s ∧ s ≠ 'd' ∨ s = 'd' ∧ c.isDigit then afterShape shape text else none
  | _ :: _, [] => none

def isOffset (text : List Char) : Bool :=
  text = ['Z'] || text = ['z'] ||
    afterShape "+dd:dd".toList text = some [] || afterShape "-dd:dd".toList text = some []

/-- A date, `T`, a time with its seconds and perhaps their fraction, and an offset. -/
def isRfc3339 (v : String) : Bool :=
  let upper := v.toList.map fun c => if c = 't' ∨ c = ' ' then 'T' else c
  (afterShape "dddd-dd-ddTdd:dd:dd".toList upper).any fun rest =>
    isOffset rest ||
      (rest.head? = some '.' && rest.tail.head?.any Char.isDigit && isOffset (rest.tail.dropWhile Char.isDigit))

/-- The seconds in the text of a duration: an `s` at its end goes, and a `+` at its start. -/
def duration (v : String) : String :=
  let dur := if v.endsWith "s" then String.ofList v.toList.dropLast else v
  if dur.startsWith "+" then String.ofList dur.toList.tail else dur

section Forms

variable (py : Parsing)

/-- A finite number of seconds, with or without `+` and `s`, or a stamp of RFC 3339. -/
def documentedReset (v : String) : Bool :=
  (py.float (duration (py.strip v))).any Num.isFinite || isRfc3339 (py.strip v)

def wellFormed (name v : String) : Bool :=
  if name = "anthropic-ratelimit-tokens-reset" then documentedReset py v
  else if name = "anthropic-ratelimit-tokens-limit" ∨ name = "anthropic-ratelimit-tokens-remaining" ∨
      name = "retry-after" then
    (py.float v).any Num.isFinite
  else true

/-- The headers without the malformed ones. -/
def sanitized (headers : String → Option String) (name : String) : Option String :=
  (headers name).filter (wellFormed py name)

theorem parseReset_none (now : ℚ) : parseReset py none now = none := rfl

theorem parseReset_some (v : String) (now : ℚ) :
    parseReset py (some v) now =
      if py.strip v = "" then none
      else (py.float (duration (py.strip v))).elim (py.timestamp ((py.strip v).replace "Z" "+00:00"))
        fun f => some ((Num.finite now).add f) := by
  unfold parseReset duration
  by_cases hempty : py.strip v = ""
  · simp [hempty]
  · simp only [Option.map_some, if_neg hempty]
    split <;> next hf => simp only [hf, Option.elim]

/-- What `float` and `fromisoformat` do on the documented forms. -/
structure Parsing.Faithful : Prop where
  stamp_finite : ∀ v t, py.timestamp v = some t → t.isFinite = true
  stamp_no_float : ∀ v, isRfc3339 v = true → py.float (duration v) = none

/-- An infinity. -/
def Num.infinite : Num → Bool
  | .inf _ => true
  | _ => false

variable {py}

theorem parseReset_documented (hpy : py.Faithful) {v : String} {now : ℚ}
    (h : documentedReset py v = true) {t : Num} (ht : parseReset py (some v) now = some t) :
    t.isFinite = true := by
  rw [parseReset_some] at ht
  split at ht
  · cases ht
  · unfold documentedReset at h
    rw [Bool.or_eq_true] at h
    cases hf : py.float (duration (py.strip v)) with
    | none =>
      rw [hf] at ht
      exact hpy.stamp_finite _ t ht
    | some f =>
      rw [hf, Option.elim, Option.some.injEq] at ht
      rw [← ht]
      apply add_finite
      rcases h with h | h
      · rwa [hf] at h
      · rw [hpy.stamp_no_float _ h] at hf
        cases hf

/-! ## The numbers -/

theorem safeInt_infinite {v : Option String} (h : (v.bind py.float).any Num.infinite = true) :
    ∃ e, safeInt py v = .error e := by
  unfold safeInt
  cases hf : v.bind py.float with
  | none => simp [hf] at h
  | some n =>
    cases n with
    | inf negative => exact ⟨_, rfl⟩
    | _ => simp [hf, Num.infinite] at h

theorem safeInt_ok {v : Option String} (h : (v.bind py.float).any Num.infinite = false) :
    safeInt py v = .ok ((v.bind py.float).bind fun n => n.int.toOption) := by
  unfold safeInt
  cases hf : v.bind py.float with
  | none => rfl
  | some n =>
    cases n with
    | inf negative => simp [hf, Num.infinite] at h
    | _ => rfl

theorem safeInt_sanitized {v : Option String} {i : Option Int} (h : safeInt py v = .ok i) :
    safeInt py (v.filter fun v => (py.float v).any Num.isFinite) = .ok i := by
  cases v with
  | none => exact h
  | some v =>
    rw [← h]
    unfold safeInt at h ⊢
    cases hf : py.float v with
    | none => simp [Option.filter, hf]
    | some n =>
      cases n with
      | finite q => simp [Option.filter, hf, Num.isFinite]
      | inf negative => simp [hf, Num.int] at h
      | nan => simp [Option.filter, hf, Num.isFinite, Num.int]

theorem sanitized_limit (headers : String → Option String) :
    sanitized py headers "anthropic-ratelimit-tokens-limit" =
      (headers "anthropic-ratelimit-tokens-limit").filter fun v => (py.float v).any Num.isFinite :=
  rfl

theorem sanitized_remaining (headers : String → Option String) :
    sanitized py headers "anthropic-ratelimit-tokens-remaining" =
      (headers "anthropic-ratelimit-tokens-remaining").filter fun v =>
        (py.float v).any Num.isFinite := rfl

theorem sanitized_retry (headers : String → Option String) :
    sanitized py headers "retry-after" =
      (headers "retry-after").filter fun v => (py.float v).any Num.isFinite := rfl

theorem sanitized_reset (headers : String → Option String) :
    sanitized py headers "anthropic-ratelimit-tokens-reset" =
      (headers "anthropic-ratelimit-tokens-reset").filter (documentedReset py) := rfl

/-! ## The cooldown -/

/-- A reset that is read though it has none of the documented forms. -/
def StrayReset (py : Parsing) (headers : String → Option String) (now : ℚ) : Prop :=
  ∃ v, headers "anthropic-ratelimit-tokens-reset" = some v ∧ documentedReset py v = false ∧
    parseReset py (some v) now ≠ none

theorem parseReset_sanitized_iff (headers : String → Option String) (now : ℚ) :
    parseReset py (headers "anthropic-ratelimit-tokens-reset") now =
        parseReset py (sanitized py headers "anthropic-ratelimit-tokens-reset") now ↔
      ¬ StrayReset py headers now := by
  rw [sanitized_reset]
  unfold StrayReset
  cases headers "anthropic-ratelimit-tokens-reset" with
  | none => simp
  | some v => cases hv : documentedReset py v <;> simp [Option.filter, hv, parseReset_none]

theorem retry_sanitized (headers : String → Option String) :
    (sanitized py headers "retry-after").bind py.float =
      ((headers "retry-after").bind py.float).filter Num.isFinite := by
  rw [sanitized_retry]
  cases headers "retry-after" with
  | none => rfl
  | some v =>
    cases hf : py.float v with
    | none => simp [Option.filter, hf]
    | some n => cases hn : n.isFinite <;> simp [Option.filter, hf, hn]

theorem sanitized_reset_finite (hpy : py.Faithful) {headers : String → Option String} {now : ℚ}
    {t : Num}
    (h : parseReset py (sanitized py headers "anthropic-ratelimit-tokens-reset") now = some t) :
    t.isFinite = true := by
  rw [sanitized_reset] at h
  cases hv : (headers "anthropic-ratelimit-tokens-reset").filter (documentedReset py) with
  | none =>
    rw [hv] at h
    cases h
  | some v =>
    rw [hv] at h
    exact parseReset_documented hpy (Option.filter_eq_some_iff.mp hv).2 h

theorem cooldown_sanitized_iff (hpy : py.Faithful) (headers : String → Option String)
    (remaining : Option Int) (now : ℚ) :
    cooldown py headers remaining now = cooldown py (sanitized py headers) remaining now ↔
      (headers "retry-after").bind py.float ≠ some (.inf false) ∧
        (((headers "retry-after").bind py.float).any (Num.finite 0).lt = false →
          remaining.any (· ≤ 0) = true → ¬ StrayReset py headers now) := by
  unfold cooldown
  rw [retry_sanitized]
  generalize (headers "retry-after").bind py.float = retry
  have hreset : (if remaining.any (· ≤ 0) = true then
        parseReset py (headers "anthropic-ratelimit-tokens-reset") now else none) =
      (if remaining.any (· ≤ 0) = true then
        parseReset py (sanitized py headers "anthropic-ratelimit-tokens-reset") now else none) ↔
      (remaining.any (· ≤ 0) = true → ¬ StrayReset py headers now) := by
    by_cases hspent : remaining.any (· ≤ 0) = true
    · rw [if_pos hspent, if_pos hspent, parseReset_sanitized_iff]
      simp [hspent]
    · simp [hspent]
  cases retry with
  | none => simpa using hreset
  | some s =>
    cases s with
    | finite q =>
      by_cases hq : 0 < q
      · simp [Option.filter, Num.isFinite, Num.lt, hq]
      · simpa [Option.filter, Num.isFinite, Num.lt, hq] using hreset
    | inf negative =>
      cases negative with
      | true => simpa [Option.filter, Num.isFinite, Num.lt] using hreset
      | false =>
        -- The endless cooldown is no reset of a documented form.
        simp only [Option.filter, Num.isFinite, Num.lt, Num.add, Option.any_some, Option.any_none, Option.map_some,
          Bool.not_false, if_true, Bool.false_eq_true, if_false, ne_eq, not_true, false_and, iff_false]
        split
        · intro h
          exact absurd (sanitized_reset_finite hpy h.symm) Bool.false_ne_true
        · simp
    | nan => simpa [Option.filter, Num.isFinite, Num.lt] using hreset

/-- The headers that the call can take: what is not a finite number, or no documented reset, has no
effect. -/
structure Harmless (py : Parsing) (headers : String → Option String) (now : ℚ) : Prop where
  limit : ((headers "anthropic-ratelimit-tokens-limit").bind py.float).any Num.infinite = false
  remaining : ((headers "anthropic-ratelimit-tokens-remaining").bind py.float).any Num.infinite = false
  retryAfter : (headers "retry-after").bind py.float ≠ some (.inf false)
  /-- A stray reset is only read when nothing remains and no `retry-after` is given. -/
  reset : ((headers "retry-after").bind py.float).any (Num.finite 0).lt = false →
    (reportedCount py headers).any (· ≤ 0) = true → ¬ StrayReset py headers now

/-- **When header ingest is total.** The call returns, and leaves every lane as the well-formed
headers alone would, exactly for the harmless headers. -/
theorem headers_total_iff (hpy : py.Faithful) (headers : String → Option String) (now : ℚ) :
    (∀ (t : UsageTracker) (lane : Lane), (t.applyAnthropicHeaders py lane headers now).1 = .ok () ∧
        (t.applyAnthropicHeaders py lane headers now).2 =
          (t.applyAnthropicHeaders py lane (sanitized py headers) now).2) ↔
      Harmless py headers now := by
  by_cases hlimit : ((headers "anthropic-ratelimit-tokens-limit").bind py.float).any Num.infinite = true
  · obtain ⟨e, he⟩ := safeInt_infinite hlimit
    refine iff_of_false (fun h => ?_) fun h => by rw [h.limit] at hlimit; cases hlimit
    have hraises := (h opened .api).1
    rw [headers_limit_raises he] at hraises
    cases hraises
  rw [Bool.not_eq_true] at hlimit
  have hlim := safeInt_ok hlimit
  by_cases hremaining : ((headers "anthropic-ratelimit-tokens-remaining").bind py.float).any Num.infinite = true
  · obtain ⟨e, he⟩ := safeInt_infinite hremaining
    refine iff_of_false (fun h => ?_) fun h => by rw [h.remaining] at hremaining; cases hremaining
    have hraises := (h opened .api).1
    rw [headers_remaining_raises hlim he] at hraises
    cases hraises
  rw [Bool.not_eq_true] at hremaining
  have hrem : safeInt py (headers "anthropic-ratelimit-tokens-remaining") = .ok (reportedCount py headers) :=
    safeInt_ok hremaining
  have hlim' := safeInt_sanitized hlim
  have hrem' := safeInt_sanitized hrem
  rw [← sanitized_limit] at hlim'
  rw [← sanitized_remaining] at hrem'
  have hcooldown : Harmless py headers now ↔
      cooldown py headers (reportedCount py headers) now =
        cooldown py (sanitized py headers) (reportedCount py headers) now := by
    rw [cooldown_sanitized_iff hpy]
    exact ⟨fun h => ⟨h.retryAfter, h.reset⟩, fun h => ⟨hlimit, hremaining, h.1, h.2⟩⟩
  rw [hcooldown]
  constructor
  · intro h
    -- A lane without a reset shows which cooldown it was given.
    have hsame := congrArg (fun t => (t.lanes .api).resetAt) (h opened .api).2
    rw [headers_ok hlim hrem, headers_ok hlim' hrem'] at hsame
    simpa [ingested, opened, Tracker.fresh, withLimit] using hsame
  · intro h t lane
    rw [headers_ok hlim hrem, headers_ok hlim' hrem', h]
    exact ⟨rfl, rfl⟩

end Forms

theorem garbage_ignored :
    (opened.applyAnthropicHeaders noTexts .api (remainingHeader "garbage") 100).1 = .ok () := by
  have hpy : noTexts.Faithful := ⟨fun _ _ h => (by cases h), fun _ _ => rfl⟩
  have hnone : ∀ v : Option String, v.bind noTexts.float = none := fun v => by cases v <;> rfl
  have hharmless : Harmless noTexts (remainingHeader "garbage") 100 := by
    constructor
    · rw [hnone]
      rfl
    · rw [hnone]
      rfl
    · rw [hnone]
      exact fun h => by cases h
    · rintro - - ⟨v, hv, -⟩
      cases hv
  exact ((headers_total_iff hpy (remainingHeader "garbage") 100).mpr hharmless opened .api).1

/-- An infinity is a number to `float`, and `int` raises on it. -/
theorem infinite_remaining_raises :
    (opened.applyAnthropicHeaders plainNumbers .api (remainingHeader "inf") 100).1 =
      .error (.overflowError "cannot convert float infinity to integer") := by decide

end Swarm.Usage
