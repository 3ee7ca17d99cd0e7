import Mathlib.Algebra.Order.Ring.Rat
import Swarm.Python

/-!
# Rate-limit resilience, as `resilience.py` computes it

Seconds are exact rationals. What a call reaches outside (the wrapped call, the abort test,
the sleep, the random numbers, the secrets) is a `World` over a state of its own.
-/

namespace Swarm.Resilience

/-! ## Classification -/

def retryableStatus : List Int := [429, 529]

def retryableReasons : List String :=
  ["overloaded_error", "rate_limit_error", "pause_turn", "api_error"]

def textTokens : List String := ["overloaded", "rate limit", "rate_limit", " 429", " 529"]

/-- The tokens are ASCII, so lowering the ASCII letters is enough. -/
def hasToken (text : String) : Bool :=
  textTokens.any fun token => decide (token.toList <:+: text.toLower.toList)

def classifyError (e : Raised) : Option TransientError :=
  match e.cls with
  | .transient t => some t
  | .abortRequested | .other =>
    if e.status.any (· ∈ retryableStatus) then
      some ⟨"retryable HTTP status", e.status, e.reason, e.retryAfterS⟩
    else if e.reason.any (· ∈ retryableReasons) then
      some ⟨"retryable provider reason", e.status, e.reason, e.retryAfterS⟩
    else if hasToken e.text then
      some ⟨"retryable per message text", e.status, e.reason, e.retryAfterS⟩
    else none

/-- `classify_error` of whatever leaves a call: an error of the program has only its text. -/
def classifyExn : Exn → Option TransientError
  | .raised e => classifyError e
  | .transient t => some t
  | .program e =>
    if hasToken e.text then some ⟨"retryable per message text", none, none, none⟩ else none

/-! ## Waiting -/

/-- Out of the window around the five minutes of the prompt cache. -/
def cacheSafeSleep (seconds : ℚ) : ℚ :=
  if seconds ≤ 0 then 0
  else if 300 - 30 ≤ seconds ∧ seconds ≤ 300 + 30 then 270
  else seconds

structure BackoffPolicy where
  baseS : ℚ
  factor : ℚ
  maxDelayS : ℚ
  jitter : Bool

/-- From here on a number rounds to no float. -/
def floatBound : ℚ := 2 ^ 1024 - 2 ^ 970

/-- `x ** n` of a float. Only a power raises: a product that is too large is `inf`. -/
def floatPow (x : ℚ) (n : Nat) : Except PyError ℚ :=
  if floatBound ≤ |x ^ n| then .error (.overflowError "(34, 'Numerical result out of range')")
  else .ok (x ^ n)

/-- `delay`, with the answer of `rng` to this call. -/
def BackoffPolicy.delay (policy : BackoffPolicy) (rng : ℚ → ℚ → ℚ) (attempt : Int)
    (retryAfterS : Option ℚ) : Except PyError ℚ :=
  if retryAfterS.any (0 < ·) then .ok (cacheSafeSleep (retryAfterS.getD 0))
  else
    match floatPow policy.factor attempt.toNat with
    | .error e => .error e
    | .ok power =>
      let raw := min (policy.baseS * power) policy.maxDelayS
      .ok (cacheSafeSleep (if policy.jitter && 0 < raw then rng 0 raw else raw))

/-- `time.sleep`, whose clock counts nanoseconds in 64 bits. -/
def timeSleep (seconds : ℚ) : Except PyError Unit :=
  if seconds < 0 then .error (.valueError "sleep length must be non-negative")
  else if seconds * 10 ^ 9 ≤ 2 ^ 63 - 1 then .ok ()
  else .error (.overflowError "timestamp too large to convert to C PyTime_t")

/-! ## Lanes -/

/-- A ring of at least one lane label, at the lane `idx`. -/
structure KeyRotator where
  lanes : List String
  idx : Nat
  inRing : idx < lanes.length
  labels : ∀ l ∈ lanes, l ≠ "" ∧ l.length ≤ 64

namespace KeyRotator

def current (r : KeyRotator) : String := r.lanes.get ⟨r.idx, r.inRing⟩

def advance (r : KeyRotator) : KeyRotator :=
  if 1 < r.lanes.length then
    { r with
      idx := (r.idx + 1) % r.lanes.length
      inRing := Nat.mod_lt _ (Nat.zero_lt_of_lt r.inRing) }
  else r

end KeyRotator

/-! ## The call -/

structure Stats where
  attempts : Nat
  totalSleepS : ℚ
  rotations : Nat
  lastLane : Option String
  succeeded : Bool

/-- What `resilient_call` is given: `fn` takes the `api_key` keyword. -/
structure World (σ α : Type) where
  fn : Option String → σ → Except Exn α × σ
  shouldAbort : σ → Bool × σ
  sleep : ℚ → σ → Except PyError Unit
  uniform : σ → ℚ → ℚ → ℚ
  resolve : σ → String → Option String

structure Options where
  backoff : BackoffPolicy
  maxAttempts : Int
  rotateAfter : Int

/-- The variables of one call of `resilient_call`. -/
structure Call (σ : Type) where
  world : σ
  rotator : Option KeyRotator
  apiKey : Option String
  stats : Stats
  consecutiveTransient : Nat
  lastErr : Option TransientError

def Call.init {σ : Type} (s : σ) (rotator : Option KeyRotator) (apiKey : Option String) : Call σ :=
  ⟨s, rotator, apiKey, ⟨0, 0, 0, none, false⟩, 0, none⟩

@[simp] theorem Call.init_world {σ : Type} (s : σ) (rotator : Option KeyRotator)
    (apiKey : Option String) :
    (Call.init s rotator apiKey).world = s := rfl

def abortError (last : Option TransientError) : TransientError where
  message := "resilient_call aborted before completion"
  status := none
  reason := some "aborted"
  retryAfterS := last.bind (·.retryAfterS)

section

variable {σ α : Type} (w : World σ α) (opts : Options)

def enter (s : σ) (rotator : Option KeyRotator) (apiKey : Option String) : Call σ where
  world := s
  rotator := rotator
  apiKey := apiKey.or (rotator.bind fun r => w.resolve s r.current)
  stats := ⟨0, 0, 0, rotator.map (·.current), false⟩
  consecutiveTransient := 0
  lastErr := none

@[simp] theorem enter_world (s : σ) (rotator : Option KeyRotator) (apiKey : Option String) :
    (enter w s rotator apiKey).world = s := rfl

def rotate (c : Call σ) : Call σ :=
  match c.rotator with
  | none => c
  | some r =>
    if opts.rotateAfter ≤ (c.consecutiveTransient : Int) then
      let lane := r.advance
      { c with
        rotator := some lane
        apiKey := (w.resolve c.world lane.current).or c.apiKey
        stats := { c.stats with
          rotations := c.stats.rotations + 1
          lastLane := some lane.current }
        consecutiveTransient := 0 }
    else c

theorem rotate_world (c : Call σ) : (rotate w opts c).world = c.world := by
  unfold rotate
  split
  · rfl
  · split <;> rfl

def Call.failed (c : Call σ) (t : TransientError) : Call σ :=
  { c with lastErr := some t, consecutiveTransient := c.consecutiveTransient + 1 }

/-- What comes between a transient failure and the next attempt: the rotation, the delay, the second
abort test and the sleep. -/
def pause (attempt : Nat) (t : TransientError) (c : Call σ) : Except Exn Unit × Call σ :=
  let c := rotate w opts c
  match opts.backoff.delay (w.uniform c.world) attempt t.retryAfterS with
  | .error e => (.error (.program e), c)
  | .ok wait =>
    let (abort, s) := w.shouldAbort c.world
    let c := { c with world := s }
    if abort then (.error (.transient (abortError c.lastErr)), c)
    else
      let c := { c with stats := { c.stats with totalSleepS := c.stats.totalSleepS + wait } }
      match if 0 < wait then w.sleep wait s else .ok () with
      | .error e => (.error (.program e), c)
      | .ok () => (.ok (), c)

def attempts : Nat → Nat → Call σ → Except Exn α × Call σ
  | 0, _, c =>
    match c.lastErr with
    | none => (.error (.program .assertionError), c)
    | some t => (.error (.transient t), c)
  | left + 1, attempt, c =>
    let (abort, s) := w.shouldAbort c.world
    if abort then (.error (.transient (abortError c.lastErr)), { c with world := s })
    else
      let (result, s) := w.fn c.apiKey s
      let c := { c with world := s, stats := { c.stats with attempts := attempt + 1 } }
      match result with
      | .ok v => (.ok v, { c with stats := { c.stats with succeeded := true } })
      | .error e =>
        match classifyExn e with
        | none => (.error e, c)
        | some t =>
          let c := c.failed t
          if left = 0 then attempts 0 (attempt + 1) c
          else
            match pause w opts attempt t c with
            | (.error e, c) => (.error e, c)
            | (.ok (), c) => attempts left (attempt + 1) c

def resilientCall (s : σ) (rotator : Option KeyRotator) (apiKey : Option String) :
    Except Exn α × Call σ :=
  if opts.maxAttempts < 1 then
    (.error (.program (.valueError "max_attempts must be >= 1")), .init s rotator apiKey)
  else attempts w opts opts.maxAttempts.toNat 0 (enter w s rotator apiKey)

end

end Swarm.Resilience
