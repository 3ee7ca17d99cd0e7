import Mathlib.Data.List.Range
import Mathlib.Data.Nat.Init
import Swarm.Resilience.Trace

/-!
# How often a resilient call tries, waits and rotates

What `fn` gives is written down beforehand, for any number of calls. The rotator has any ring.
-/

namespace Swarm.Resilience

/-! ## A written world -/

structure Script (α : Type) where
  outcomes : Nat → Except Exn α
  aborts : Nat → Bool
  uniform : Nat → ℚ → ℚ → ℚ
  resolve : Nat → String → Option String

/-- The calls and the abort tests so far. -/
structure Moment where
  calls : Nat
  checks : Nat

variable {α : Type}

/-- An event with the lane of the rotator in place of the state. -/
def seen {σ : Type} : Event (Call σ) α → Event (Option Nat) α :=
  Event.map fun c => c.rotator.map (·.idx)

namespace Script

variable (sc : Script α) (opts : Options) (r : KeyRotator)

def world : World Moment α where
  fn _ m := (sc.outcomes m.calls, { m with calls := m.calls + 1 })
  shouldAbort m := (sc.aborts m.checks, { m with checks := m.checks + 1 })
  sleep _ _ := .ok ()
  uniform m := sc.uniform m.calls
  resolve m := sc.resolve m.calls

/-- The transient failure that call `k` is, if it is one. -/
def transientAt (k : Nat) : Option TransientError :=
  match sc.outcomes k with
  | .ok _ => none
  | .error e => classifyExn e

/-- `delay(i, hint_i)` -/
def waitAt (k : Nat) : Except PyError ℚ :=
  opts.backoff.delay (sc.uniform (k + 1)) k ((sc.transientAt k).bind (·.retryAfterS))

/-! ## The law -/

/-- The lane of call `k`. -/
def laneAt (k : Nat) : Nat := (r.idx + k / opts.rotateAfter.toNat) % r.lanes.length

/-- What comes between call `k` and the next. -/
def gap (k : Nat) : List (Event (Option Nat) α) :=
  (if (k + 1) % opts.rotateAfter.toNat = 0 then [.rotated] else []) ++
    .checked false :: match sc.waitAt opts k with
      | .ok wait => if 0 < wait then [.slept wait] else []
      | .error _ => []

/-- Call `k` of `n`, and what follows it. -/
def part (n k : Nat) : List (Event (Option Nat) α) :=
  [.checked false, .called (some (laneAt opts r k)) (sc.outcomes k)] ++
    if k + 1 < n then sc.gap opts k else []

/-- The trace of `n` calls. -/
def calls (n : Nat) : List (Event (Option Nat) α) := (List.range n).flatMap (sc.part opts r n)

/-- What `n` calls end with where `fn` is called no more. -/
def ending (k : Nat) : Except Exn α :=
  match sc.transientAt k with
  | none => sc.outcomes k
  | some t => .error (.transient t)

/-- The trace law where `f` transient failures come first. -/
def Law (apiKey : Option String) (f : Nat) : Prop :=
  let events := (traced sc.world opts ⟨0, 0⟩ (some r) apiKey).1.map seen
  let out := resilientCall sc.world opts ⟨0, 0⟩ (some r) apiKey
  let maxAttempts := opts.maxAttempts.toNat
  if f < maxAttempts then
    events = sc.calls opts r (f + 1) ∧ out.1 = sc.outcomes f ∧
      out.2.stats.rotations = f / opts.rotateAfter.toNat
  else
    events = sc.calls opts r maxAttempts ∧
      (∃ t, sc.transientAt (maxAttempts - 1) = some t ∧ out.1 = .error (.transient t)) ∧
      out.2.stats.rotations = (maxAttempts - 1) / opts.rotateAfter.toNat

/-- The server gives no hint after failure `k`, and the power of the schedule is no float. -/
def Overflows (k : Nat) : Prop :=
  (∀ t, sc.transientAt k = some t → t.retryAfterS.any (0 < ·) = false) ∧
    floatBound ≤ |opts.backoff.factor ^ k|

end Script

/-! ## How many calls -/

theorem count_seen {σ : Type} (events : List (Event (Call σ) α)) :
    (events.map seen).countP Event.isCall = events.countP Event.isCall := by
  rw [List.countP_map]
  congr 1
  funext e
  cases e <;> rfl

theorem count_gap (sc : Script α) (opts : Options) (k : Nat) :
    (sc.gap opts k).countP Event.isCall = 0 := by
  rw [List.countP_eq_zero]
  intro e he
  unfold Script.gap at he
  simp only [List.mem_append, List.mem_cons] at he
  rcases he with he | rfl | he
  · split at he
    · rw [List.mem_singleton.mp he]
      simp [Event.isCall]
    · simp at he
  · simp [Event.isCall]
  · split at he
    · split at he
      · rw [List.mem_singleton.mp he]
        simp [Event.isCall]
      · simp at he
    · simp at he

theorem count_calls (sc : Script α) (opts : Options) (r : KeyRotator) (n : Nat) :
    (sc.calls opts r n).countP Event.isCall = n := by
  have hpart : ∀ k, (sc.part opts r n k).countP Event.isCall = 1 := by
    intro k
    rw [Script.part, List.countP_append]
    split
    · rw [count_gap]
      rfl
    · rfl
  rw [Script.calls, List.countP_flatMap]
  simp [Function.comp_def, hpart]

/-! ## The lane -/

theorem turn_succ {ra : Nat} (hra : 0 < ra) (k : Nat) :
    (k % ra + 1 = ra ∧ (k + 1) % ra = 0 ∧ (k + 1) / ra = k / ra + 1) ∨
      (k % ra + 1 < ra ∧ (k + 1) % ra = k % ra + 1 ∧ (k + 1) / ra = k / ra) := by
  have hk := Nat.mod_add_div k ra
  rcases (Nat.succ_le_of_lt (Nat.mod_lt k hra)).eq_or_lt with heq | hlt
  · have hnext : 0 + ra * (k / ra + 1) = k + 1 := by
      rw [Nat.mul_succ]
      omega
    obtain ⟨hdiv, hmod⟩ := (Nat.div_mod_unique hra).mpr ⟨hnext, hra⟩
    exact .inl ⟨heq, hmod, hdiv⟩
  · have hnext : k % ra + 1 + ra * (k / ra) = k + 1 := by omega
    obtain ⟨hdiv, hmod⟩ := (Nat.div_mod_unique hra).mpr ⟨hnext, hlt⟩
    exact .inr ⟨hlt, hmod, hdiv⟩

theorem advance_lanes (r : KeyRotator) : r.advance.lanes = r.lanes := by
  unfold KeyRotator.advance
  split <;> rfl

theorem advance_idx {r : KeyRotator} {m : Nat} (h : r.idx = m % r.lanes.length) :
    r.advance.idx = (m + 1) % r.lanes.length := by
  have hpos := Nat.zero_lt_of_lt r.inRing
  by_cases hmany : 1 < r.lanes.length
  · have hnext : r.advance.idx = (r.idx + 1) % r.lanes.length := by simp [KeyRotator.advance, hmany]
    rw [hnext, h, Nat.mod_add_mod]
  · have hsame : r.advance = r := by simp [KeyRotator.advance, hmany]
    have hone : r.lanes.length = 1 := by omega
    rw [hsame, h, hone, Nat.mod_one, Nat.mod_one]

/-! ## One attempt -/

section

variable {sc : Script α} {opts : Options} {r : KeyRotator}

open Script

/-- Before call `k`, with `failures` counted since the last rotation. -/
structure Before (opts : Options) (r : KeyRotator) (k failures : Nat) (c : Call Moment) : Prop where
  rotator : ∃ r', c.rotator = some r' ∧ r'.lanes = r.lanes ∧ r'.idx = laneAt opts r k
  consecutive : c.consecutiveTransient = failures
  rotations : c.stats.rotations = k / opts.rotateAfter.toNat

theorem Before.lane {k failures : Nat} {c : Call Moment} (h : Before opts r k failures c) :
    c.rotator.map (·.idx) = some (laneAt opts r k) := by
  obtain ⟨r', hr', -, hidx⟩ := h.rotator
  rw [hr', Option.map_some, hidx]

/-- After failure `k` the rotator turns where `k + 1` is a multiple of `rotate_after`. -/
theorem rotate_spec (sc : Script α) {k : Nat} {c : Call Moment} (hra : 1 ≤ opts.rotateAfter)
    (h : Before opts r k (k % opts.rotateAfter.toNat + 1) c) :
    (turned opts c : List (Event (Call Moment) α)) =
        (if (k + 1) % opts.rotateAfter.toNat = 0 then [.rotated] else []) ∧
      Before opts r (k + 1) ((k + 1) % opts.rotateAfter.toNat) (rotate sc.world opts c) := by
  obtain ⟨⟨r', hr', hlanes, hidx⟩, hconsecutive, hrotations⟩ := h
  have hcast : (opts.rotateAfter.toNat : Int) = opts.rotateAfter := by omega
  rcases turn_succ (show 0 < opts.rotateAfter.toNat by omega) k with ⟨heq, hmod, hdiv⟩ | ⟨hlt, hmod, hdiv⟩
  · have hturns : opts.rotateAfter ≤ (c.consecutiveTransient : Int) := by omega
    refine ⟨by simp [turned, hr', hturns, hmod], ?_⟩
    simp only [rotate, hr', hturns, if_true]
    refine ⟨⟨_, rfl, (advance_lanes r').trans hlanes, ?_⟩, hmod.symm, ?_⟩
    · rw [laneAt, ← hlanes] at hidx
      rw [advance_idx hidx, laneAt, hdiv, hlanes, Nat.add_assoc]
    · rw [hdiv, ← hrotations]
  · have hstays : ¬ opts.rotateAfter ≤ (c.consecutiveTransient : Int) := by omega
    refine ⟨by simp [turned, hr', hstays, hmod], ?_⟩
    simp only [rotate, hr', hstays, if_false]
    exact ⟨⟨r', hr', hlanes, by rw [hidx, laneAt, laneAt, hdiv]⟩, by omega, by rw [hdiv, hrotations]⟩

theorem waitAt_of_transient {k : Nat} {t : TransientError} (ht : sc.transientAt k = some t) :
    sc.waitAt opts k = opts.backoff.delay (sc.uniform (k + 1)) k t.retryAfterS := by
  rw [waitAt, ht, Option.bind_some]

theorem pauseTraced_error {k : Nat} {t : TransientError} {c : Call Moment} {e : PyError}
    (hcalls : c.world.calls = k + 1) (ht : sc.transientAt k = some t)
    (he : sc.waitAt opts k = .error e) :
    pauseTraced sc.world opts k t c =
      (turned opts c, .error (.program e), rotate sc.world opts c) := by
  have hdelay : opts.backoff.delay (sc.world.uniform (rotate sc.world opts c).world) k t.retryAfterS =
      .error e := by
    rw [rotate_world, ← he, waitAt_of_transient ht, ← hcalls]
    rfl
  simp only [pauseTraced, hdelay]

theorem pauseTraced_ok {k : Nat} {t : TransientError} {c : Call Moment} {wait : ℚ}
    (hra : 1 ≤ opts.rotateAfter) (hquiet : ∀ i, sc.aborts i = false)
    (h : Before opts r k (k % opts.rotateAfter.toNat + 1) c) (hcalls : c.world.calls = k + 1)
    (ht : sc.transientAt k = some t) (hwait : sc.waitAt opts k = .ok wait) :
    ∃ events c', pauseTraced sc.world opts k t c = (events, .ok (), c') ∧
      events.map seen = sc.gap opts k ∧
        Before opts r (k + 1) ((k + 1) % opts.rotateAfter.toNat) c' ∧
      c'.world.calls = k + 1 := by
  obtain ⟨hturned, hnext⟩ := rotate_spec sc hra h
  have hdelay : opts.backoff.delay (sc.world.uniform (rotate sc.world opts c).world) k t.retryAfterS =
      .ok wait := by
    rw [rotate_world, ← hwait, waitAt_of_transient ht, ← hcalls]
    rfl
  have hcheck : sc.world.shouldAbort (rotate sc.world opts c).world =
      (false, { c.world with checks := c.world.checks + 1 }) := by
    rw [rotate_world, ← hquiet c.world.checks]
    rfl
  have hsleep : ∀ m, (if 0 < wait then sc.world.sleep wait m else .ok ()) = Except.ok () := fun m =>
    ite_self (Except.ok ())
  simp only [pauseTraced, hdelay, hcheck, Bool.false_eq_true, if_false, hsleep]
  refine ⟨_, _, rfl, ?_, ⟨hnext.rotator, hnext.consecutive, hnext.rotations⟩, hcalls⟩
  rw [hturned, gap, hwait, List.map_append]
  congr 1
  · split <;> rfl
  · by_cases hpos : 0 < wait <;> simp [hpos, seen, Event.map]

theorem world_shouldAbort (hquiet : ∀ i, sc.aborts i = false) (m : Moment) :
    sc.world.shouldAbort m = (false, ⟨m.calls, m.checks + 1⟩) := by
  rw [← hquiet m.checks]
  rfl

theorem world_fn (key : Option String) (m : Moment) :
    sc.world.fn key m = (sc.outcomes m.calls, ⟨m.calls + 1, m.checks⟩) := rfl

theorem attemptsTraced_last (left : Nat) {k : Nat} {c : Call Moment}
    (hquiet : ∀ i, sc.aborts i = false) (h : Before opts r k (k % opts.rotateAfter.toNat) c)
    (hcalls : c.world.calls = k) (hend : sc.transientAt k = none ∨ left = 0) :
    (attemptsTraced sc.world opts (left + 1) k c).1.map seen =
        [.checked false, .called (some (laneAt opts r k)) (sc.outcomes k)] ∧
      (attemptsTraced sc.world opts (left + 1) k c).2.1 = sc.ending k ∧
      (attemptsTraced sc.world opts (left + 1) k c).2.2.stats.rotations =
        k / opts.rotateAfter.toNat := by
  have hlane := h.lane
  simp only [attemptsTraced, world_shouldAbort hquiet, world_fn, hcalls, Bool.false_eq_true, if_false,
    ending, transientAt] at hend ⊢
  cases hresult : sc.outcomes k with
  | ok v => exact ⟨by simp [seen, Event.map, hlane], rfl, h.rotations⟩
  | error e =>
    simp only [hresult] at hend ⊢
    cases ht : classifyExn e with
    | none => exact ⟨by simp [seen, Event.map, hlane], rfl, h.rotations⟩
    | some t =>
      obtain rfl : left = 0 := by simpa [ht] using hend
      simp only [if_true, attempts, Call.failed]
      exact ⟨by simp [seen, Event.map, hlane], trivial, h.rotations⟩

def opening (k : Nat) (c : Call Moment) (result : Except Exn α) : List (Event (Call Moment) α) :=
  [.checked false, .called { c with world := ⟨k, c.world.checks + 1⟩ } result]

def failedAt (k : Nat) (c : Call Moment) (t : TransientError) : Call Moment :=
  Call.failed
    { c with world := ⟨k + 1, c.world.checks + 1⟩, stats := { c.stats with attempts := k + 1 } } t

theorem Before.failed {k : Nat} {c : Call Moment}
    (h : Before opts r k (k % opts.rotateAfter.toNat) c) (t : TransientError) :
    Before opts r k (k % opts.rotateAfter.toNat + 1) (failedAt k c t) :=
  ⟨h.rotator, congrArg (· + 1) h.consecutive, h.rotations⟩

theorem attemptsTraced_failed {left k : Nat} {c : Call Moment} {t : TransientError}
    (hquiet : ∀ i, sc.aborts i = false) (hcalls : c.world.calls = k)
    (ht : sc.transientAt k = some t) (hleft : left ≠ 0) :
    attemptsTraced sc.world opts (left + 1) k c =
      match pauseTraced sc.world opts k t (failedAt k c t) with
      | (events, .error e, c') => (opening k c (sc.outcomes k) ++ events, .error e, c')
      | (events, .ok (), c') =>
        let rest := attemptsTraced sc.world opts left (k + 1) c'
        (opening k c (sc.outcomes k) ++ events ++ rest.1, rest.2) := by
  obtain ⟨e, he, hclassify⟩ : ∃ e, sc.outcomes k = .error e ∧ classifyExn e = some t := by
    unfold transientAt at ht
    split at ht
    · cases ht
    · next e he => exact ⟨e, he, ht⟩
  simp only [attemptsTraced, world_shouldAbort hquiet, world_fn, hcalls, Bool.false_eq_true, if_false,
    he, hclassify, hleft, opening, failedAt]
  rcases pauseTraced sc.world opts k t _ with ⟨events, ⟨x⟩ | ⟨⟩, c'⟩ <;> rfl

/-! ## All attempts -/

theorem attemptsTraced_calls {n left k : Nat} {c : Call Moment} (hra : 1 ≤ opts.rotateAfter)
    (hquiet : ∀ i, sc.aborts i = false) (h : Before opts r k (k % opts.rotateAfter.toNat) c)
    (hcalls : c.world.calls = k) (hk : k < n) (hn : n ≤ k + left)
    (hwaits : ∀ i, k ≤ i → i + 1 < n →
      ∃ t wait, sc.transientAt i = some t ∧ sc.waitAt opts i = .ok wait)
    (hend : sc.transientAt (n - 1) = none ∨ n = k + left) :
    (attemptsTraced sc.world opts left k c).1.map seen =
        (List.range' k (n - k)).flatMap (sc.part opts r n) ∧
      (attemptsTraced sc.world opts left k c).2.1 = sc.ending (n - 1) ∧
      (attemptsTraced sc.world opts left k c).2.2.stats.rotations =
        (n - 1) / opts.rotateAfter.toNat := by
  induction left generalizing k c with
  | zero => omega
  | succ left ih =>
    by_cases hlast : k + 1 = n
    · subst hlast
      have hspec := attemptsTraced_last left hquiet h hcalls (hend.imp id (by omega))
      rw [hspec.1, Nat.add_sub_cancel_left]
      exact ⟨by simp [part], hspec.2⟩
    · obtain ⟨t, wait, ht, hwait⟩ := hwaits k le_rfl (by omega)
      obtain ⟨events, c', hpause, hevents, hbefore, hcalls'⟩ :=
        pauseTraced_ok hra hquiet (h.failed t) rfl ht hwait
      obtain ⟨htrace, hresult, hrotations⟩ := ih hbefore hcalls' (by omega) (by omega)
        (fun i hi => hwaits i (by omega)) (hend.imp id (by omega))
      rw [attemptsTraced_failed hquiet hcalls ht (by omega), hpause]
      refine ⟨?_, hresult, hrotations⟩
      have hrange : List.range' k (n - k) = k :: List.range' (k + 1) (n - (k + 1)) := by
        rw [show n - k = n - (k + 1) + 1 by omega, List.range'_succ]
      have hopening : (opening k c (sc.outcomes k)).map seen =
          [.checked false, .called (some (laneAt opts r k)) (sc.outcomes k)] := by
        simp [opening, seen, Event.map, h.lane]
      rw [hrange, List.flatMap_cons, ← htrace, List.map_append, List.map_append, hevents, hopening, part,
        if_pos (by omega)]

theorem attemptsTraced_short {n left k : Nat} {c : Call Moment} (hra : 1 ≤ opts.rotateAfter)
    (hquiet : ∀ i, sc.aborts i = false) (h : Before opts r k (k % opts.rotateAfter.toNat) c)
    (hcalls : c.world.calls = k) (hn : n ≤ k + left)
    (htransient : ∀ i, k ≤ i → i + 1 < n → ∃ t, sc.transientAt i = some t)
    (hbad : ∃ i, k ≤ i ∧ i + 1 < n ∧ ∃ e, sc.waitAt opts i = .error e) :
    (attemptsTraced sc.world opts left k c).1.countP Event.isCall < n - k := by
  -- Where a wait overflows, `fn` is called less than `n` times.
  induction left generalizing k c with
  | zero => omega
  | succ left ih =>
    obtain ⟨i, hki, hin, e, he⟩ := hbad
    obtain ⟨t, ht⟩ := htransient k le_rfl (by omega)
    have hopening : (opening k c (sc.outcomes k)).countP Event.isCall = 1 := rfl
    rw [attemptsTraced_failed hquiet hcalls ht (by omega)]
    cases hwait : sc.waitAt opts k with
    | error e =>
      rw [pauseTraced_error rfl ht hwait]
      have hturned : (turned opts (failedAt k c t) : List (Event (Call Moment) α)).countP Event.isCall = 0 := by
        unfold turned
        split <;> rfl
      simp only [List.countP_append, hopening, hturned]
      omega
    | ok wait =>
      obtain ⟨events, c', hpause, hevents, hbefore, hcalls'⟩ :=
        pauseTraced_ok hra hquiet (h.failed t) rfl ht hwait
      have hlater : k + 1 ≤ i := by
        rcases hki.eq_or_lt with rfl | hlt
        · simp [hwait] at he
        · exact hlt
      have hrest := ih hbefore hcalls' (by omega) (fun j hj => htransient j (by omega))
        ⟨i, hlater, hin, e, he⟩
      have hgap : events.countP Event.isCall = 0 := by rw [← count_seen, hevents, count_gap]
      rw [hpause]
      simp only [List.countP_append, hopening, hgap]
      omega

/-! ## The law -/

theorem waitAt_error_iff {k : Nat} :
    (∃ e, sc.waitAt opts k = .error e) ↔ sc.Overflows opts k := by
  unfold Script.waitAt BackoffPolicy.delay floatPow Overflows
  have hhint : (((sc.transientAt k).bind (·.retryAfterS)).any (0 < ·) = false) ↔
      ∀ t, sc.transientAt k = some t → t.retryAfterS.any (0 < ·) = false := by
    cases sc.transientAt k <;> simp
  by_cases hpositive : ((sc.transientAt k).bind (·.retryAfterS)).any (0 < ·) = true
  · rw [if_pos hpositive, ← hhint, hpositive]
    simp
  · rw [if_neg hpositive, ← hhint, Bool.eq_false_iff, Int.toNat_natCast]
    by_cases hbound : floatBound ≤ |opts.backoff.factor ^ k|
    · rw [if_pos hbound]
      exact iff_of_true ⟨_, rfl⟩ ⟨hpositive, hbound⟩
    · rw [if_neg hbound]
      refine iff_of_false ?_ fun h => hbound h.2
      rintro ⟨e, he⟩
      cases he

theorem enter_before (sc : Script α) (opts : Options) (r : KeyRotator) (apiKey : Option String) :
    Before opts r 0 (0 % opts.rotateAfter.toNat) (enter sc.world ⟨0, 0⟩ (some r) apiKey) :=
  ⟨⟨r, rfl, rfl, by simp [laneAt, Nat.mod_eq_of_lt r.inRing]⟩, by simp [enter], by simp [enter]⟩

/-- The number of calls where `f` transient failures come first. -/
def tries (opts : Options) (f : Nat) : Nat := min (f + 1) opts.maxAttempts.toNat

theorem traced_eq {apiKey : Option String} (hmax : 1 ≤ opts.maxAttempts) :
    traced sc.world opts ⟨0, 0⟩ (some r) apiKey = attemptsTraced sc.world opts
      opts.maxAttempts.toNat 0 (enter sc.world ⟨0, 0⟩ (some r) apiKey) := by
  simp only [traced, if_neg (show ¬ opts.maxAttempts < 1 by omega)]

theorem tries_eq (opts : Options) (f : Nat) :
    tries opts f = if f < opts.maxAttempts.toNat then f + 1 else opts.maxAttempts.toNat := by
  unfold tries
  split <;> omega

theorem tries_le (opts : Options) (f : Nat) : tries opts f ≤ 0 + opts.maxAttempts.toNat := by
  unfold tries
  omega

theorem not_law_of_overflows {apiKey : Option String} {f i : Nat} (hmax : 1 ≤ opts.maxAttempts)
    (hra : 1 ≤ opts.rotateAfter) (hquiet : ∀ i, sc.aborts i = false)
    (hfailures : ∀ i < f, (sc.transientAt i).isSome) (hi : i < f)
    (himax : (i : Int) + 1 < opts.maxAttempts) (hbad : sc.Overflows opts i) :
    ¬ sc.Law opts r apiKey f := by
  have hsome : ∀ j, 0 ≤ j → j + 1 < tries opts f → ∃ t, sc.transientAt j = some t := by
    intro j _ hj
    unfold tries at hj
    exact Option.isSome_iff_exists.mp (hfailures j (by omega))
  have hearly : i + 1 < tries opts f := by
    unfold tries
    omega
  have hshort := attemptsTraced_short hra hquiet (enter_before sc opts r apiKey) rfl
    (tries_le opts f) hsome ⟨i, Nat.zero_le i, hearly, waitAt_error_iff.mpr hbad⟩
  intro hlaw
  simp only [Script.Law, ← traced_snd, traced_eq hmax] at hlaw
  rw [tries_eq] at hshort
  split at hlaw
  · next hf =>
    rw [if_pos hf, ← count_seen, hlaw.1, count_calls] at hshort
    omega
  · next hf =>
    rw [if_neg hf, ← count_seen, hlaw.1, count_calls] at hshort
    omega

/-- **When the trace law holds.** An abort test that answers true ends the call in any case. -/
theorem law_iff (sc : Script α) (opts : Options) (r : KeyRotator) (apiKey : Option String) {f : Nat}
    (hmax : 1 ≤ opts.maxAttempts) (hra : 1 ≤ opts.rotateAfter)
    (hfailures : ∀ i < f, (sc.transientAt i).isSome)
    (hend : (f : Int) < opts.maxAttempts → sc.transientAt f = none) :
    Stops (traced sc.world opts ⟨0, 0⟩ (some r) apiKey).1
        (resilientCall sc.world opts ⟨0, 0⟩ (some r) apiKey).1 ∧
      ((∀ i, sc.aborts i = false) →
        (sc.Law opts r apiKey f ↔ ∀ i < f, (i : Int) + 1 < opts.maxAttempts →
          ¬ sc.Overflows opts i)) := by
  refine ⟨traced_stops sc.world opts _ _ _, fun hquiet => ⟨fun hlaw i hi himax hbad => ?_, fun hgood => ?_⟩⟩
  · exact not_law_of_overflows hmax hra hquiet hfailures hi himax hbad hlaw
  -- No wait overflows, so every gap is of the length that the policy says.
  have hwaits : ∀ i, 0 ≤ i → i + 1 < tries opts f →
      ∃ t wait, sc.transientAt i = some t ∧ sc.waitAt opts i = .ok wait := by
    intro i _ hi
    unfold tries at hi
    obtain ⟨t, ht⟩ := Option.isSome_iff_exists.mp (hfailures i (by omega))
    cases hwait : sc.waitAt opts i with
    | error e => exact absurd (waitAt_error_iff.mp ⟨e, hwait⟩) (hgood i (by omega) (by omega))
    | ok wait => exact ⟨t, wait, ht, rfl⟩
  have hpos : 0 < tries opts f := by
    unfold tries
    omega
  have hlast : sc.transientAt (tries opts f - 1) = none ∨ tries opts f = 0 + opts.maxAttempts.toNat := by
    rw [tries_eq]
    split
    · exact .inl (hend (by omega))
    · exact .inr (by omega)
  obtain ⟨htrace, hresult, hrotations⟩ := attemptsTraced_calls hra hquiet
    (enter_before sc opts r apiKey) rfl hpos (tries_le opts f) hwaits hlast
  rw [Nat.sub_zero, ← List.range_eq_range'] at htrace
  simp only [Script.Law, ← traced_snd, traced_eq hmax]
  rw [tries_eq] at htrace hresult hrotations
  split
  · -- The failures end in time, and the last call gives the result.
    next hf =>
    rw [if_pos hf] at htrace hresult hrotations
    refine ⟨htrace, hresult.trans ?_, hrotations⟩
    rw [Nat.add_sub_cancel, ending, hend (by omega)]
  · -- The attempts are spent, and the last transient error is raised.
    next hf =>
    rw [if_neg hf] at htrace hresult hrotations
    obtain ⟨t, ht⟩ :=
      Option.isSome_iff_exists.mp (hfailures (opts.maxAttempts.toNat - 1) (by omega))
    refine ⟨htrace, ⟨t, ht, hresult.trans ?_⟩, hrotations⟩
    rw [ending, ht]

end

/-! ## A server that stays overloaded -/

def ring : KeyRotator := ⟨["max-plan-a", "max-plan-b"], 0, by decide, by decide⟩

def backoff : BackoffPolicy := ⟨1, 2, 60, true⟩

def refusal (hint : Option ℚ) : Except Exn Unit :=
  .error (.transient ⟨"overloaded", some 529, none, hint⟩)

/-- A server that gives no hint. -/
def refusing : Script Unit := ⟨fun _ => refusal none, fun _ => false, fun _ _ high => high,
    fun _ _ => none⟩

def recovering : Script Unit :=
  { refusing with outcomes := fun k => if k < 2 then refusal (some 5) else .ok () }

theorem recovering_transient {i : Nat} (hi : i < 2) :
    recovering.transientAt i = some ⟨"overloaded", some 529, none, some 5⟩ := by
  have houtcome : recovering.outcomes i = refusal (some 5) := if_pos hi
  simp [Script.transientAt, houtcome, refusal, classifyExn]

theorem recovering_law : recovering.Law ⟨backoff, 6, 2⟩ ring none 2 := by
  refine ((law_iff recovering ⟨backoff, 6, 2⟩ ring none (by decide) (by decide) ?_ fun _ => rfl).2
    fun _ => rfl).mpr ?_
  · intro i hi
    simp [recovering_transient hi]
  · rintro i hi - ⟨hnone, -⟩
    have hhint := hnone ⟨"overloaded", some 529, none, some 5⟩ (recovering_transient hi)
    simp at hhint

/-- `2.0 ** 1024` raises, so the wait after 1025 refusals does. -/
theorem refusing_not_law : ¬ refusing.Law ⟨backoff, 1100, 2⟩ ring none 1100 := by
  refine not_law_of_overflows (i := 1024) (by decide) (by decide) (fun _ => rfl) (fun _ _ => rfl)
    (by decide) (by decide) ⟨?_, ?_⟩
  · intro t ht
    obtain rfl := Option.some.inj ht
    rfl
  · have hpower : |backoff.factor ^ 1024| = (2 : ℚ) ^ 1024 := abs_of_nonneg (by simp [backoff])
    rw [hpower, floatBound]
    exact sub_le_self _ (by positivity)

end Swarm.Resilience
