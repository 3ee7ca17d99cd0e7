import Mathlib.Logic.Function.Iterate
import Swarm.Resilience.Law

/-!
# Which key a call is given

The lane that the stats name and the key that goes with a call, where every lane has one secret or
none.
-/

namespace Swarm.Resilience

variable {α : Type}

/-! ## A world of fixed secrets -/

/-- The written world with the secrets `resolve`, and with a sleep that may raise. -/
def Script.keyed (sc : Script α) (resolve : String → Option String)
    (sleep : Nat → ℚ → Except PyError Unit) : World Moment α :=
  { sc.world with
    sleep := fun wait m => sleep m.calls wait
    resolve := fun _ => resolve }

/-- How many failures there are to a rotation. -/
def period (opts : Options) : Nat := max 1 opts.rotateAfter.toNat

theorem period_pos (opts : Options) : 0 < period opts := by
  unfold period
  omega

/-- The rotator after `n` rotations. -/
def KeyRotator.after (r : KeyRotator) (n : Nat) : KeyRotator := KeyRotator.advance^[n] r

/-- The lane after `n` rotations. -/
def KeyRotator.lane (r : KeyRotator) (n : Nat) : String := (r.after n).current

theorem KeyRotator.after_succ (r : KeyRotator) (n : Nat) : r.after (n + 1) = (r.after n).advance :=
  Function.iterate_succ_apply' _ _ _

/-- The key after `n` rotations: a lane without a secret leaves the one before in place. -/
def keyAfter (resolve : String → Option String) (r : KeyRotator) (apiKey : Option String) :
    Nat → Option String
  | 0 => apiKey.or (resolve (r.lane 0))
  | n + 1 => (resolve (r.lane (n + 1))).or (keyAfter resolve r apiKey n)

section

variable (sc : Script α) (opts : Options) (sleep : Nat → ℚ → Except PyError Unit)

/-- Failure `i` is transient, and nothing ends the wait after it. -/
def Passes (i : Nat) : Prop :=
  (sc.transientAt i).isSome ∧ sc.aborts (2 * i + 1) = false ∧
    ∃ wait, sc.waitAt opts i = .ok wait ∧ (0 < wait → sleep (i + 1) wait = .ok ())

/-- Of the calls from `k` on, call `j` takes place. -/
def ReachedFrom (k j : Nat) : Prop :=
  k ≤ j ∧ sc.aborts (2 * j) = false ∧ ∀ i, k ≤ i → i < j → sc.aborts (2 * i) = false ∧ Passes sc opts sleep i

/-- Call `j` takes place. -/
def Reached (j : Nat) : Prop := (j : Int) < opts.maxAttempts ∧ ReachedFrom sc opts sleep 0 j

end

/-! ## One attempt -/

/-- Between two calls, `k` of them behind and `failures` counted since the last rotation. -/
structure Keyed (resolve : String → Option String) (opts : Options) (r : KeyRotator)
    (apiKey : Option String) (k failures : Nat) (c : Call Moment) : Prop where
  rotator : c.rotator = some (r.after (k / period opts))
  key : c.apiKey = keyAfter resolve r apiKey (k / period opts)
  lane : c.stats.lastLane = some (r.lane (k / period opts))
  consecutive : c.consecutiveTransient = failures

section

variable {sc : Script α} {opts : Options} {resolve : String → Option String}
  {sleep : Nat → ℚ → Except PyError Unit} {r : KeyRotator} {apiKey : Option String}

theorem enter_keyed (sc : Script α) (opts : Options) (resolve : String → Option String)
    (sleep : Nat → ℚ → Except PyError Unit) (r : KeyRotator) (apiKey : Option String) :
    Keyed resolve opts r apiKey 0 (0 % period opts)
      (enter (sc.keyed resolve sleep) ⟨0, 0⟩ (some r) apiKey) := by
  constructor <;> simp [enter, keyAfter, KeyRotator.lane, KeyRotator.after, Script.keyed]

theorem rotate_keyed {k : Nat} {c : Call Moment}
    (h : Keyed resolve opts r apiKey k (k % period opts + 1) c) :
    Keyed resolve opts r apiKey (k + 1) ((k + 1) % period opts) (rotate (sc.keyed resolve sleep) opts c) := by
  obtain ⟨hrotator, hkey, hlane, hconsecutive⟩ := h
  have hdue : opts.rotateAfter ≤ (c.consecutiveTransient : Int) ↔ period opts ≤ k % period opts + 1 := by
    rw [hconsecutive]
    unfold period
    omega
  rcases turn_succ (period_pos opts) k with ⟨heq, hmod, hdiv⟩ | ⟨hlt, hmod, hdiv⟩
  · simp only [rotate, hrotator, if_pos (hdue.mpr heq.ge)]
    refine ⟨?_, ?_, ?_, hmod.symm⟩
    · rw [hdiv, KeyRotator.after_succ]
    · rw [hdiv, hkey, keyAfter, KeyRotator.lane, KeyRotator.after_succ]
      rfl
    · rw [hdiv, KeyRotator.lane, KeyRotator.after_succ]
  · simp only [rotate, hrotator, if_neg (mt hdue.mp hlt.not_ge)]
    exact ⟨by rw [hdiv, hrotator], by rw [hdiv, hkey], by rw [hdiv, hlane], by rw [hmod, hconsecutive]⟩

variable (sleep) in
theorem pauseTraced_keyed {k : Nat} {t : TransientError} {c : Call Moment}
    (h : Keyed resolve opts r apiKey k (k % period opts + 1) c)
    (hworld : c.world = ⟨k + 1, 2 * k + 1⟩) (ht : sc.transientAt k = some t) :
    (Passes sc opts sleep k ∧ ∃ gap c',
      pauseTraced (sc.keyed resolve sleep) opts k t c = (gap, .ok (), c') ∧
      c'.world = ⟨k + 1, 2 * (k + 1)⟩ ∧
        Keyed resolve opts r apiKey (k + 1) ((k + 1) % period opts) c') ∨
    (¬ Passes sc opts sleep k ∧ ∃ gap e c',
      pauseTraced (sc.keyed resolve sleep) opts k t c = (gap, .error e, c')) := by
  have hnext : Keyed resolve opts r apiKey (k + 1) ((k + 1) % period opts)
      (rotate (sc.keyed resolve sleep) opts c) :=
    rotate_keyed h
  have hthere : (rotate (sc.keyed resolve sleep) opts c).world = ⟨k + 1, 2 * k + 1⟩ := by
    rw [rotate_world, hworld]
  have hdelay : opts.backoff.delay
      ((sc.keyed resolve sleep).uniform (rotate (sc.keyed resolve sleep) opts c).world) k t.retryAfterS =
        sc.waitAt opts k := by
    rw [hthere, waitAt_of_transient ht]
    rfl
  have hcheck : (sc.keyed resolve sleep).shouldAbort (rotate (sc.keyed resolve sleep) opts c).world =
      (sc.aborts (2 * k + 1), ⟨k + 1, 2 * (k + 1)⟩) := by
    rw [hthere]
    rfl
  have hpasses : Passes sc opts sleep k ↔ sc.aborts (2 * k + 1) = false ∧
      ∃ wait, sc.waitAt opts k = .ok wait ∧ (0 < wait → sleep (k + 1) wait = .ok ()) := by
    simp [Passes, ht]
  simp only [pauseTraced, hdelay, hcheck, hpasses]
  -- A wait that overflows, an abort and a sleep that raises end the call.
  cases hwait : sc.waitAt opts k with
  | error e => exact .inr ⟨by simp, _, _, _, rfl⟩
  | ok wait =>
    cases habort : sc.aborts (2 * k + 1) with
    | true => exact .inr ⟨by simp, _, _, _, rfl⟩
    | false =>
      have hsleep : (if 0 < wait then (sc.keyed resolve sleep).sleep wait ⟨k + 1, 2 * (k + 1)⟩ else .ok ()) =
          if 0 < wait then sleep (k + 1) wait else .ok () := rfl
      simp only [Bool.false_eq_true, if_false, hsleep, true_and, Except.ok.injEq, exists_eq_left']
      by_cases hpos : 0 < wait
      · simp only [hpos, if_true, true_imp_iff]
        cases hslept : sleep (k + 1) wait with
        | error e => exact .inr ⟨by simp, _, _, _, rfl⟩
        | ok u =>
          exact .inl ⟨rfl, _, _, rfl, rfl, hnext.rotator, hnext.key, hnext.lane, hnext.consecutive⟩
      · simp only [if_neg hpos]
        exact .inl ⟨fun h => absurd h hpos, _, _, rfl, rfl, hnext.rotator, hnext.key, hnext.lane, hnext.consecutive⟩

variable (sleep) in
theorem attemptsTraced_keyed (left : Nat) {k : Nat} {c : Call Moment}
    (h : Keyed resolve opts r apiKey k (k % period opts) c) (hworld : c.world = ⟨k, 2 * k⟩)
    (hquiet : sc.aborts (2 * k) = false) :
    ∃ before result gap, before.stats.lastLane = c.stats.lastLane ∧ before.apiKey = c.apiKey ∧
      (∀ b res, .called b res ∉ gap) ∧
      (((left = 0 ∨ ¬ Passes sc opts sleep k) ∧
          (attemptsTraced (sc.keyed resolve sleep) opts (left + 1) k c).1 =
            .checked false :: .called before result :: gap) ∨
        (left ≠ 0 ∧ Passes sc opts sleep k ∧ ∃ c', c'.world = ⟨k + 1, 2 * (k + 1)⟩ ∧
          Keyed resolve opts r apiKey (k + 1) ((k + 1) % period opts) c' ∧
          (attemptsTraced (sc.keyed resolve sleep) opts (left + 1) k c).1 =
            .checked false :: .called before result ::
              (gap ++ (attemptsTraced (sc.keyed resolve sleep) opts left (k + 1) c').1))) := by
  have hcheck : (sc.keyed resolve sleep).shouldAbort c.world = (false, ⟨k, 2 * k + 1⟩) := by
    rw [hworld, ← hquiet]
    rfl
  have hfn : (sc.keyed resolve sleep).fn c.apiKey ⟨k, 2 * k + 1⟩ = (sc.outcomes k, ⟨k + 1, 2 * k + 1⟩) := rfl
  refine ⟨{ c with world := ⟨k, 2 * k + 1⟩ }, sc.outcomes k, ?_⟩
  simp only [attemptsTraced, hcheck, hfn, Bool.false_eq_true, if_false, true_and]
  -- A value or an exception that is not transient is the last call.
  cases hresult : sc.outcomes k with
  | ok v =>
    have hnot : ¬ Passes sc opts sleep k := by simp [Passes, Script.transientAt, hresult]
    exact ⟨[], by simp, .inl ⟨.inr hnot, rfl⟩⟩
  | error e =>
    cases ht : classifyExn e with
    | none =>
      have hnot : ¬ Passes sc opts sleep k := by simp [Passes, Script.transientAt, hresult, ht]
      exact ⟨[], by simp, .inl ⟨.inr hnot, by simp only [ht]⟩⟩
    | some t =>
      simp only [ht]
      by_cases hleft : left = 0
      · exact ⟨[], by simp, .inl ⟨.inl hleft, by rw [if_pos hleft]⟩⟩
      have htransient : sc.transientAt k = some t := by simp [Script.transientAt, hresult, ht]
      have hfailed : Keyed resolve opts r apiKey k (k % period opts + 1)
          (Call.failed { c with world := ⟨k + 1, 2 * k + 1⟩, stats := { c.stats with attempts := k + 1 } } t) :=
        ⟨h.rotator, h.key, h.lane, congrArg (· + 1) h.consecutive⟩
      -- The failure is counted, then the pause rotates and waits.
      have hstep := pauseTraced_keyed sleep hfailed rfl htransient
      have hsilent := pauseTraced_no_call (sc.keyed resolve sleep) opts k t
        (Call.failed { c with world := ⟨k + 1, 2 * k + 1⟩, stats := { c.stats with attempts := k + 1 } } t)
      simp only [if_neg hleft]
      rcases hstep with ⟨hpasses, gap, c', hpause, hworld', hkeyed⟩ | ⟨hnot, gap, x, c', hpause⟩ <;>
        rw [hpause] at hsilent ⊢
      · exact ⟨gap, hsilent, .inr ⟨hleft, hpasses, c', hworld', hkeyed, rfl⟩⟩
      · exact ⟨gap, hsilent, .inl ⟨.inr hnot, rfl⟩⟩

/-! ## All attempts -/

theorem reachedFrom_self {k : Nat} (hquiet : sc.aborts (2 * k) = false) :
    ReachedFrom sc opts sleep k k :=
  ⟨le_rfl, hquiet, fun i _ _ => by omega⟩

theorem ReachedFrom.quiet {k j : Nat} (h : ReachedFrom sc opts sleep k j) :
    sc.aborts (2 * k) = false := by
  obtain ⟨hk, hquiet, hearlier⟩ := h
  rcases hk.eq_or_lt with rfl | hlt
  · exact hquiet
  · exact (hearlier k le_rfl hlt).1

theorem reachedFrom_iff {k j : Nat} (hquiet : sc.aborts (2 * k) = false) :
    ReachedFrom sc opts sleep k j ↔
      j = k ∨ Passes sc opts sleep k ∧ ReachedFrom sc opts sleep (k + 1) j := by
  -- Past the first call, the others are reached where its failure passes.
  constructor
  · rintro ⟨hk, hj, hearlier⟩
    rcases hk.eq_or_lt with rfl | hlt
    · exact .inl rfl
    · exact .inr ⟨(hearlier k le_rfl hlt).2, hlt, hj, fun i hi => hearlier i (by omega)⟩
  · rintro (rfl | ⟨hpasses, hk, hj, hearlier⟩)
    · exact reachedFrom_self hquiet
    · refine ⟨by omega, hj, fun i hi hij => ?_⟩
      rcases hi.eq_or_lt with rfl | hlt
      · exact ⟨hquiet, hpasses⟩
      · exact hearlier i hlt hij

theorem calls_cons {γ : Type} {Q : γ → Prop} {before : γ} {result : Except Exn α}
    {gap rest : List (Event γ α)} (hsilent : ∀ b res, .called b res ∉ gap) :
    (∀ b res, .called b res ∈ .checked false :: .called before result :: (gap ++ rest) → Q b) ↔
      Q before ∧ ∀ b res, .called b res ∈ rest → Q b := by
  constructor
  · intro h
    exact ⟨h before result (by simp), fun b res hrest => h b res (by simp [hrest])⟩
  · rintro ⟨hfirst, hlater⟩ b res hmem
    simp only [List.mem_cons, List.mem_append, hsilent, false_or, reduceCtorEq, Event.called.injEq] at hmem
    rcases hmem with ⟨rfl, -⟩ | hrest
    · exact hfirst
    · exact hlater b res hrest

theorem attemptsTraced_all {P : Option String → Option String → Prop} {left k : Nat}
    {c : Call Moment} (h : Keyed resolve opts r apiKey k (k % period opts) c)
    (hworld : c.world = ⟨k, 2 * k⟩) :
    (∀ before result, .called before result ∈ (attemptsTraced (sc.keyed resolve sleep) opts left k c).1 →
        P before.stats.lastLane before.apiKey) ↔
      ∀ j, j < k + left → ReachedFrom sc opts sleep k j →
        P (some (r.lane (j / period opts))) (keyAfter resolve r apiKey (j / period opts)) := by
  induction left generalizing k c with
  | zero =>
    refine iff_of_true (by simp [attemptsTraced]) fun j hj hreached => ?_
    have := hreached.1
    omega
  | succ left ih =>
    cases habort : sc.aborts (2 * k) with
    | true =>
      have hcheck : (sc.keyed resolve sleep).shouldAbort c.world = (true, ⟨k, 2 * k + 1⟩) := by
        rw [hworld, ← habort]
        rfl
      refine iff_of_true (by simp [attemptsTraced, hcheck]) fun j hj hreached => ?_
      rw [hreached.quiet] at habort
      cases habort
    | false =>
      obtain ⟨before, result, gap, hlane, hkey, hsilent, hrest⟩ :=
        attemptsTraced_keyed sleep left h hworld habort
      have hfirst : P before.stats.lastLane before.apiKey ↔
          P (some (r.lane (k / period opts))) (keyAfter resolve r apiKey (k / period opts)) := by
        rw [hlane, hkey, h.lane, h.key]
      simp only [reachedFrom_iff habort]
      rcases hrest with ⟨hlast, hevents⟩ | ⟨hleft, hpasses, c', hworld', hkeyed, hevents⟩
      · rw [hevents, ← List.append_nil gap, calls_cons (Q := fun b => P b.stats.lastLane b.apiKey) hsilent, hfirst]
        constructor
        · rintro ⟨hcall, -⟩ j hj (rfl | ⟨hpasses, hreached⟩)
          · exact hcall
          · have hlater := hreached.1
            have hleft := hlast.resolve_right (not_not.mpr hpasses)
            omega
        · intro hall
          exact ⟨hall k (by omega) (.inl rfl), by simp⟩
      · rw [hevents, calls_cons (Q := fun b => P b.stats.lastLane b.apiKey) hsilent, hfirst, ih hkeyed hworld']
        constructor
        · rintro ⟨hcall, hrest⟩ j hj (rfl | ⟨-, hreached⟩)
          · exact hcall
          · exact hrest j (by omega) hreached
        · intro hall
          exact ⟨hall k (by omega) (.inl rfl), fun j hj hreached => hall j (by omega) (.inr ⟨hpasses, hreached⟩)⟩

/-! ## The key of the lane -/

theorem keyAfter_none {n : Nat} :
    keyAfter resolve r none n = none ↔ ∀ j ≤ n, resolve (r.lane j) = none := by
  induction n with
  | zero => simp [keyAfter]
  | succ n ih => simp [keyAfter, ih, Nat.le_succ_iff, or_imp, forall_and, and_comm]

theorem keyAfter_resolved {n : Nat} :
    keyAfter resolve r none n = resolve (r.lane n) ↔
      (resolve (r.lane n) = none → ∀ j < n, resolve (r.lane j) = none) := by
  cases hsecret : resolve (r.lane n) with
  | none =>
    rw [keyAfter_none]
    constructor
    · intro hall _ j hj
      exact hall j hj.le
    · intro hearlier j hj
      rcases hj.eq_or_lt with rfl | hlt
      · exact hsecret
      · exact hearlier rfl j hlt
  | some cred =>
    refine iff_of_true ?_ (by simp)
    cases n <;> simp [keyAfter, hsecret]

theorem keyAfter_explicit {key : String} {n : Nat} :
    (∀ m ≤ n, keyAfter resolve r (some key) m = some key) ↔
      ∀ m ≤ n, 0 < m → ∀ cred, resolve (r.lane m) = some cred → cred = key := by
  -- With a key of the caller, which the first lane leaves alone and every later one replaces.
  induction n with
  | zero => simp [keyAfter]
  | succ n ih =>
    simp only [Nat.le_succ_iff, or_imp, forall_and, forall_eq, ih, Nat.succ_pos, true_imp_iff]
    refine and_congr_right fun hearlier => ?_
    rw [keyAfter, (ih.mpr hearlier) n le_rfl]
    cases resolve (r.lane (n + 1)) <;> simp

/-! ## The law -/

/-- `n` rotations come before some call. -/
def Turned (sc : Script α) (opts : Options) (sleep : Nat → ℚ → Except PyError Unit)
    (n : Nat) : Prop :=
  ∃ j, Reached sc opts sleep j ∧ j / period opts = n

/-- Every call is given the key of the lane that the stats name, or the key of the caller. -/
def Agrees (sc : Script α) (opts : Options) (resolve : String → Option String)
    (sleep : Nat → ℚ → Except PyError Unit) (r : KeyRotator) (apiKey : Option String) : Prop :=
  ∀ before result,
    .called before result ∈ (traced (sc.keyed resolve sleep) opts ⟨0, 0⟩ (some r) apiKey).1 →
      ∃ lane, before.stats.lastLane = some lane ∧ before.apiKey = apiKey.or (resolve lane)

theorem Reached.earlier {i j : Nat} (h : Reached sc opts sleep j) (hij : i ≤ j) :
    Reached sc opts sleep i := by
  obtain ⟨hmax, -, hj, hearlier⟩ := h
  refine ⟨by omega, Nat.zero_le i, ?_, fun m hm hmi => hearlier m hm (by omega)⟩
  rcases hij.eq_or_lt with rfl | hlt
  · exact hj
  · exact (hearlier i (Nat.zero_le i) hlt).1

theorem Turned.earlier {m n : Nat} (h : Turned sc opts sleep n) (hmn : m ≤ n) :
    Turned sc opts sleep m := by
  obtain ⟨j, hreached, rfl⟩ := h
  refine ⟨m * period opts, hreached.earlier ?_, Nat.mul_div_cancel m (period_pos opts)⟩
  exact (Nat.le_div_iff_mul_le (period_pos opts)).mp hmn

theorem agrees_iff_keyAfter (sc : Script α) (opts : Options) (resolve : String → Option String)
    (sleep : Nat → ℚ → Except PyError Unit) (r : KeyRotator) (apiKey : Option String) :
    Agrees sc opts resolve sleep r apiKey ↔
      ∀ n, Turned sc opts sleep n →
        keyAfter resolve r apiKey n = apiKey.or (resolve (r.lane n)) := by
  unfold Agrees Turned Reached traced
  split
  · next hnone =>
    refine iff_of_true (by simp) ?_
    rintro n ⟨j, ⟨hmax, -⟩, -⟩
    omega
  · next hsome =>
    rw [attemptsTraced_all (P := fun lastLane key => ∃ lane, lastLane = some lane ∧ key = apiKey.or (resolve lane))
      (enter_keyed sc opts resolve sleep r apiKey) rfl]
    simp only [Option.some.injEq, exists_eq_left']
    constructor
    · rintro hall n ⟨j, ⟨hmax, hreached⟩, rfl⟩
      exact hall j (by omega) hreached
    · intro hall j hmax hreached
      exact hall _ ⟨j, ⟨by omega, hreached⟩, rfl⟩

/-- **When the key of every call is that of its lane.** A lane without a secret must not come after
one with a secret, and a later lane must not have another secret than the one that the caller
passed. -/
theorem agrees_iff (sc : Script α) (opts : Options) (resolve : String → Option String)
    (sleep : Nat → ℚ → Except PyError Unit) (r : KeyRotator) (apiKey : Option String) :
    Agrees sc opts resolve sleep r apiKey ↔
      (apiKey = none → ∀ n, Turned sc opts sleep n → resolve (r.lane n) = none →
        ∀ j < n, resolve (r.lane j) = none) ∧
      (∀ key, apiKey = some key → ∀ n, Turned sc opts sleep n → 0 < n →
        ∀ cred, resolve (r.lane n) = some cred → cred = key) := by
  rw [agrees_iff_keyAfter]
  cases apiKey with
  | none =>
    simp only [Option.none_or, keyAfter_resolved, true_imp_iff, reduceCtorEq, false_imp_iff, implies_true, and_true]
  | some key =>
    simp only [Option.some_or, reduceCtorEq, false_imp_iff, true_and, Option.some.injEq, forall_eq']
    constructor
    · intro hkept n hturned
      exact keyAfter_explicit.mp (fun m hm => hkept m (hturned.earlier hm)) n le_rfl
    · intro hsame n hturned
      exact keyAfter_explicit.mpr (fun m hm => hsame m (hturned.earlier hm)) n le_rfl

end

/-! ## A second lane -/

def patient : Options := ⟨backoff, 6, 2⟩

def noSleep (_ : Nat) (_ : ℚ) : Except PyError Unit := .ok ()

theorem recovering_turned : Turned recovering patient noSleep 1 := by
  refine ⟨2, ⟨by decide, by omega, rfl, fun i _ hi => ⟨rfl, ?_, rfl, cacheSafeSleep 5, ?_, fun _ => rfl⟩⟩, rfl⟩
  · simp [recovering_transient hi]
  · simp [Script.waitAt, recovering_transient hi, BackoffPolicy.delay]

/-- Only the first lane has a secret. -/
def firstOnly (label : String) : Option String :=
  if label = "max-plan-a" then some "key-a" else none

def eachOwn (label : String) : Option String :=
  if label = "max-plan-a" then some "key-a" else some "key-b"

/-- On the second lane the key of the first is billed, and the key of the caller is replaced. -/
theorem second_lane_disagrees :
    ¬ Agrees recovering patient firstOnly noSleep ring none ∧
      ¬ Agrees recovering patient eachOwn noSleep ring (some "explicit") := by
  constructor
  · rw [agrees_iff_keyAfter]
    intro hall
    have hsecond := hall 1 recovering_turned
    revert hsecond
    decide
  · rw [agrees_iff_keyAfter]
    intro hall
    have hsecond := hall 1 recovering_turned
    revert hsecond
    decide

end Swarm.Resilience
