import Mathlib.Tactic.NormNum
import Swarm.Lib.Fold
import Swarm.Resilience

/-! # The bounds of a delay -/

namespace Swarm.Resilience

open Lib

/-! ## The sleep -/

theorem cacheSafeSleep_eq (seconds : ℚ) :
    cacheSafeSleep seconds = foldDown 270 330 (max 0 seconds) := by
  have hlow : (300 - 30 : ℚ) = 270 := by norm_num
  have hhigh : (300 + 30 : ℚ) = 330 := by norm_num
  unfold cacheSafeSleep foldDown
  rw [hlow, hhigh]
  split
  · next hneg => rw [max_eq_left hneg, if_neg (by norm_num)]
  · next hpos => rw [max_eq_right (le_of_not_ge hpos)]

theorem cacheSafeSleep_mono : Monotone cacheSafeSleep := by
  intro x y hxy
  rw [cacheSafeSleep_eq, cacheSafeSleep_eq]
  exact foldDown_mono (max_le_max_left 0 hxy)

theorem cacheSafeSleep_nonneg (seconds : ℚ) : 0 ≤ cacheSafeSleep seconds := by
  rw [cacheSafeSleep_eq]
  exact le_foldDown (by norm_num) (le_max_left 0 seconds)

theorem cacheSafeSleep_idem (seconds : ℚ) :
    cacheSafeSleep (cacheSafeSleep seconds) = cacheSafeSleep seconds := by
  rw [cacheSafeSleep_eq (cacheSafeSleep seconds), max_eq_right (cacheSafeSleep_nonneg seconds), cacheSafeSleep_eq,
    foldDown_idem]

theorem cacheSafeSleep_le {seconds : ℚ} (h : 0 ≤ seconds) : cacheSafeSleep seconds ≤ seconds := by
  rw [cacheSafeSleep_eq, max_eq_right h]
  exact foldDown_le seconds

theorem cacheSafeSleep_avoids (seconds : ℚ) :
    ¬ (270 < cacheSafeSleep seconds ∧ cacheSafeSleep seconds ≤ 330) := by
  rw [cacheSafeSleep_eq]
  exact foldDown_avoids _

/-! ## The delay -/

namespace BackoffPolicy

variable {policy : BackoffPolicy} {rng : ℚ → ℚ → ℚ} {attempt : Int} {hint : Option ℚ}

/-- The capped schedule before the jitter. -/
def raw (policy : BackoffPolicy) (attempt : Int) : ℚ :=
  min (policy.baseS * policy.factor ^ attempt.toNat) policy.maxDelayS

/-- `delay` with powers of any size. -/
def exactDelay (policy : BackoffPolicy) (rng : ℚ → ℚ → ℚ) (attempt : Int)
    (retryAfterS : Option ℚ) : ℚ :=
  if retryAfterS.any (0 < ·) then cacheSafeSleep (retryAfterS.getD 0)
  else
    let raw := policy.raw attempt
    cacheSafeSleep (if policy.jitter && 0 < raw then rng 0 raw else raw)

/-- A float power overflows, or the delay is the exact one. -/
theorem delay_eq (policy : BackoffPolicy) (rng : ℚ → ℚ → ℚ) (attempt : Int) (hint : Option ℚ) :
    policy.delay rng attempt hint =
      if hint.any (0 < ·) = false ∧ floatBound ≤ |policy.factor ^ attempt.toNat| then
        .error (.overflowError "(34, 'Numerical result out of range')")
      else .ok (policy.exactDelay rng attempt hint) := by
  unfold delay exactDelay floatPow
  cases hint.any (0 < ·) with
  | true => rfl
  | false =>
    by_cases hbound : floatBound ≤ |policy.factor ^ attempt.toNat|
    · rw [if_neg Bool.false_ne_true, if_pos hbound, if_pos ⟨rfl, hbound⟩]
    · rw [if_neg Bool.false_ne_true, if_neg hbound, if_neg fun h => hbound h.2, if_neg Bool.false_ne_true]
      rfl

structure NonNeg (policy : BackoffPolicy) : Prop where
  base : 0 ≤ policy.baseS
  factor : 0 ≤ policy.factor
  maxDelay : 0 ≤ policy.maxDelayS

/-- `rng(low, high)` is between its bounds. -/
def Answers (rng : ℚ → ℚ → ℚ) : Prop :=
  ∀ low high, low ≤ high → low ≤ rng low high ∧ rng low high ≤ high

theorem raw_nonneg (h : policy.NonNeg) (attempt : Int) : 0 ≤ policy.raw attempt :=
  le_min (mul_nonneg h.base (pow_nonneg h.factor _)) h.maxDelay

theorem raw_mono (h : policy.NonNeg) (hfactor : 1 ≤ policy.factor) {i j : Int} (hij : i ≤ j) :
    policy.raw i ≤ policy.raw j := by
  refine min_le_min_right _ (mul_le_mul_of_nonneg_left ?_ h.base)
  exact pow_le_pow_right₀ hfactor (Int.toNat_le_toNat hij)

theorem exactDelay_of_hint (h : hint.any (0 < ·) = true) :
    policy.exactDelay rng attempt hint = cacheSafeSleep (hint.getD 0) := if_pos h

theorem exactDelay_of_no_hint (h : hint.any (0 < ·) = false) :
    policy.exactDelay rng attempt hint = cacheSafeSleep
      (if policy.jitter && 0 < policy.raw attempt then rng 0 (policy.raw attempt) else policy.raw attempt) :=
  if_neg (by simp [h])

theorem exactDelay_safe (policy : BackoffPolicy) (rng : ℚ → ℚ → ℚ) (attempt : Int)
    (hint : Option ℚ) :
    ∃ seconds, policy.exactDelay rng attempt hint = cacheSafeSleep seconds := by
  unfold exactDelay
  split
  · exact ⟨_, rfl⟩
  · exact ⟨_, rfl⟩

theorem exactDelay_le_raw (h : policy.NonNeg) (hrng : Answers rng)
    (hhint : hint.any (0 < ·) = false) :
    policy.exactDelay rng attempt hint ≤ policy.raw attempt := by
  have hraw := raw_nonneg h attempt
  rw [exactDelay_of_no_hint hhint]
  split
  · obtain ⟨hlow, hhigh⟩ := hrng 0 (policy.raw attempt) hraw
    exact (cacheSafeSleep_le hlow).trans hhigh
  · exact cacheSafeSleep_le hraw

/-! ## The bounds -/

structure Bounded (policy : BackoffPolicy) : Prop where
  safe : ∀ rng attempt hint, 0 ≤ policy.exactDelay rng attempt hint ∧
    ¬ (270 < policy.exactDelay rng attempt hint ∧ policy.exactDelay rng attempt hint ≤ 330)
  hinted : ∀ seconds, 0 < seconds → ∀ rng attempt, policy.exactDelay rng attempt (some seconds) ≤ seconds ∧
    ∀ rng' attempt',
      policy.exactDelay rng attempt (some seconds) = policy.exactDelay rng' attempt' (some seconds)
  capped : ∀ rng, Answers rng → ∀ attempt hint, hint.any (0 < ·) = false →
    policy.exactDelay rng attempt hint ≤ policy.maxDelayS
  grows : policy.jitter = false → 1 ≤ policy.factor → ∀ rng hint,
    ∀ i j, i ≤ j → policy.exactDelay rng i hint ≤ policy.exactDelay rng j hint
  computed : ∀ rng attempt hint, policy.delay rng attempt hint =
    if hint.any (0 < ·) = false ∧ floatBound ≤ |policy.factor ^ attempt.toNat| then
      .error (.overflowError "(34, 'Numerical result out of range')")
    else .ok (policy.exactDelay rng attempt hint)

/-- **The bounds of a delay**, and of the sleep that it rests on. -/
theorem delay_bounded (policy : BackoffPolicy) (h : policy.NonNeg) :
    policy.Bounded ∧ Monotone cacheSafeSleep ∧
      (∀ seconds, cacheSafeSleep (cacheSafeSleep seconds) = cacheSafeSleep seconds) ∧
      ∀ seconds, 0 ≤ seconds → cacheSafeSleep seconds ≤ seconds := by
  refine ⟨⟨?_, ?_, ?_, ?_, delay_eq policy⟩, cacheSafeSleep_mono, cacheSafeSleep_idem, fun _ => cacheSafeSleep_le⟩
  · intro rng attempt hint
    obtain ⟨seconds, hsafe⟩ := exactDelay_safe policy rng attempt hint
    rw [hsafe]
    exact ⟨cacheSafeSleep_nonneg seconds, cacheSafeSleep_avoids seconds⟩
  · intro seconds hpos rng attempt
    have hhint : (some seconds).any (0 < ·) = true := by simpa using hpos
    rw [exactDelay_of_hint hhint]
    exact ⟨cacheSafeSleep_le hpos.le, fun _ _ => (exactDelay_of_hint hhint).symm⟩
  · intro rng hrng attempt hint hhint
    exact (exactDelay_le_raw h hrng hhint).trans (min_le_right _ _)
  · intro hjitter hfactor rng hint i j hij
    cases hhint : hint.any (0 < ·) with
    | true => simp only [exactDelay_of_hint hhint, le_refl]
    | false =>
      simp only [exactDelay_of_no_hint hhint, hjitter, Bool.false_and, Bool.false_eq_true, if_false]
      exact cacheSafeSleep_mono (raw_mono h hfactor hij)

end BackoffPolicy

/-- The policy of the defaults. -/
theorem defaults_bounded : (⟨1, 2, 60, true⟩ : BackoffPolicy).Bounded :=
  (BackoffPolicy.delay_bounded ⟨1, 2, 60, true⟩ ⟨by norm_num, by norm_num, by norm_num⟩).1

end Swarm.Resilience
