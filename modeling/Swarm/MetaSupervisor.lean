import Mathlib.Data.List.Perm.Subperm
import Swarm.Value

/-!
# The parallelism score, as `meta_supervisor.py` computes it

A score says how safely a task can run beside those that are running. The planner may write one into
the task.
-/

namespace Swarm.MetaSupervisor

/-! ## The score -/

def PARALLELISM_SAFE : Num := .finite 1

def PARALLELISM_MOSTLY_SAFE : Num := .finite (7 / 10)

def PARALLELISM_RISKY : Num := .finite (3 / 10)

def PARALLELISM_UNSAFE : Num := .finite 0

def SERIAL_ROLES : List String := ["meta-supervisor", "supervisor"]

def VERDICT_ONLY_ROLES : List String := ["ephemeral-agent", "reviewer", "auditor"]

def VERDICT_ONLY_HEADS : List String := ["reviewer", "auditor", "test-runner"]

/-- What the score reads of a task. -/
structure Task where
  metadata : List (String × Value)
  role : String
  requiredHead : String
  filesOwned : List String

/-- The score that the planner gave, if any. -/
def Task.override (task : Task) : Value := Value.get task.metadata "parallelism_safety"

/-- `min(1.0, v)` keeps 1.0 unless `v` is less, so that it drops a nan. -/
def minOne (v : Num) : Num := if v.lt (.finite 1) then v else .finite 1

/-- `max(0.0, v)` -/
def maxZero (v : Num) : Num := if (Num.finite 0).lt v then v else .finite 0

/-- `task_files & other_files` -/
def overlaps (task other : Task) : Bool := task.filesOwned.any fun f => f ∈ other.filesOwned

/-- The score of the files alone. -/
def fileScore (task : Task) : Num :=
  let nFiles := task.filesOwned.length
  if nFiles = 0 then PARALLELISM_SAFE
  else if nFiles = 1 then PARALLELISM_SAFE
  else if nFiles ≤ 5 then PARALLELISM_MOSTLY_SAFE
  else PARALLELISM_RISKY

/-- The score against the running tasks, of which the empty list counts as none. -/
def runningScore (task : Task) (inProgress : Option (List Task)) : Num :=
  match inProgress with
  | none | some [] => fileScore task
  | some running =>
    if task.filesOwned ≠ [] then
      if running.any (overlaps task) then PARALLELISM_RISKY else fileScore task
    else if 3 ≤ running.length then PARALLELISM_MOSTLY_SAFE
    else fileScore task

def Task.serial (task : Task) : Bool := task.role ∈ SERIAL_ROLES

/-- A task that writes no files. -/
def Task.verdictOnly (task : Task) : Bool :=
  task.role ∈ VERDICT_ONLY_ROLES || task.requiredHead ∈ VERDICT_ONLY_HEADS

/-- The score without an override. -/
def heuristicScore (task : Task) (inProgress : Option (List Task)) : Num :=
  if task.serial then PARALLELISM_UNSAFE
  else if task.verdictOnly then PARALLELISM_SAFE
  else runningScore task inProgress

variable (py : Builtins)

/-- `parallelism_score`: an override that `float` takes counts before the heuristic. -/
def parallelismScore (task : Task) (inProgress : Option (List Task)) : Except PyError Num :=
  match task.override with
  | .null => .ok (heuristicScore task inProgress)
  | override =>
    match override.toFloat py with
    | .ok v => .ok (maxZero (minOne v))
    | .error (.typeError _) | .error (.valueError _) => .ok (heuristicScore task inProgress)
    | .error e => .error e

/-! ## What each part gives -/

/-- A number from 0 to 1. -/
def InUnit (x : Num) : Prop := ∃ q : ℚ, x = .finite q ∧ 0 ≤ q ∧ q ≤ 1

theorem clamped_inUnit (v : Num) : InUnit (maxZero (minOne v)) := by
  -- Whatever `v` is, a nan or an infinity as well.
  have hone : InUnit (.finite 1) := ⟨1, rfl, by norm_num, le_refl 1⟩
  have hzero : InUnit (.finite 0) := ⟨0, rfl, le_refl 0, by norm_num⟩
  have hmax : ∀ q : ℚ, q ≤ 1 → InUnit (maxZero (.finite q)) := by
    intro q hq
    by_cases hpos : 0 < q
    · have hkept : maxZero (.finite q) = .finite q := if_pos (decide_eq_true hpos)
      exact ⟨q, hkept, hpos.le, hq⟩
    · have hdropped : maxZero (.finite q) = .finite 0 := if_neg (by simpa [Num.lt] using hpos)
      rw [hdropped]
      exact hzero
  cases v with
  | finite q =>
    by_cases hlt : q < 1
    · have hkept : minOne (.finite q) = .finite q := if_pos (decide_eq_true hlt)
      rw [hkept]
      exact hmax q hlt.le
    · have hcut : minOne (.finite q) = .finite 1 := if_neg (by simpa [Num.lt] using hlt)
      rw [hcut]
      exact hmax 1 le_rfl
  | inf negative =>
    cases negative with
    | false => exact hmax 1 le_rfl
    | true => exact hzero
  | nan => exact hmax 1 le_rfl

theorem le_refl_of_inUnit {x : Num} (h : InUnit x) : x.le x = true := by
  obtain ⟨q, rfl, -, -⟩ := h
  exact decide_eq_true le_rfl

theorem safe_inUnit : InUnit PARALLELISM_SAFE := ⟨1, rfl, by norm_num, le_rfl⟩

theorem mostlySafe_inUnit : InUnit PARALLELISM_MOSTLY_SAFE :=
  ⟨7 / 10, rfl, by norm_num, by norm_num⟩

theorem risky_inUnit : InUnit PARALLELISM_RISKY := ⟨3 / 10, rfl, by norm_num, by norm_num⟩

theorem unsafe_inUnit : InUnit PARALLELISM_UNSAFE := ⟨0, rfl, le_rfl, by norm_num⟩

theorem finite_le {p q : ℚ} (h : p ≤ q) : (Num.finite p).le (.finite q) = true := decide_eq_true h

theorem mostlySafe_le_safe : PARALLELISM_MOSTLY_SAFE.le PARALLELISM_SAFE = true :=
  finite_le (by norm_num)

theorem risky_le_mostlySafe : PARALLELISM_RISKY.le PARALLELISM_MOSTLY_SAFE = true :=
  finite_le (by norm_num)

theorem risky_le_safe : PARALLELISM_RISKY.le PARALLELISM_SAFE = true := finite_le (by norm_num)

theorem unsafe_le_risky : PARALLELISM_UNSAFE.le PARALLELISM_RISKY = true := finite_le (by norm_num)

theorem fileScore_cases (task : Task) :
    fileScore task = PARALLELISM_SAFE ∨ fileScore task = PARALLELISM_MOSTLY_SAFE ∨
      fileScore task = PARALLELISM_RISKY := by
  unfold fileScore
  dsimp only
  split
  · exact .inl rfl
  · split
    · exact .inl rfl
    · split
      · exact .inr (.inl rfl)
      · exact .inr (.inr rfl)

theorem fileScore_inUnit (task : Task) : InUnit (fileScore task) := by
  rcases fileScore_cases task with h | h | h
  · exact h ▸ safe_inUnit
  · exact h ▸ mostlySafe_inUnit
  · exact h ▸ risky_inUnit

theorem risky_le_fileScore (task : Task) : PARALLELISM_RISKY.le (fileScore task) = true := by
  rcases fileScore_cases task with h | h | h
  · rw [h]
    exact risky_le_safe
  · rw [h]
    exact risky_le_mostlySafe
  · rw [h]
    exact le_refl_of_inUnit risky_inUnit

theorem fileScore_no_files {task : Task} (h : task.filesOwned = []) :
    fileScore task = PARALLELISM_SAFE := by
  simp [fileScore, h]

theorem runningScore_files {task : Task} (h : task.filesOwned ≠ []) (running : List Task) :
    runningScore task (some running) =
      if running.any (overlaps task) then PARALLELISM_RISKY else fileScore task := by
  cases running with
  | nil => rfl
  | cons other rest => exact if_pos h

theorem runningScore_no_files {task : Task} (h : task.filesOwned = []) (running : List Task) :
    runningScore task (some running) =
      if 3 ≤ running.length then PARALLELISM_MOSTLY_SAFE else PARALLELISM_SAFE := by
  cases running with
  | nil => exact fileScore_no_files h
  | cons other rest =>
    rw [← fileScore_no_files h]
    exact if_neg (not_not.mpr h)

theorem runningScore_inUnit (task : Task) (inProgress : Option (List Task)) :
    InUnit (runningScore task inProgress) := by
  cases inProgress with
  | none => exact fileScore_inUnit task
  | some running =>
    by_cases hnone : task.filesOwned = []
    · rw [runningScore_no_files hnone]
      split
      · exact mostlySafe_inUnit
      · exact safe_inUnit
    · rw [runningScore_files hnone]
      split
      · exact risky_inUnit
      · exact fileScore_inUnit task

theorem heuristicScore_inUnit (task : Task) (inProgress : Option (List Task)) :
    InUnit (heuristicScore task inProgress) := by
  unfold heuristicScore
  split
  · exact unsafe_inUnit
  · split
    · exact safe_inUnit
    · exact runningScore_inUnit task inProgress

theorem runningScore_antitone (task : Task) {a b : List Task} (h : a.Subperm b) :
    (runningScore task (some b)).le (runningScore task (some a)) = true := by
  -- More tasks can only add overlaps and make the count larger.
  have hsame := le_refl_of_inUnit (runningScore_inUnit task (some a))
  by_cases hnone : task.filesOwned = []
  · have hlen := h.length_le
    rw [runningScore_no_files hnone] at hsame ⊢
    rw [runningScore_no_files hnone]
    by_cases hcrowd : 3 ≤ a.length
    · rwa [if_pos hcrowd, if_pos (by omega)] at *
    · rw [if_neg hcrowd]
      split
      · exact mostlySafe_le_safe
      · exact le_refl_of_inUnit safe_inUnit
  · rw [runningScore_files hnone] at hsame ⊢
    rw [runningScore_files hnone]
    by_cases hshared : a.any (overlaps task) = true
    · have hmore : b.any (overlaps task) = true := by
        obtain ⟨other, hother, hoverlap⟩ := List.any_eq_true.mp hshared
        exact List.any_eq_true.mpr ⟨other, h.subset hother, hoverlap⟩
      rwa [if_pos hmore, if_pos hshared] at *
    · rw [if_neg hshared]
      split
      · exact risky_le_fileScore task
      · exact le_refl_of_inUnit (fileScore_inUnit task)

theorem heuristicScore_antitone (task : Task) {a b : List Task} (h : a.Subperm b) :
    (heuristicScore task (some b)).le (heuristicScore task (some a)) = true := by
  unfold heuristicScore
  split
  · exact le_refl_of_inUnit unsafe_inUnit
  · split
    · exact le_refl_of_inUnit safe_inUnit
    · exact runningScore_antitone task h

theorem heuristicScore_risky {task : Task} (hverdict : task.verdictOnly = false)
    {running : List Task} (hshared : running.any (overlaps task) = true) :
    (heuristicScore task (some running)).le PARALLELISM_RISKY = true := by
  unfold heuristicScore
  rw [hverdict, if_neg Bool.false_ne_true]
  split
  · exact unsafe_le_risky
  · have hfiles : task.filesOwned ≠ [] := by
      intro hnone
      obtain ⟨other, -, hoverlap⟩ := List.any_eq_true.mp hshared
      simp [overlaps, hnone] at hoverlap
    rw [runningScore_files hfiles, if_pos hshared]
    exact le_refl_of_inUnit risky_inUnit

/-! ## Safe to act on -/

/-- A float can be had of the override if it is a number. -/
def Representable (task : Task) : Prop := ∀ n, task.override = .int n → ∃ x, floatOfInt n = .ok x

structure SafeToActOn (task : Task) : Prop where
  antitone : ∀ a b : List Task, a.Subperm b → ∃ x y, parallelismScore py task (some b) = .ok x ∧
    parallelismScore py task (some a) = .ok y ∧ x.le y = true
  inUnit : ∀ inProgress, ∃ x, parallelismScore py task inProgress = .ok x ∧ InUnit x
  risky : task.override = .null → task.verdictOnly = false → ∀ running : List Task,
    (∃ other ∈ running, ∃ f ∈ task.filesOwned, f ∈ other.filesOwned) →
      ∃ x, parallelismScore py task (some running) = .ok x ∧ x.le PARALLELISM_RISKY = true

theorem floatOfInt_cases (n : Int) :
    (∃ x, floatOfInt n = .ok x) ∨ floatOfInt n =
      .error (.overflowError "int too large to convert to float") := by
  unfold floatOfInt
  dsimp only
  split
  · exact .inl ⟨_, rfl⟩
  · exact .inr rfl

theorem representable_of_not_int {task : Task} (h : ∀ n, task.override ≠ .int n) :
    Representable task :=
  fun n hint => absurd hint (h n)

theorem parallelismScore_cases (task : Task) :
    (Representable task ∧ ∀ inProgress,
      parallelismScore py task inProgress = .ok (heuristicScore task inProgress)) ∨
    (Representable task ∧ task.override ≠ .null ∧
      ∃ v, ∀ inProgress, parallelismScore py task inProgress = .ok (maxZero (minOne v))) ∨
    ¬ Representable task ∧ ∃ e, ∀ inProgress, parallelismScore py task inProgress = .error e := by
  unfold parallelismScore
  cases hoverride : task.override with
  | null => exact .inl ⟨representable_of_not_int (by simp [hoverride]), fun _ => rfl⟩
  | arr items => exact .inl ⟨representable_of_not_int (by simp [hoverride]), fun _ => rfl⟩
  | obj entries => exact .inl ⟨representable_of_not_int (by simp [hoverride]), fun _ => rfl⟩
  | bool b => exact .inr (.inl ⟨representable_of_not_int (by simp [hoverride]), by simp, _, fun _ => rfl⟩)
  | float x => exact .inr (.inl ⟨representable_of_not_int (by simp [hoverride]), by simp, _, fun _ => rfl⟩)
  | str s =>
    have hnot : Representable task := representable_of_not_int (by simp [hoverride])
    simp only [Value.toFloat]
    cases py.float s with
    | some x => exact .inr (.inl ⟨hnot, by simp, x, fun _ => rfl⟩)
    | none => exact .inl ⟨hnot, fun _ => rfl⟩
  | int n =>
    have hsame : Representable task ↔ ∃ x, floatOfInt n = .ok x := by
      simp [Representable, hoverride]
    simp only [Value.toFloat, hsame]
    rcases floatOfInt_cases n with ⟨x, hok⟩ | herror
    · rw [hok]
      exact .inr (.inl ⟨⟨x, rfl⟩, by simp, x, fun _ => rfl⟩)
    · rw [herror]
      exact .inr (.inr ⟨by simp, _, fun _ => rfl⟩)

/-- **When a score is safe to act on.** An int that no float holds is the one override that is
neither used nor passed over. -/
theorem safeToActOn_iff (task : Task) : SafeToActOn py task ↔ Representable task := by
  rcases parallelismScore_cases py task with ⟨hok, hscore⟩ | ⟨hok, hset, v, hscore⟩ | ⟨hnot, e, hraises⟩
  · refine iff_of_true ⟨?_, ?_, ?_⟩ hok
    · intro a b h
      exact ⟨_, _, hscore _, hscore _, heuristicScore_antitone task h⟩
    · intro inProgress
      exact ⟨_, hscore _, heuristicScore_inUnit task inProgress⟩
    · intro _ hverdict running hshared
      refine ⟨_, hscore _, heuristicScore_risky hverdict ?_⟩
      simpa [overlaps] using hshared
  · have hunit := clamped_inUnit v
    refine iff_of_true ⟨?_, ?_, ?_⟩ hok
    · intro a b _
      exact ⟨_, _, hscore _, hscore _, le_refl_of_inUnit hunit⟩
    · intro inProgress
      exact ⟨_, hscore _, hunit⟩
    · intro hnone
      exact absurd hnone hset
  · refine iff_of_false (fun h => ?_) hnot
    obtain ⟨x, hscore, -⟩ := h.inUnit none
    rw [hraises] at hscore
    cases hscore

def cautious : Task := ⟨[("parallelism_safety", .int (10 ^ 400))], "agent", "builder", ["a.py"]⟩

/-- `float(10 ** 400)` raises, and the handler does not expect that. -/
theorem huge_override_raises :
    parallelismScore noNumbers cautious none =
      .error (.overflowError "int too large to convert to float") ∧
      ¬ SafeToActOn noNumbers cautious := by
  have hfloat : floatOfInt (10 ^ 400) = .error (.overflowError "int too large to convert to float") := by
    decide +kernel
  have hraises : parallelismScore noNumbers cautious none =
      .error (.overflowError "int too large to convert to float") := by
    simp only [parallelismScore, cautious, Task.override, Value.get, List.lookup_cons_self, Option.getD_some,
      Value.toFloat, hfloat]
  refine ⟨hraises, fun h => ?_⟩
  obtain ⟨x, hscore, -⟩ := h.inUnit none
  rw [hraises] at hscore
  cases hscore

end Swarm.MetaSupervisor
