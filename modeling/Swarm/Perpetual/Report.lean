import Swarm.Conductors.Backends
import Swarm.Perpetual.Ledger

/-!
# What the board tells of a team on the shipped conductors

The loops of a team have conductors of `build_conductor`. Whatever the processes, the APIs and the
streams behind them do, the rows of the board keep to what the conductors promise.
-/

namespace Swarm.Perpetual.Team

open Kanban Supervisor Resilience Conductors Swarm.Lib

/-! ## A row -/

/-- No result is an empty text, a DONE task has no error, and a FAILED one has one unless a process
was `mute`. -/
structure Told (mute : Prop) (r : Row) : Prop where
  result : r.result ≠ some ""
  done : r.status = "done" → r.error = none
  failed : r.status = "failed" → r.error.isSome ∨ mute

def Tells (mute : Prop) (b : Board) : Prop := ∀ r ∈ b.tasks, Told mute r

theorem told_outcome {mute : Prop} {o : DispatchResult} (h : Reported mute o) (completedAt : ℚ)
    (r : Row) :
    Told mute (setAll (outcomeFields o completedAt) r) where
  result := h.result
  done hdone := h.done ((TaskStatus.value_inj _ .done).mp hdone)
  failed hfailed := h.failed ((TaskStatus.value_inj _ .failed).mp hfailed)

theorem told_failed (mute : Prop) (error : String) (completedAt : ℚ) {r : Row}
    (h : r.result ≠ some "") :
    Told mute (setAll (failedFields error completedAt) r) where
  result := h
  done hdone := absurd hdone (by simp [setAll, failedFields, Field.set])
  failed _ := .inl rfl

theorem told_pending (mute : Prop) {r : Row} (h : r.result ≠ some "") :
    Told mute (setAll [.status "pending"] r) where
  result := h
  done hdone := absurd hdone (by simp [setAll, Field.set])
  failed hfailed := absurd hfailed (by simp [setAll, Field.set])

theorem told_release {mute : Prop} {answer : Answer} (h : ∀ o, answer = .ok o → Reported mute o)
    (roster : Roster) (claimed : Kanban.Task) (t : Times) {r : Row} (hr : r.result ≠ some "") :
    Told mute (setAll (releaseFields roster answer claimed t) r) := by
  unfold releaseFields
  split
  · exact told_failed mute _ _ hr
  · split
    · next o => exact told_outcome (h o rfl) t.completedAt r
    · split
      · exact told_pending mute hr
      · exact told_failed mute _ _ hr

/-! ## A team -/

section

variable {N : Nat} {cfgs : Fin N → Supervisor.Config} {rosters : Fin N → Roster}
    {s s' : TeamState N} {mute : Prop}

/-- The others file pending tasks without a result, and the answers are reported ones. -/
def Reports (mute : Prop) : Label N → Prop
  | .submit task _ => task.status = .pending ∧ task.result ≠ some ""
  | .writeBack _ answer _ => ∀ o, answer = .ok o → Reported mute o
  | .peek _ | .claim _ _ => True

theorem Reports.allowed {l : Label N} (h : Reports mute l) : Allowed l := by
  cases l with
  | submit task ts => exact h.1
  | writeBack i answer t =>
    intro o ho hlive
    rcases (h o ho).settled with hs | hs <;> rw [hs] at hlive <;> cases hlive
  | peek i | claim i t => trivial

theorem Tells.submit (h : Tells mute s.board) (task : Kanban.Task) (ts : ℚ)
    (htask : task.status = .pending ∧ task.result ≠ some "") :
    Tells mute (submit s.board task ts).2 := by
  rcases submit_cases s.board task ts with hsame | ⟨-, htasks, -⟩
  · rw [hsame]
    exact h
  · intro r hr
    rw [htasks] at hr
    rcases List.mem_append.mp hr with hr | hr
    · exact h r hr
    · rw [List.mem_singleton.mp hr]
      have hstatus : task.toRow.status = "pending" := by
        simp [Task.toRow, htask.1, TaskStatus.value]
      exact ⟨htask.2, fun hdone => absurd (hstatus.symm.trans hdone) (by decide),
        fun hfailed => absurd (hstatus.symm.trans hfailed) (by decide)⟩

theorem Tells.map {b b' : Board} (h : Tells mute b) {id : String} {f : Row → Row}
    (htasks : b'.tasks = b.tasks.map fun x => if x.id = id then f x else x)
    (hf : ∀ r ∈ b.tasks, Told mute (f r)) : Tells mute b' := by
  intro x hx
  rw [htasks] at hx
  obtain ⟨y, hy, rfl⟩ := List.mem_map.mp hx
  split
  · exact hf y hy
  · exact h y hy

theorem told_claimed {r : Row} (h : Told mute r) (workerId : String) (now : ℚ) :
    Told mute (claimRow workerId now r) :=
  ⟨h.result, fun hdone => absurd hdone (by simp [claimRow]), fun hfailed => absurd hfailed (by simp [claimRow])⟩

theorem Tells.step (h : Tells mute s.board) (hi : Inv s) {l : Label N} (hl : Reports mute l)
    (hstep : step cfgs rosters l s = some s') : Tells mute s'.board := by
  cases l with
  | submit task ts =>
    cases hstep
    exact h.submit task ts hl
  | peek i =>
    simp only [Team.step] at hstep
    split at hstep
    · split at hstep <;> cases hstep <;> exact h
    · cases hstep
  | claim i t =>
    simp only [Team.step] at hstep
    split at hstep
    · next requiredHead hpc =>
      rcases claimOne_cases s.board (some requiredHead) ((cfgs i).teammateName ++ ":" ++ requiredHead)
        t.startedAt t.claimTs with ⟨-, hboard, hres⟩ | ⟨r, hr, -, -, -, -, heq⟩
      · split at hstep
        · next heq => exact absurd (congrArg Prod.fst heq) (hres _)
        all_goals
          next heq =>
            cases hstep
            obtain rfl := (congrArg Prod.snd heq).symm.trans hboard
            exact h
      · -- A claim writes no result and no end.
        simp only [heq, Option.some.injEq] at hstep
        subst hstep
        exact h.map rfl fun x hx => told_claimed (h x hx) _ _
    · cases hstep
  | writeBack i answer t =>
    simp only [Team.step] at hstep
    split at hstep
    · next claimed hpc =>
      obtain ⟨r, hr, hid, -⟩ := hi.held i claimed.id ⟨claimed, hpc, rfl⟩
      have hsel : s.board.select claimed.id = some r := (select_eq_some _ _ _).mpr ⟨hr, hid⟩
      -- The loop holds the row, so the release reaches it.
      obtain ⟨htasks, -⟩ := release_released (rosters i) answer claimed t
        ⟨s.board, (s.loops i).costSoFarUsd, (s.loops i).turn, []⟩ r hsel
      cases hstep
      exact h.map htasks fun x hx => told_release hl (rosters i) claimed t (h x hx).result
    · cases hstep

end

/-! ## The shipped conductors -/

variable {N : Nat}

/-- The loops have one conductor, which answers as its backend does in one of the `worlds`. -/
def Backed (profile : Head → Profile) (allowedTools : Head → List String) (backend : Backend)
    (worlds : Set Outside) :
    Label N → Prop
  | .submit task _ => task.status = .pending ∧ task.result ≠ some ""
  | .writeBack _ answer _ =>
    ∃ o ∈ worlds, ∃ head task, answer = backend.dispatch profile allowedTools o head task
  | .peek _ | .claim _ _ => True

/-- The conductor is the CLI, and some process of it fails without a word. -/
def Mute (name : String) (worlds : Set Outside) : Prop :=
  name = "claude" ∧ ∃ o ∈ worlds, ∃ spawn, (o.ends spawn).Mute

theorem built_claude {sp : Spelling} {name : String} {modelOverride : Option String}
    {demoDelayS : ℚ} {c : ClaudeCLIConductor} (h : buildConductor sp name modelOverride demoDelayS =
      .ok (.claude c)) :
    name = "claude" := by
  unfold buildConductor at h
  by_contra hname
  rw [if_neg hname] at h
  split at h
  · cases h
  · split at h
    · cases h
    · split at h <;> cases h

theorem Backed.reports {sp : Spelling} {name : String} {modelOverride : Option String}
    {demoDelayS : ℚ} {profile : Head → Profile} {allowedTools : Head → List String}
    {backend : Backend} {worlds : Set Outside}
    (hbuild : buildConductor sp name modelOverride demoDelayS = .ok backend) {l : Label N}
    (h : Backed profile allowedTools backend worlds l) : Reports (Mute name worlds) l := by
  cases l with
  | submit task ts => exact h
  | peek i | claim i t => trivial
  | writeBack i answer t =>
    obtain ⟨world, hworld, head, task, rfl⟩ := h
    intro o ho
    cases backend with
    | stub _ =>
      cases ho
      exact reported_done _ _ _ (by simp)
    | claude c =>
      exact (process_reported ho).mono fun hmute => ⟨built_claude hbuild, world, hworld, _, hmute⟩
    | api c => exact (api_reported profile ho).mono False.elim
    | sdk c => exact (sdk_reported profile allowedTools ho).mono False.elim

/-- **Whatever the conductor of `build_conductor` meets, in every state that N loops and their
neighbours can reach no result is an empty text, no DONE task has an error, and a FAILED task has
one, unless the conductor is the CLI and a process of it failed without a word.** -/
theorem team_reports (cfgs : Fin N → Supervisor.Config) (rosters : Fin N → Roster)
    (profile : Head → Profile) (allowedTools : Head → List String) (sp : Spelling) (name : String)
    (modelOverride : Option String) (demoDelayS : ℚ) (backend : Backend)
    (hbuild : buildConductor sp name modelOverride demoDelayS = .ok backend)
    (worlds : Set Outside) (b : Board) (hstill : ∀ r ∈ b.tasks, r.status ≠ "in_progress")
    (htold : ∀ r ∈ b.tasks, r.result ≠ some "" ∧ (r.status = "done" → r.error = none) ∧
      (r.status = "failed" → r.error.isSome))
    (labels : List (Label N)) (hlabels : ∀ l ∈ labels,
      Backed profile allowedTools backend worlds l) :
    ∀ r ∈ (final (step cfgs rosters) (start b) labels).board.tasks,
      r.result ≠ some "" ∧ (r.status = "done" → r.error = none) ∧
        (r.status = "failed" → r.error.isSome ∨ Mute name worlds) := by
  have hb : Tells (Mute name worlds) b :=
    fun r hr => ⟨(htold r hr).1, (htold r hr).2.1, fun hfailed => .inl ((htold r hr).2.2 hfailed)⟩
  have hfinal : Inv (final (Team.step cfgs rosters) (start b) labels) ∧
      Tells (Mute name worlds) (final (Team.step cfgs rosters) (start b) labels).board :=
    final_invariant
      (fun s l s' (h : Inv s ∧ Tells (Mute name worlds) s.board) hl hstep =>
        ⟨step_inv cfgs rosters s l s' h.1 (hl.reports hbuild).allowed hstep, h.2.step h.1 (hl.reports hbuild) hstep⟩)
      (start b) labels ⟨start_inv b hstill, hb⟩ hlabels
  intro r hr
  obtain ⟨hresult, hdone, hfailed⟩ := hfinal.2 r hr
  exact ⟨hresult, hdone, hfailed⟩

def spentWorld : Outside := ⟨fun _ => .caught "", ⟨.ok (), fun _ => .error indexError⟩, overBudget⟩

/-- Two loops, and an answer over the SDK whose budget ran out. -/
def twoSpent : List (Label 2) := twoPeeks ++ [.writeBack (Fin.last 1) (.ok budgetSpent) ⟨4, 4, 4, 4⟩]

theorem twoSpent_backed :
    ∀ l ∈ twoSpent, Backed sonnet (fun _ => []) (.sdk shippedSdk) {spentWorld} l := by
  intro l hl
  rcases List.mem_append.mp hl with hl | hl
  · simp only [twoPeeks, List.mem_cons, List.not_mem_nil] at hl
    rcases hl with rfl | rfl | rfl | rfl | hnone
    all_goals
      first
        | exact hnone.elim
        | trivial
  · rw [List.mem_singleton.mp hl]
    exact ⟨spentWorld, rfl, ⟨"builder"⟩, Task.new "b" 0, (overBudget_dispatch ⟨"builder"⟩ (Task.new "b" 0)).symm⟩

def twoSpentEnd : TeamState 2 :=
  final (step (fun _ => ⟨"team", none, none, 10, false⟩) fun _ => [("builder", ⟨"builder"⟩)])
    (start twoTasks) twoSpent

theorem twoSpent_reported :
    ∃ r ∈ twoSpentEnd.board.tasks, r.status = "failed" ∧ r.error.isSome := by
  have hreports := team_reports (fun _ => ⟨"team", none, none, 10, false⟩)
    (fun _ => [("builder", ⟨"builder"⟩)]) sonnet
    (fun _ => []) ⟨id, id⟩ "sdk" none 0 (.sdk shippedSdk) rfl {spentWorld} twoTasks (by decide) (by decide) twoSpent
    twoSpent_backed
  have hfailed : ∃ r ∈ twoSpentEnd.board.tasks, r.status = "failed" := by decide +kernel
  obtain ⟨r, hr, hstatus⟩ := hfailed
  refine ⟨r, hr, hstatus, ((hreports r hr).2.2 hstatus).resolve_right fun hmute => ?_⟩
  exact absurd hmute.1 (by decide)

end Swarm.Perpetual.Team
