import Mathlib.Data.List.Dedup
import Swarm.Worktree.Merge

/-! # The sweep of stale worktrees -/

namespace Swarm.Worktree

/-- The disk with the times that `mark_stale` wrote. A marker names the task of its file. -/
structure Site where
  state : State
  markedAt : String → ℚ

/-! ## Calls that leave the markers alone -/

/-- `create_worktree` with the answer of `git worktree add -b`. A path that exists is used again. -/
def createWorktree (m : WorktreeManager) (added : Except CalledProcessError Unit) (taskId : String)
    (s : State) :
    Except CalledProcessError (String × String) × State :=
  let branch := m.branch taskId
  let path := m.worktreePath taskId
  if path ∈ s.dirs then (.ok (path, branch), s)
  else
    match added with
    | .error e => (.error e, s)
    | .ok _ =>
      (.ok (path, branch), { s with
        dirs := s.dirs ++ [path]
        repo := { s.repo with
          branches := s.repo.branches ++ [branch], worktrees := s.repo.worktrees ++ [(path, branch)] } })

/-- What git answers to `submit_pr`. `files` has the lines that are not blank. -/
structure Submission where
  head : Except CalledProcessError String
  mergeBase : Except CalledProcessError String
  diffStat : Except CalledProcessError String
  files : Except CalledProcessError (List String)
  now : ℚ

def submitPr (m : WorktreeManager) (baseBranch : String) (git : Submission)
    (taskId worktreePath title body : String) (s : State) :
    Except CalledProcessError PullRequest × State :=
  let pr : Except CalledProcessError PullRequest := do
    let head ← git.head
    let base ← git.mergeBase
    let diffStat ← git.diffStat
    let files ← git.files
    return {
      taskId := taskId
      branch := m.branch taskId
      baseBranch := baseBranch
      worktreePath := worktreePath
      headSha := head
      baseSha := base
      filesChanged := files
      diffStat := diffStat
      title := title
      body := body
      submittedAt := git.now
      status := .open
      mergedAt := none
      mergedIntoSha := none
      rejectionReason := none }
  match pr with
  | .error e => (.error e, s)
  | .ok pr => (.ok pr, s.write taskId pr)

/-- `git worktree remove` may refuse a dirty tree without `force`, which `git` answers for. -/
def removeWorktree (m : WorktreeManager) (git : Git) (taskId : String) (s : State) : State :=
  let path := m.worktreePath taskId
  if path ∉ s.dirs then s
  else if git.worktreeRemove then worktreeRemove path s
  else
    let s := if git.rmRf then removeDir path s else s
    if git.worktreePrune then worktreePrune s else s

/-! ## Markers -/

def markStale (taskId : String) (now : ℚ) (site : Site) : Site where
  state := { site.state with
    markers := if taskId ∈ site.state.markers then site.state.markers else site.state.markers ++ [taskId] }
  markedAt := fun t => if t = taskId then now else site.markedAt t

/-- `meta.get("task_id") or marker.stem`: the file of the empty id is `.json`. -/
def target (marker : String) : String := if marker = "" then ".json" else marker

/-- `sorted(stale_meta_dir.glob("*.json"))`. The marker of an id with a slash is in a directory
below. -/
def listed (site : Site) : List String :=
  (site.state.markers.filter fun t => '/' ∉ t.toList).dedup.mergeSort fun t u => decide (t ++ ".json" ≤ u ++ ".json")

/-- The loop of `gc_stale`, with one `Git` for each task. A marker that is gone when its turn comes
cannot be read. -/
def gcLoop (m : WorktreeManager) (gits : String → Git) (cutoff : ℚ) :
    List String → Site → List String × Site
  | [], site => ([], site)
  | marker :: rest, site =>
    if marker ∉ site.state.markers then gcLoop m gits cutoff rest site
    else if cutoff < site.markedAt marker then gcLoop m gits cutoff rest site
    else
      let taskId := target marker
      let state := (cleanupAfterMerge m (gits taskId) taskId site.state).2
      let out := gcLoop m gits cutoff rest { site with state := state }
      (taskId :: out.1, out.2)

def gcStale (m : WorktreeManager) (gits : String → Git) (maxAgeS now : ℚ) (site : Site) :
    List String × Site :=
  gcLoop m gits (now - maxAgeS) (listed site) site

/-! ## Runs -/

inductive Call
  | createWorktree (taskId : String) (added : Except CalledProcessError Unit)
  | submitPr (taskId worktreePath title body : String) (git : Submission)
  | mergePr (taskId : String) (git : Git)
  | markStale (taskId : String) (now : ℚ)
  | cleanupAfterMerge (taskId : String) (git : Git)
  | removeWorktree (taskId : String) (git : Git)
  | gcStale (maxAgeS now : ℚ) (gits : String → Git)

variable (m : WorktreeManager) (baseBranch : String)

def Call.apply (site : Site) : Call → Site
  | .createWorktree taskId added =>
    { site with state := (Worktree.createWorktree m added taskId site.state).2 }
  | .submitPr taskId path title body git =>
    { site with state := (Worktree.submitPr m baseBranch git taskId path title body site.state).2 }
  | .mergePr taskId git => { site with state := (Worktree.mergePr m git taskId site.state).2 }
  | .markStale taskId now => Worktree.markStale taskId now site
  | .cleanupAfterMerge taskId git =>
    { site with state := (Worktree.cleanupAfterMerge m git taskId site.state).2 }
  | .removeWorktree taskId git =>
    { site with state := Worktree.removeWorktree m git taskId site.state }
  | .gcStale maxAgeS now gits => (Worktree.gcStale m gits maxAgeS now site).2

def runCalls (start : Site) (calls : List Call) : Site :=
  calls.foldl (Call.apply m baseBranch) start

/-- `create_worktree` was called for the task since it was last marked stale. -/
def Live (taskId : String) (past : List Call) : Prop :=
  ∃ before after added, past = before ++ .createWorktree taskId added :: after ∧
    ∀ now, Call.markStale taskId now ∉ after

/-- The worktree and the branch of the task stay. -/
def Kept (gits : String → Git) (maxAgeS now : ℚ) (site : Site) (taskId : String) : Prop :=
  let out := gcStale m gits maxAgeS now site
  (m.worktreePath taskId ∈ site.state.dirs → m.worktreePath taskId ∈ out.2.state.dirs) ∧
    (m.branch taskId ∈ site.state.repo.branches → m.branch taskId ∈ out.2.state.repo.branches)

/-- The worktree of the task is there, and git or `rm -rf` takes it away when it is told to. -/
def Removable (gits : String → Git) (site : Site) (taskId : String) : Prop :=
  m.worktreePath taskId ∈ site.state.dirs ∧ ((gits taskId).worktreeRemove = true ∨ (gits taskId).rmRf = true)

/-- The sweep will take the task: a marker for it is there and old enough. -/
def Due (maxAgeS now : ℚ) (site : Site) (taskId : String) : Prop :=
  ∃ marker ∈ listed site, site.markedAt marker ≤ now - maxAgeS ∧ target marker = taskId

/-! ## The sweep -/

theorem target_ne_empty (marker : String) : target marker ≠ "" := by
  unfold target
  split
  · decide
  · assumption

theorem target_self {marker : String} (h : marker ≠ "") : target marker = marker := if_neg h

theorem worktreePath_inj {t u : String} : m.worktreePath t = m.worktreePath u ↔ t = u := by
  unfold WorktreeManager.worktreePath
  rw [String.append_right_inj]

theorem branch_inj {t u : String} : m.branch t = m.branch u ↔ t = u := by
  unfold WorktreeManager.branch
  rw [String.append_right_inj]

theorem cleanup_markers (git : Git) (taskId : String) (s : State) :
    (cleanupAfterMerge m git taskId s).2.markers = s.markers ∨
      (cleanupAfterMerge m git taskId s).2.markers = s.markers.filter (· ≠ taskId) := by
  simp only [cleanupAfterMerge, worktreeRemove, worktreePrune, removeDir]
  split_ifs <;> simp

theorem cleanup_others (git : Git) {taskId other : String} (hne : other ≠ taskId) (s : State) :
    (m.worktreePath other ∈ s.dirs →
        m.worktreePath other ∈ (cleanupAfterMerge m git taskId s).2.dirs) ∧
      (m.branch other ∈ s.repo.branches →
        m.branch other ∈ (cleanupAfterMerge m git taskId s).2.repo.branches) := by
  have hpath : m.worktreePath other ≠ m.worktreePath taskId := mt (worktreePath_inj m).mp hne
  have hbranch : m.branch other ≠ m.branch taskId := mt (branch_inj m).mp hne
  have hdelete : ∀ r : Repo, m.branch other ∈ r.branches →
      m.branch other ∈ (r.branchDelete (m.branch taskId)).branches := by
    intro r hr
    unfold Repo.branchDelete
    split
    · exact hr
    · exact List.mem_filter.mpr ⟨hr, by simpa using hbranch⟩
  constructor
  · intro hdir
    simp only [cleanupAfterMerge, worktreeRemove, worktreePrune, removeDir]
    split_ifs <;> simp [hdir, hpath]
  · intro hthere
    simp only [cleanupAfterMerge, worktreeRemove, worktreePrune, removeDir]
    split_ifs <;> exact hdelete _ hthere

/-- The sweep takes the tasks of the old markers. A marker that a cleanup took before its turn
is that of a task which was swept. -/
theorem mem_gcLoop (gits : String → Git) (cutoff : ℚ) (markers : List String) (site : Site)
    (taskId : String) :
    taskId ∈ (gcLoop m gits cutoff markers site).1 ↔
      ∃ marker ∈ markers, marker ∈ site.state.markers ∧ site.markedAt marker ≤ cutoff ∧
        target marker = taskId := by
  induction markers generalizing site with
  | nil => simp [gcLoop]
  | cons marker rest ih =>
    rw [gcLoop, List.exists_mem_cons_iff]
    split
    · next hgone => simp [ih, hgone]
    split
    · next hyoung => simp [ih, not_le.mpr hyoung]
    next hthere hold =>
    have hmem : marker ∈ site.state.markers := not_not.mp hthere
    rw [List.mem_cons, ih]
    dsimp only
    set after := (cleanupAfterMerge m (gits (target marker)) (target marker) site.state).2 with hafter
    have hsub : ∀ t ∈ after.markers, t ∈ site.state.markers := by
      intro t ht
      rcases cleanup_markers m (gits (target marker)) (target marker) site.state with heq | heq
      · rwa [hafter, heq] at ht
      · rw [hafter, heq] at ht
        exact (List.mem_filter.mp ht).1
    constructor
    · rintro (rfl | ⟨t, ht, hin, h⟩)
      · exact .inl ⟨hmem, not_lt.mp hold, rfl⟩
      · exact .inr ⟨t, ht, hsub t hin, h⟩
    · rintro (⟨-, -, rfl⟩ | ⟨t, ht, hin, h, rfl⟩)
      · exact .inl rfl
      · by_cases hleft : t ∈ after.markers
        · exact .inr ⟨t, ht, hleft, h, rfl⟩
        · -- Only the cleanup can have taken it, so it is its task's own marker.
          rcases cleanup_markers m (gits (target marker)) (target marker) site.state with heq | heq
          · rw [hafter, heq] at hleft
            exact absurd hin hleft
          · obtain rfl : t = target marker := by
              by_contra hne
              rw [hafter, heq] at hleft
              exact hleft (List.mem_filter.mpr ⟨hin, by simpa using hne⟩)
            exact .inl (target_self (target_ne_empty marker))

theorem gcLoop_others (gits : String → Git) (cutoff : ℚ) (markers : List String) (site : Site)
    {taskId : String} (h : taskId ∉ (gcLoop m gits cutoff markers site).1) :
    (m.worktreePath taskId ∈ site.state.dirs →
        m.worktreePath taskId ∈ (gcLoop m gits cutoff markers site).2.state.dirs) ∧
      (m.branch taskId ∈ site.state.repo.branches →
        m.branch taskId ∈ (gcLoop m gits cutoff markers site).2.state.repo.branches) := by
  induction markers generalizing site with
  | nil => exact ⟨id, id⟩
  | cons marker rest ih =>
    rw [gcLoop] at h ⊢
    split at h
    · next hgone =>
      rw [if_pos hgone]
      exact ih site h
    next hthere =>
    split at h
    · next hyoung =>
      rw [if_neg hthere, if_pos hyoung]
      exact ih site h
    · next hold =>
      rw [if_neg hthere, if_neg hold]
      rw [List.mem_cons, not_or] at h
      obtain ⟨hne, hrest⟩ := h
      obtain ⟨hdir, hbranch⟩ := cleanup_others m (gits (target marker)) hne site.state
      obtain ⟨hdir', hbranch'⟩ := ih _ hrest
      exact ⟨fun hd => hdir' (hdir hd), fun hb => hbranch' (hbranch hb)⟩

theorem mem_gcStale (gits : String → Git) (maxAgeS now : ℚ) (site : Site) (taskId : String) :
    taskId ∈ (gcStale m gits maxAgeS now site).1 ↔ Due maxAgeS now site taskId := by
  unfold gcStale Due
  rw [mem_gcLoop]
  refine exists_congr fun marker => and_congr_right fun hlisted => and_iff_right ?_
  rw [listed, List.mem_mergeSort, List.mem_dedup] at hlisted
  exact (List.mem_filter.mp hlisted).1

theorem kept_of_not_due {gits : String → Git} {maxAgeS now : ℚ} {site : Site} {taskId : String}
    (h : ¬ Due maxAgeS now site taskId) : Kept m gits maxAgeS now site taskId := by
  rw [← mem_gcStale m gits] at h
  exact gcLoop_others m gits (now - maxAgeS) (listed site) site h

theorem cleanup_dirs (git : Git) (taskId : String) (s : State) :
    (cleanupAfterMerge m git taskId s).2.dirs ⊆ s.dirs ∧
      (git.worktreeRemove = true ∨ git.rmRf = true →
        m.worktreePath taskId ∉ (cleanupAfterMerge m git taskId s).2.dirs) := by
  simp only [cleanupAfterMerge, worktreeRemove, worktreePrune, removeDir]
  split_ifs <;> simp_all

theorem gcLoop_takes (gits : String → Git) (cutoff : ℚ) (markers : List String) (site : Site) :
    (gcLoop m gits cutoff markers site).2.state.dirs ⊆ site.state.dirs ∧
      ∀ taskId ∈ (gcLoop m gits cutoff markers site).1,
        (gits taskId).worktreeRemove = true ∨ (gits taskId).rmRf = true →
          m.worktreePath taskId ∉ (gcLoop m gits cutoff markers site).2.state.dirs := by
  induction markers generalizing site with
  | nil => exact ⟨List.Subset.refl _, by simp [gcLoop]⟩
  | cons marker rest ih =>
    rw [gcLoop]
    split
    · exact ih site
    split
    · exact ih site
    · obtain ⟨hsub, hgone⟩ := cleanup_dirs m (gits (target marker)) (target marker) site.state
      let swept := { site with state := (cleanupAfterMerge m (gits (target marker)) (target marker) site.state).2 }
      obtain ⟨hsub', htakes⟩ := ih swept
      refine ⟨List.Subset.trans hsub' hsub, fun taskId hmem hgit => ?_⟩
      rcases List.mem_cons.mp hmem with rfl | hmem
      · exact fun hdir => hgone hgit (hsub' hdir)
      · exact htakes taskId hmem hgit

/-- A sweep keeps the worktrees it could remove exactly where they are not due. -/
theorem kept_iff {gits : String → Git} {maxAgeS now : ℚ} {site : Site} {taskId : String}
    (h : Removable m gits site taskId) : Kept m gits maxAgeS now site taskId ↔
      ¬ Due maxAgeS now site taskId := by
  refine ⟨fun hkept hdue => ?_, kept_of_not_due m⟩
  have hswept := (mem_gcStale m gits maxAgeS now site taskId).mpr hdue
  exact (gcLoop_takes m gits (now - maxAgeS) (listed site) site).2 taskId hswept h.2 (hkept.1 h.1)

/-- A repository with no worktree. -/
def emptySite : Site := ⟨⟨⟨[.sha "root"], none, [], []⟩, [], fun _ => none, []⟩, fun _ => 0⟩

/-- A task fails at 0 and is retried, which uses its worktree again. -/
def retried : List Call :=
  [.createWorktree "t1" (.ok ()), .markStale "t1" 0, .createWorktree "t1" (.ok ())]

theorem retried_live : Live "t1" retried :=
  ⟨[.createWorktree "t1" (.ok ()), .markStale "t1" 0], [], .ok (), rfl, by simp⟩

end Swarm.Worktree
