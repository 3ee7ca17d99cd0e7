import Swarm.Worktree.Stale

/-!
# When a task can be tried again

A worktree is a directory, an entry in git and a branch. The calls that take it down may leave a
part of it, and the next `create_worktree` looks for the directory only.
-/

namespace Swarm.Worktree

/-! ## Git's part of `create_worktree` -/

/-- `git worktree add -b`, which refuses a branch that exists and a path that is still an entry.
That git also refuses a name that is no ref name (`a..b`, or `t/x` beside `t`) is left out. -/
def Repo.worktreeAdd (r : Repo) (branch path : String) : Except CalledProcessError Unit :=
  if branch ∈ r.branches then .error ⟨"fatal: a branch named '" ++ branch ++ "' already exists", ""⟩
  else if r.worktrees.any (·.1 == path) then
    .error ⟨"fatal: '" ++ path ++ "' is a missing but already registered worktree", ""⟩
  else .ok ()

section

variable (m : WorktreeManager)

/-- `create_worktree` with what git does in this state, for an id whose branch is a ref name. -/
def created (taskId : String) (s : State) : Except CalledProcessError (String × String) × State :=
  createWorktree m (s.repo.worktreeAdd (m.branch taskId) (m.worktreePath taskId)) taskId s

/-- The task can be tried: its path and its branch are returned, and the path then is a worktree on
it. -/
def Retried (taskId : String) (s : State) : Prop :=
  (created m taskId s).1 = .ok (m.worktreePath taskId, m.branch taskId) ∧
    m.worktreePath taskId ∈ (created m taskId s).2.dirs ∧
    (m.worktreePath taskId, m.branch taskId) ∈ (created m taskId s).2.repo.worktrees ∧
    m.branch taskId ∈ (created m taskId s).2.repo.branches

/-! ## Runs -/

/-- A call of the life of a worktree. Whether a removal is forced is in what git answers to it. -/
inductive Op
  | createWorktree (taskId : String)
  | removeWorktree (taskId : String) (git : Git)
  | cleanupAfterMerge (taskId : String) (git : Git)
  | markStale (taskId : String) (now : ℚ)
  | gcStale (maxAgeS now : ℚ) (gits : String → Git)

/-- The call with git's answer to `worktree add`. -/
def Op.call (site : Site) : Op → Call
  | .createWorktree taskId =>
    .createWorktree taskId (site.state.repo.worktreeAdd (m.branch taskId) (m.worktreePath taskId))
  | .removeWorktree taskId git => .removeWorktree taskId git
  | .cleanupAfterMerge taskId git => .cleanupAfterMerge taskId git
  | .markStale taskId now => .markStale taskId now
  | .gcStale maxAgeS now gits => .gcStale maxAgeS now gits

def Op.apply (baseBranch : String) (site : Site) (op : Op) : Site :=
  (op.call m site).apply m baseBranch site

def runOps (baseBranch : String) (start : Site) (ops : List Op) : Site :=
  ops.foldl (Op.apply m baseBranch) start

/-- No worktree, and no branch of a task. -/
structure Fresh (s : State) : Prop where
  dirs : s.dirs = []
  worktrees : s.repo.worktrees = []
  branches : ∀ t, m.branch t ∉ s.repo.branches

/-- The directory goes and git is not told. -/
def Git.losesTrack (git : Git) : Bool := !git.worktreeRemove && git.rmRf && !git.worktreePrune

/-- The call takes the directory of a worktree away and leaves its branch. -/
def Strands (site : Site) : Op → Prop
  | .createWorktree _ | .markStale _ _ => False
  | .removeWorktree t git =>
    m.worktreePath t ∈ site.state.dirs ∧ (git.worktreeRemove || git.rmRf) = true
  | .cleanupAfterMerge t git => m.worktreePath t ∈ site.state.dirs ∧ git.losesTrack = true
  | .gcStale maxAgeS now gits =>
    ∃ t, Due maxAgeS now site t ∧ m.worktreePath t ∈ site.state.dirs ∧ (gits t).losesTrack = true

/-! ## What git and the disk agree on -/

/-- Every directory is an entry of git, and every entry is of one task and has its branch. -/
structure Tracked (s : State) : Prop where
  entry : ∀ t, m.worktreePath t ∈ s.dirs → (m.worktreePath t, m.branch t) ∈ s.repo.worktrees
  owner : ∀ e ∈ s.repo.worktrees, ∃ t, e = (m.worktreePath t, m.branch t)
  branch : ∀ e ∈ s.repo.worktrees, e.2 ∈ s.repo.branches

/-- No branch without its directory. -/
def Whole (s : State) : Prop := ∀ t, m.worktreePath t ∈ s.dirs ∨ m.branch t ∉ s.repo.branches

variable {m}

theorem Tracked.branch_of_dir {s : State} (h : Tracked m s) {t : String}
    (hdir : m.worktreePath t ∈ s.dirs) :
    m.branch t ∈ s.repo.branches :=
  h.branch _ (h.entry t hdir)

theorem Tracked.unregistered {s : State} (h : Tracked m s) {t : String}
    (hfree : m.branch t ∉ s.repo.branches) :
    s.repo.worktrees.any (·.1 == m.worktreePath t) = false := by
  rw [Bool.eq_false_iff]
  intro hany
  obtain ⟨e, he, hpath⟩ := List.any_eq_true.mp hany
  obtain ⟨u, rfl⟩ := h.owner e he
  obtain rfl := (worktreePath_inj m).mp (beq_iff_eq.mp hpath)
  exact hfree (h.branch _ he)

theorem fresh_tracked {s : State} (h : Fresh m s) : Tracked m s where
  entry t hdir := by simp [h.dirs] at hdir
  owner e he := by simp [h.worktrees] at he
  branch e he := by simp [h.worktrees] at he

theorem fresh_whole {s : State} (h : Fresh m s) : Whole m s := fun t => .inr (h.branches t)

/-! ## `create_worktree` -/

/-- With a directory nothing happens, and without one the branch decides. -/
theorem created_cases {s : State} (h : Tracked m s) (t : String) :
    (m.worktreePath t ∈ s.dirs ∧ created m t s = (.ok (m.worktreePath t, m.branch t), s)) ∨
    (m.worktreePath t ∉ s.dirs ∧ m.branch t ∈ s.repo.branches ∧
      ∃ e, created m t s = (.error e, s)) ∨
    (m.worktreePath t ∉ s.dirs ∧ m.branch t ∉ s.repo.branches ∧
      created m t s = (.ok (m.worktreePath t, m.branch t), { s with
        dirs := s.dirs ++ [m.worktreePath t]
        repo := { s.repo with
          branches := s.repo.branches ++ [m.branch t]
          worktrees := s.repo.worktrees ++ [(m.worktreePath t, m.branch t)] } })) := by
  unfold created createWorktree Repo.worktreeAdd
  by_cases hdir : m.worktreePath t ∈ s.dirs
  · exact .inl ⟨hdir, by simp only [if_pos hdir]⟩
  · by_cases hbranch : m.branch t ∈ s.repo.branches
    · exact .inr (.inl ⟨hdir, hbranch, _, by rw [if_neg hdir, if_pos hbranch]⟩)
    · have hfree := h.unregistered hbranch
      refine .inr (.inr ⟨hdir, hbranch, ?_⟩)
      simp only [if_neg hdir, if_neg hbranch, hfree, Bool.false_eq_true, if_false]

theorem retried_iff {s : State} (h : Tracked m s) (t : String) :
    Retried m t s ↔ m.worktreePath t ∈ s.dirs ∨ m.branch t ∉ s.repo.branches := by
  unfold Retried
  rcases created_cases h t with ⟨hdir, hcreated⟩ | ⟨hdir, hbranch, e, hcreated⟩ | ⟨hdir, hbranch, hcreated⟩
  · rw [hcreated]
    exact iff_of_true ⟨rfl, hdir, h.entry t hdir, h.branch_of_dir hdir⟩ (.inl hdir)
  · rw [hcreated]
    simp [hdir, hbranch]
  · rw [hcreated]
    simp [hbranch]

theorem created_tracked {s : State} (h : Tracked m s) (t : String) :
    Tracked m (created m t s).2 := by
  rcases created_cases h t with ⟨-, hcreated⟩ | ⟨-, -, e, hcreated⟩ | ⟨hdir, hbranch, hcreated⟩
  · rwa [hcreated]
  · rwa [hcreated]
  · rw [hcreated]
    refine ⟨fun u hu => ?_, fun e he => ?_, fun e he => ?_⟩
    · rcases List.mem_append.mp hu with hu | hu
      · exact List.mem_append_left _ (h.entry u hu)
      · obtain rfl := (worktreePath_inj m).mp (List.mem_singleton.mp hu)
        simp
    · rcases List.mem_append.mp he with he | he
      · exact h.owner e he
      · exact ⟨t, List.mem_singleton.mp he⟩
    · rcases List.mem_append.mp he with he | he
      · exact List.mem_append_left _ (h.branch e he)
      · simp [List.mem_singleton.mp he]

theorem created_whole {s : State} (h : Tracked m s) (hwhole : Whole m s) (t : String) :
    Whole m (created m t s).2 := by
  rcases created_cases h t with ⟨-, hcreated⟩ | ⟨-, -, e, hcreated⟩ | ⟨hdir, hbranch, hcreated⟩
  · rwa [hcreated]
  · rwa [hcreated]
  · rw [hcreated]
    intro u
    rcases hwhole u with hu | hu
    · exact .inl (List.mem_append_left _ hu)
    · by_cases hsame : u = t
      · subst hsame
        exact .inl (by simp)
      · exact .inr (by simp [hu, mt (branch_inj m).mp hsame])

/-! ## Taking down -/

/-- What a removal leaves. Git forgets no entry whose directory is there. -/
structure Removed (m : WorktreeManager) (git : Git) (t : String) (s after : State) : Prop where
  branches : after.repo.branches = s.repo.branches
  dirs : ∀ p, p ∈ after.dirs ↔ p ∈ s.dirs ∧ ¬ (p = m.worktreePath t ∧ (git.worktreeRemove || git.rmRf) = true)
  subset : ∀ e ∈ after.repo.worktrees, e ∈ s.repo.worktrees
  kept : ∀ e ∈ s.repo.worktrees, e.1 ∈ after.dirs → e ∈ after.repo.worktrees
  forgotten : m.worktreePath t ∈ s.dirs → (git.worktreeRemove || git.rmRf) = true → git.losesTrack = false →
    ∀ e ∈ after.repo.worktrees, e.1 ≠ m.worktreePath t

theorem removeWorktree_removed (git : Git) (t : String) (s : State) :
    Removed m git t s (removeWorktree m git t s) := by
  by_cases hdir : m.worktreePath t ∈ s.dirs
  · cases hremove : git.worktreeRemove <;> cases hrm : git.rmRf <;> cases hprune : git.worktreePrune <;>
      constructor <;>
      simp [removeWorktree, worktreeRemove, worktreePrune, removeDir, Git.losesTrack, hdir, hremove, hrm, hprune] <;>
      grind
  · have hsame : removeWorktree m git t s = s := by
      simp only [removeWorktree, if_pos hdir]
    rw [hsame]
    refine ⟨rfl, fun p => (and_iff_left_of_imp ?_).symm, fun _ he => he, fun _ he _ => he, fun h => absurd h hdir⟩
    rintro hp ⟨rfl, -⟩
    exact hdir hp

theorem Removed.tracked {git : Git} {t : String} {s after : State} (h : Removed m git t s after)
    (htracked : Tracked m s) : Tracked m after where
  entry u hu := h.kept _ (htracked.entry u ((h.dirs _).mp hu).1) hu
  owner e he := htracked.owner e (h.subset e he)
  branch e he := by
    rw [h.branches]
    exact htracked.branch e (h.subset e he)

theorem cleanup_removed (git : Git) (t : String) (s : State) :
    (cleanupAfterMerge m git t s).2.dirs = (removeWorktree m git t s).dirs ∧
      (cleanupAfterMerge m git t s).2.repo =
        (removeWorktree m git t s).repo.branchDelete (m.branch t) := by
  -- A cleanup is a removal, and then the branch is deleted where git lets it.
  simp only [cleanupAfterMerge, removeWorktree]
  split_ifs <;> exact ⟨rfl, rfl⟩

theorem branchDelete_worktrees (r : Repo)
    (branch : String) : (r.branchDelete branch).worktrees = r.worktrees := by
  unfold Repo.branchDelete
  split <;> rfl

theorem branchDelete_keeps {r : Repo} {branch other : String} (hother : other ∈ r.branches)
    (hout : ∃ e ∈ r.worktrees, e.2 = other) : other ∈ (r.branchDelete branch).branches := by
  unfold Repo.branchDelete
  split
  · exact hother
  · next hfree =>
    obtain ⟨e, he, rfl⟩ := hout
    simp only [List.any_eq_true, not_exists, not_and, beq_iff_eq] at hfree
    exact List.mem_filter.mpr ⟨hother, by simpa using hfree e he⟩

theorem branchDelete_subset {r : Repo} {branch other : String}
    (h : other ∈ (r.branchDelete branch).branches) :
    other ∈ r.branches := by
  unfold Repo.branchDelete at h
  split at h
  · exact h
  · exact (List.mem_filter.mp h).1

theorem branchDelete_gone {r : Repo} {branch : String} (hfree : ∀ e ∈ r.worktrees, e.2 ≠ branch) :
    branch ∉ (r.branchDelete branch).branches := by
  have hany : r.worktrees.any (·.2 == branch) = false := by simpa using hfree
  simp [Repo.branchDelete, hany]

theorem cleanup_tracked {s : State} (h : Tracked m s) (git : Git) (t : String) :
    Tracked m (cleanupAfterMerge m git t s).2 := by
  obtain ⟨hdirs, hrepo⟩ := cleanup_removed (m := m) git t s
  obtain ⟨hentry, howner, hbranch⟩ := (removeWorktree_removed (m := m) git t s).tracked h
  refine ⟨fun u hu => ?_, fun e he => ?_, fun e he => ?_⟩
  · rw [hrepo, branchDelete_worktrees]
    rw [hdirs] at hu
    exact hentry u hu
  · rw [hrepo, branchDelete_worktrees] at he
    exact howner e he
  · rw [hrepo, branchDelete_worktrees] at he
    rw [hrepo]
    exact branchDelete_keeps (hbranch e he) ⟨e, he, rfl⟩

theorem removeWorktree_whole {s : State} (hwhole : Whole m s) {git : Git} {t : String}
    (hkeeps : ¬ (m.worktreePath t ∈ s.dirs ∧ (git.worktreeRemove || git.rmRf) = true)) :
    Whole m (removeWorktree m git t s) := by
  have hremoved := removeWorktree_removed (m := m) git t s
  intro u
  refine (hwhole u).imp (fun hu => (hremoved.dirs _).mpr ⟨hu, ?_⟩) fun hu => ?_
  · rintro ⟨hpath, hgone⟩
    exact hkeeps ⟨hpath ▸ hu, hgone⟩
  · rwa [hremoved.branches]

theorem cleanup_whole {s : State} (h : Tracked m s) (hwhole : Whole m s) {git : Git} {t : String}
    (hkeeps : ¬ (m.worktreePath t ∈ s.dirs ∧ git.losesTrack = true)) :
    Whole m (cleanupAfterMerge m git t s).2 := by
  have hremoved := removeWorktree_removed (m := m) git t s
  obtain ⟨hdirs, hrepo⟩ := cleanup_removed (m := m) git t s
  intro u
  rw [hdirs, hrepo, hremoved.dirs]
  by_cases hfree : m.branch u ∈ s.repo.branches
  · have hdir := (hwhole u).resolve_right (not_not.mpr hfree)
    by_cases hgone : m.worktreePath u = m.worktreePath t ∧ (git.worktreeRemove || git.rmRf) = true
    · -- The directory of the task goes, so git forgets its entry and gives up its branch.
      obtain ⟨hpath, hremoves⟩ := hgone
      obtain rfl := (worktreePath_inj m).mp hpath
      have htold : git.losesTrack = false := by
        rw [Bool.eq_false_iff]
        exact fun hloses => hkeeps ⟨hdir, hloses⟩
      refine .inr (branchDelete_gone fun e he hbranch => ?_)
      obtain ⟨v, rfl⟩ := h.owner e (hremoved.subset e he)
      obtain rfl := (branch_inj m).mp hbranch
      exact hremoved.forgotten hdir hremoves htold _ he rfl
    · exact .inl ⟨hdir, hgone⟩
  · refine .inr fun hleft => hfree ?_
    rw [← hremoved.branches]
    exact branchDelete_subset hleft

/-! ## The sweep -/

theorem gcLoop_tracked (gits : String → Git) (cutoff : ℚ) (markers : List String) {site : Site}
    (h : Tracked m site.state) : Tracked m (gcLoop m gits cutoff markers site).2.state := by
  induction markers generalizing site with
  | nil => exact h
  | cons marker rest ih =>
    rw [gcLoop]
    split
    · exact ih h
    split
    · exact ih h
    · exact ih (cleanup_tracked h _ _)

theorem gcLoop_whole (gits : String → Git) (cutoff : ℚ) (markers : List String) {site : Site}
    (h : Tracked m site.state) (hwhole : Whole m site.state)
    (hkeeps : ∀ t ∈ (gcLoop m gits cutoff markers site).1,
      ¬ (m.worktreePath t ∈ site.state.dirs ∧ (gits t).losesTrack = true)) :
    Whole m (gcLoop m gits cutoff markers site).2.state := by
  induction markers generalizing site with
  | nil => exact hwhole
  | cons marker rest ih =>
    rw [gcLoop] at hkeeps ⊢
    split at hkeeps
    · next hgone =>
      rw [if_pos hgone]
      exact ih h hwhole hkeeps
    next hthere =>
    split at hkeeps
    · next hyoung =>
      rw [if_neg hthere, if_pos hyoung]
      exact ih h hwhole hkeeps
    · next hold =>
      rw [if_neg hthere, if_neg hold]
      refine ih (cleanup_tracked h _ _) (cleanup_whole h hwhole (hkeeps _ (by simp))) ?_
      rintro t ht ⟨hdir, hloses⟩
      refine hkeeps t (List.mem_cons_of_mem _ ht) ⟨?_, hloses⟩
      rw [(cleanup_removed (m := m) _ _ _).1] at hdir
      exact (((removeWorktree_removed (m := m) _ _ _).dirs _).mp hdir).1

/-! ## Every run -/

variable (baseBranch : String)

theorem apply_tracked {site : Site} (h : Tracked m site.state) (op : Op) :
    Tracked m (op.apply m baseBranch site).state := by
  cases op with
  | createWorktree t => exact created_tracked h t
  | removeWorktree t git => exact (removeWorktree_removed git t site.state).tracked h
  | cleanupAfterMerge t git => exact cleanup_tracked h git t
  | markStale t now => exact ⟨h.entry, h.owner, h.branch⟩
  | gcStale maxAgeS now gits => exact gcLoop_tracked gits _ _ h

theorem apply_whole {site : Site} (h : Tracked m site.state) (hwhole : Whole m site.state) {op : Op}
    (hkeeps : ¬ Strands m site op) : Whole m (op.apply m baseBranch site).state := by
  cases op with
  | createWorktree t => exact created_whole h hwhole t
  | removeWorktree t git => exact removeWorktree_whole hwhole hkeeps
  | cleanupAfterMerge t git => exact cleanup_whole h hwhole hkeeps
  | markStale t now => exact hwhole
  | gcStale maxAgeS now gits =>
    refine gcLoop_whole gits _ _ h hwhole fun t ht hlost => hkeeps ⟨t, ?_, hlost⟩
    exact (mem_gcStale m gits maxAgeS now site t).mp ht

theorem runOps_tracked {start : Site} (h : Tracked m start.state) (ops : List Op) :
    Tracked m (runOps m baseBranch start ops).state := by
  induction ops generalizing start with
  | nil => exact h
  | cons op rest ih => exact ih (apply_tracked baseBranch h op)

theorem runOps_whole {start : Site} (h : Tracked m start.state) (hwhole : Whole m start.state)
    {ops : List Op} (hkeeps : ∀ past op later, ops = past ++ op :: later →
      ¬ Strands m (runOps m baseBranch start past) op) :
    Whole m (runOps m baseBranch start ops).state := by
  induction ops generalizing start with
  | nil => exact hwhole
  | cons op rest ih =>
    refine ih (apply_tracked baseBranch h op) (apply_whole baseBranch h hwhole (hkeeps [] op rest rfl)) ?_
    rintro past next later rfl
    exact hkeeps (op :: past) next later rfl

end

/-! ## A task that is removed -/

theorem emptySite_fresh : Fresh manager emptySite.state := ⟨rfl, rfl, by simp [emptySite]⟩

def obeyingGit : Git := gitOf fun _ => none

end Swarm.Worktree
