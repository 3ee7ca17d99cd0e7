import Swarm.Worktree.Code

/-! # What a merge leaves on the base branch -/

namespace Swarm.Worktree

/-! ## The picks -/

theorem pickAll_ok {git : Git} {i : Nat} {cs : List String} (r : Repo)
    (h : ∀ j < cs.length, git.picks (i + j) = none) :
    pickAll git i cs r = (.ok (), { r with base := r.base ++ cs.map .pick }) := by
  induction cs generalizing i r with
  | nil => simp [pickAll]
  | cons c cs ih =>
    have h0 : git.picks i = none := h 0 (by simp)
    have hrest : ∀ j < cs.length, git.picks (i + 1 + j) = none := fun j hj => by
      rw [Nat.add_right_comm]
      exact h (j + 1) (by simpa using hj)
    simp [pickAll, h0, Repo.cherryPick, ih _ hrest]

theorem pickAll_error {git : Git} {i j : Nat} {cs : List String} {e : CalledProcessError} (r : Repo)
    (hj : j < cs.length) (hbefore : ∀ k < j, git.picks (i + k) = none)
    (he : git.picks (i + j) = some e) :
    pickAll git i cs r =
      (.error e, { r with base := r.base ++ (cs.take j).map .pick, picking := some cs[j] }) := by
  induction cs generalizing i j r with
  | nil => simp at hj
  | cons c cs ih =>
    cases j with
    | zero => simp only [Nat.add_zero] at he; simp [pickAll, he, Repo.cherryPick]
    | succ j =>
      have h0 : git.picks i = none := hbefore 0 (by omega)
      have hrest : ∀ k < j, git.picks (i + 1 + k) = none := fun k hk => by
        rw [Nat.add_right_comm]
        exact hbefore (k + 1) (by omega)
      rw [← Nat.add_assoc, Nat.add_right_comm] at he
      simp [pickAll, h0, Repo.cherryPick, ih _ (by simpa using hj) hrest he]

theorem picks_cases (git : Git) (n : Nat) :
    (∀ j < n, git.picks j = none) ∨
      ∃ j < n, (∃ e, git.picks j = some e) ∧ ∀ k < j, git.picks k = none := by
  induction n with
  | zero => exact .inl fun j hj => by omega
  | succ n ih =>
    rcases ih with hall | ⟨j, hj, he, hbefore⟩
    · cases hn : git.picks n with
      | some e => exact .inr ⟨n, by omega, ⟨e, hn⟩, hall⟩
      | none =>
        refine .inl fun j hj => ?_
        rcases Nat.lt_succ_iff_lt_or_eq.mp hj with hlt | rfl
        · exact hall j hlt
        · exact hn
    · exact .inr ⟨j, by omega, he, hbefore⟩

/-! ## The merge -/

@[simp] theorem branchDelete_base (r : Repo) (b : String) : (r.branchDelete b).base = r.base := by
  unfold Repo.branchDelete
  split <;> rfl

theorem cleanup_keeps (m : WorktreeManager) (git : Git) (taskId : String) (s : State) :
    (cleanupAfterMerge m git taskId s).2.repo.base = s.repo.base := by
  simp only [cleanupAfterMerge, worktreeRemove, worktreePrune, removeDir]
  split_ifs <;> simp

theorem mergeCommits_ok (m : WorktreeManager) {git : Git} {commits : List String} (pr : PullRequest)
    (s : State) (hall : ∀ j < commits.length, git.picks j = none) {head : String}
    (hhead : git.revParse = .ok head) :
    (mergeCommits m git commits pr s).1.status = .merged ∧
      (mergeCommits m git commits pr s).2.repo.base = s.repo.base ++ commits.map .pick := by
  have hpicks := pickAll_ok (i := 0) s.repo (by simpa using hall)
  simp [mergeCommits, hpicks, hhead, cleanup_keeps]

theorem mergeCommits_noHead (m : WorktreeManager) {git : Git} {commits : List String}
    (pr : PullRequest) (s : State) (hall : ∀ j < commits.length, git.picks j = none)
    {e : CalledProcessError} (hhead : git.revParse = .error e) :
    (mergeCommits m git commits pr s).1.status = .rejected ∧
      (mergeCommits m git commits pr s).2.repo.base = s.repo.base ++ commits.map .pick := by
  -- The picks are all there, and the envelope says that they were rejected.
  have hpicks := pickAll_ok (i := 0) s.repo (by simpa using hall)
  simp [mergeCommits, hpicks, hhead, rejectMerge, Repo.cherryPickAbort]

theorem mergeCommits_error (m : WorktreeManager) {git : Git} {commits : List String}
    (pr : PullRequest) (s : State) {j : Nat} (hj : j < commits.length) {e : CalledProcessError}
    (he : git.picks j = some e) (hbefore : ∀ k < j, git.picks k = none) :
    (mergeCommits m git commits pr s).1.status = .rejected ∧
      (mergeCommits m git commits pr s).2.repo.base = s.repo.base ++ (commits.take j).map .pick ∧
      (mergeCommits m git commits pr s).2.repo.picking = none := by
  -- The one abort takes back the pick that failed. Those before it stay.
  have hpicks := pickAll_error (i := 0) s.repo hj (by simpa using hbefore) (by simpa using he)
  simp [mergeCommits, hpicks, rejectMerge, Repo.cherryPickAbort]

/-! ## All or nothing -/

/-- A merged envelope has its commits on the base branch, a rejected one leaves it as it was. -/
def AllOrNothing (commits : List String) (before : Repo)
    (out : Except MergeError PullRequest × State) :
    Prop :=
  ∀ pr, out.1 = .ok pr →
    (pr.status = .merged → out.2.repo.base = before.base ++ commits.map .pick) ∧
    (pr.status = .rejected → out.2.repo.base = before.base ∧ out.2.repo.picking = before.picking)

/-- No pick fails after one that succeeded, and the tip can be read when all succeed. -/
def Undivided (git : Git) (commits : List String) : Prop :=
  commits = [] ∨ git.picks 0 ≠ none ∨
    (∀ j < commits.length, git.picks j = none) ∧ ∃ head, git.revParse = .ok head

theorem mergePr_open (m : WorktreeManager) {git : Git} {taskId : String} {s : State}
    {pr : PullRequest} {c : String} {cs : List String} (hfile : s.prs taskId = some (.ok pr))
    (hopen : pr.status = .open) (hlist : git.revList pr.baseSha pr.headSha = .ok (c :: cs)) :
    mergePr m git taskId s =
      (.ok (mergeCommits m git (c :: cs) pr s).1,
        (mergeCommits m git (c :: cs) pr s).2.write taskId (mergeCommits m git (c :: cs) pr s).1) := by
  simp [mergePr, hfile, hopen, hlist]

theorem mergePr_noCommits (m : WorktreeManager) {git : Git} {taskId : String} {s : State}
    {pr : PullRequest} (hfile : s.prs taskId = some (.ok pr)) (hopen : pr.status = .open)
    (hlist : git.revList pr.baseSha pr.headSha = .ok []) :
    AllOrNothing [] s.repo (mergePr m git taskId s) := by
  intro pr' h
  simp only [mergePr, hfile, hopen, hlist, ne_eq, not_true_eq_false, if_false, Except.ok.injEq] at h ⊢
  subst h
  simp [State.write]

/-- **When a merge is all or nothing.** -/
theorem allOrNothing_iff (m : WorktreeManager) {git : Git} {taskId : String} {s : State}
    {pr : PullRequest} {commits : List String} (hfile : s.prs taskId = some (.ok pr))
    (hopen : pr.status = .open) (hclean : s.repo.picking = none)
    (hlist : git.revList pr.baseSha pr.headSha = .ok commits) :
    AllOrNothing commits s.repo (mergePr m git taskId s) ↔ Undivided git commits := by
  cases commits with
  | nil => exact iff_of_true (mergePr_noCommits m hfile hopen hlist) (.inl rfl)
  | cons c cs =>
    rw [mergePr_open m hfile hopen hlist]
    simp only [AllOrNothing, Except.ok.injEq, forall_eq', State.write, hclean]
    rcases picks_cases git (c :: cs).length with hall | ⟨j, hj, ⟨e, he⟩, hbefore⟩
    · cases hhead : git.revParse with
      | ok head =>
        obtain ⟨hs, hb⟩ := mergeCommits_ok m pr s hall hhead
        exact iff_of_true ⟨fun _ => hb, fun h => by simp [hs] at h⟩ (.inr (.inr ⟨hall, head, hhead⟩))
      | error e =>
        -- Rejected, with every pick on the base branch.
        obtain ⟨hs, hb⟩ := mergeCommits_noHead m pr s hall hhead
        refine iff_of_false (fun h => ?_) ?_
        · have hsame := (h.2 hs).1
          simp [hb] at hsame
        · simp [Undivided, hhead, hall 0 (by simp)]
    · obtain ⟨hs, hb, hp⟩ := mergeCommits_error m pr s hj he hbefore
      cases j with
      | zero =>
        refine iff_of_true ⟨fun h => by simp [hs] at h, fun _ => ⟨by simp [hb], hp⟩⟩ ?_
        exact .inr (.inl (by simp [he]))
      | succ j =>
        -- Rejected, with the picks before the failure on the base branch.
        refine iff_of_false (fun h => ?_) ?_
        · have hsame := (h.2 hs).1
          simp [hb] at hsame
        · rintro (h | h | ⟨hall, -⟩)
          · simp at h
          · exact h (hbefore 0 (by omega))
          · simp [hall (j + 1) hj] at he

/-! ## A merge that half happens -/

def twoCommits : PullRequest where
  taskId := "t1"
  branch := "swarm/t1"
  baseBranch := "main"
  worktreePath := "/worktrees/swarm-t1"
  headSha := "b"
  baseSha := "root"
  filesChanged := ["f.txt", "g.txt"]
  diffStat := ""
  title := "t"
  body := "b"
  submittedAt := 0
  status := .open
  mergedAt := none
  mergedIntoSha := none
  rejectionReason := none

def oneWorker : State where
  repo := ⟨[.sha "root"], none, ["swarm/t1"], [("/worktrees/swarm-t1", "swarm/t1")]⟩
  dirs := ["/worktrees/swarm-t1"]
  prs t := if t = "t1" then some (.ok twoCommits) else none
  markers := []

/-- The commits `a` and `b`, and the picks as told. -/
def gitOf (picks : Nat → Option CalledProcessError) : Git where
  revList _ _ := .ok ["a", "b"]
  picks := picks
  revParse := .ok "tip"
  worktreeRemove := true
  rmRf := true
  worktreePrune := true
  unlink := true
  now := 100

def manager : WorktreeManager := ⟨"/worktrees", "swarm"⟩

theorem oneWorker_merges :
    AllOrNothing ["a", "b"] oneWorker.repo (mergePr manager (gitOf fun _ => none) "t1" oneWorker) :=
  (allOrNothing_iff manager (show oneWorker.prs "t1" = some (.ok twoCommits) from rfl) rfl rfl rfl).mpr
    (.inr (.inr ⟨fun _ _ => rfl, "tip", rfl⟩))

/-- The second pick conflicts: the envelope is rejected and the first pick stays. -/
theorem conflict_half_merges :
    ¬ AllOrNothing ["a", "b"] oneWorker.repo
      (mergePr manager (gitOf fun i => if i = 1 then some ⟨"could not apply b", ""⟩ else none) "t1"
        oneWorker) := by
  intro h
  have hsame := (h _ rfl).2 rfl
  simp [mergePr, oneWorker, twoCommits, gitOf, mergeCommits, pickAll, Repo.cherryPick, rejectMerge,
    Repo.cherryPickAbort, State.write] at hsame

end Swarm.Worktree
