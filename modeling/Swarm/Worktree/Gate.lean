import Mathlib.Data.List.Sort
import Swarm.Lib.Undo
import Swarm.Worktree.Merge
import Swarm.Worktree.Pipeline

/-! # The base branch against the envelopes and the report -/

namespace Swarm.Worktree

/-! ## What stands on the base branch -/

def Commit.edit : Commit → Lib.Edit String
  | .sha _ => .keep
  | .pick c => .apply c
  | .revert c => .undo c

/-- The picks that no revert took back, each with its place on the branch. -/
def standing (base : List Commit) : List (String × Nat) := Lib.standing (base.map Commit.edit)

theorem standing_picks (base : List Commit) (cs : List String) :
    standing (base ++ cs.map .pick) = (cs.zipIdx base.length).reverse ++ standing base := by
  have hedits : (cs.map Commit.pick).map Commit.edit = cs.map .apply := by simp [Commit.edit]
  rw [standing, List.map_append, hedits, Lib.standing_append, Lib.standingFrom_apply, List.length_map,
    standing]

theorem standing_reverts (base : List Commit) (rs : List String) :
    standing (base ++ rs.map .revert) =
      Lib.standingFrom base.length (standing base) (rs.map .undo) := by
  have hedits : (rs.map Commit.revert).map Commit.edit = rs.map .undo := by simp [Commit.edit]
  rw [standing, List.map_append, hedits, Lib.standing_append, List.length_map, standing]

theorem standing_picks_reverts (base : List Commit) {cs rs : List String}
    (h : rs.Sublist cs.reverse) :
    standing base ⊆ standing (base ++ cs.map .pick ++ rs.map .revert) := by
  have htop : rs.Subperm ((cs.zipIdx base.length).reverse.map Prod.fst) := by
    rw [List.map_reverse, List.zipIdx_map_fst]
    exact h.subperm
  obtain ⟨rest, hrest⟩ :=
    Lib.standingFrom_undo_some (base ++ cs.map Commit.pick).length (standing base) htop
  rw [standing_reverts, standing_picks, hrest]
  exact List.subset_append_right rest _

theorem revertAll_base (gate : Gate) (i : Nat) (cs : List String) (r : Repo) :
    ∃ rs : List String, rs.Sublist cs ∧
      (revertAll gate i cs r).base = r.base ++ rs.map .revert := by
  induction cs generalizing i r with
  | nil => exact ⟨[], .slnil, by simp [revertAll]⟩
  | cons c cs ih =>
    obtain ⟨rs, hsub, hbase⟩ := ih (i + 1) (r.revert c (gate.reverts i))
    simp only [revertAll, hbase]
    cases hc : gate.reverts i with
    | true => exact ⟨c :: rs, hsub.cons_cons c, by simp [Repo.revert]⟩
    | false => exact ⟨rs, hsub.cons c, by simp [Repo.revert]⟩

/-! ## One turn -/

def Recorded (taskId : String) (s : State) : Prop :=
  ∃ pr, s.prs taskId = some (.ok pr) ∧ pr.status = .merged

/-- Git puts every commit of the pull request on the branch. -/
def Picked (git : Git) (pr : PullRequest) : Prop :=
  ∃ cs, git.revList pr.baseSha pr.headSha = .ok cs ∧ cs ≠ [] ∧ ∀ j < cs.length, git.picks j = none

def HeadRead (git : Git) : Prop := ∃ head, git.revParse = .ok head

def TestsPass (flags : Flags) (gate : Gate) : Prop :=
  flags.testCommand = none ∨ ∃ tail, runTestCommand gate.test = .ok (0, tail)

def Others (taskId : String) (s s' : State) : Prop := ∀ t, t ≠ taskId → s'.prs t = s.prs t

/-- How a turn ends that does not raise. -/
inductive Ends (flags : Flags) (git : Git) (gate : Gate) (pr : PullRequest) (report : MergeReport)
    (s : State) : MergeReport × Bool → State → Prop
  | rejected {cs n reasons s'} (hlist : git.revList pr.baseSha pr.headSha = .ok cs)
      (hpicked : Picked git pr → n = cs.length ∧ ¬ HeadRead git)
      (hshort : ¬ Picked git pr → cs = [] ∨ n < cs.length)
      (hbase : s'.repo.base = s.repo.base ++ (cs.take n).map .pick)
      (hothers : Others pr.taskId s s') (hrecorded : ¬ Recorded pr.taskId s') :
      Ends flags git gate pr report s ({ report with rejected := reasons }, !flags.stopOnFailure) s'
  | merged {cs s'} (hlist : git.revList pr.baseSha pr.headSha = .ok cs)
      (hpicked : Picked git pr) (hhead : HeadRead git) (hpass : TestsPass flags gate)
      (hbase : s'.repo.base = s.repo.base ++ cs.map .pick)
      (hothers : Others pr.taskId s s') (hrecorded : Recorded pr.taskId s') :
      Ends flags git gate pr report s ({ report with merged := report.merged ++ [pr.taskId] }, true) s'
  | failed {cs tail s'} {rs : List String} (hlist : git.revList pr.baseSha pr.headSha = .ok cs)
      (hpicked : Picked git pr) (hfail : ¬ TestsPass flags gate) (hsub : rs.Sublist cs.reverse)
      (hbase : s'.repo.base = s.repo.base ++ cs.map .pick ++ rs.map .revert)
      (hothers : Others pr.taskId s s') (hrecorded : Recorded pr.taskId s') :
      Ends flags git gate pr report s
        ({ report with testFailures := assign pr.taskId tail report.testFailures },
          !flags.stopOnFailure) s'

@[simp] theorem cleanup_prs (m : WorktreeManager) (git : Git) (taskId : String) (s : State) :
    (cleanupAfterMerge m git taskId s).2.prs = s.prs := by
  simp only [cleanupAfterMerge, worktreeRemove, worktreePrune, removeDir]
  split_ifs <;> rfl

@[simp] theorem mergeCommits_prs (m : WorktreeManager) (git : Git) (commits : List String)
    (pr : PullRequest) (s : State) : (mergeCommits m git commits pr s).2.prs = s.prs := by
  unfold mergeCommits
  split
  · rfl
  · split
    · rfl
    · simp

theorem others_write (taskId : String) (pr : PullRequest) {s s' : State} (h : s'.prs = s.prs) :
    Others taskId s (s'.write taskId pr) := by
  intro t ht
  simp [State.write, ht, h]

theorem recorded_write (taskId : String) (pr : PullRequest) (s : State) :
    Recorded taskId (s.write taskId pr) ↔ pr.status = .merged := by
  simp [Recorded, State.write]

/-- What the merge of an open pull request leaves, for the loop that called it. -/
theorem mergePr_ends (m : WorktreeManager) {git : Git} {pr merged : PullRequest} {s s' : State}
    (hfile : s.prs pr.taskId = some (.ok pr)) (hopen : pr.status = .open)
    (h : mergePr m git pr.taskId s = (.ok merged, s')) :
    ∃ cs, git.revList pr.baseSha pr.headSha = .ok cs ∧ Others pr.taskId s s' ∧
      (Recorded pr.taskId s' ↔ merged.status = .merged) ∧
      (merged.status = .merged → Picked git pr ∧ HeadRead git ∧
        s'.repo.base = s.repo.base ++ cs.map .pick) ∧
      (merged.status ≠ .merged → ∃ n, s'.repo.base = s.repo.base ++ (cs.take n).map .pick ∧
        (Picked git pr → n = cs.length ∧ ¬ HeadRead git) ∧
        (¬ Picked git pr → cs = [] ∨ n < cs.length)) := by
  cases hlist : git.revList pr.baseSha pr.headSha with
  | error e => simp [mergePr, hfile, hopen, hlist] at h
  | ok cs =>
    refine ⟨cs, rfl, ?_⟩
    -- No commits: the pull request is rejected, and the base stays.
    cases cs with
    | nil =>
      simp only [mergePr, hfile, hopen, hlist, ne_eq, not_true_eq_false, if_false, Prod.mk.injEq,
        Except.ok.injEq] at h
      obtain ⟨rfl, rfl⟩ := h
      refine ⟨others_write _ _ rfl, recorded_write _ _ _, by simp, fun _ => ⟨0, by simp [State.write], ?_, by simp⟩⟩
      rintro ⟨cs, hcs, hne, -⟩
      obtain rfl : [] = cs := by simpa [hlist] using hcs
      exact absurd rfl hne
    | cons c cs =>
      rw [mergePr_open m hfile hopen hlist] at h
      simp only [Prod.mk.injEq, Except.ok.injEq] at h
      obtain ⟨rfl, rfl⟩ := h
      refine ⟨others_write _ _ (mergeCommits_prs ..), recorded_write _ _ _, ?_⟩
      -- Every pick goes through, or the commits before the first that fails stay on the base.
      rcases picks_cases git (c :: cs).length with hall | ⟨j, hj, ⟨e, he⟩, hbefore⟩
      · have hpicked : Picked git pr := ⟨_, hlist, by simp, hall⟩
        cases hhead : git.revParse with
        | ok head =>
          obtain ⟨hs, hb⟩ := mergeCommits_ok m pr s hall hhead
          exact ⟨fun _ => ⟨hpicked, ⟨head, hhead⟩, hb⟩, fun hnot => absurd hs hnot⟩
        | error e =>
          obtain ⟨hs, hb⟩ := mergeCommits_noHead m pr s hall hhead
          refine ⟨fun hm => by simp [hs] at hm, fun _ => ⟨(c :: cs).length, ?_, fun _ => ⟨rfl, ?_⟩, ?_⟩⟩
          · rw [List.take_length]
            exact hb
          · simp [HeadRead, hhead]
          · exact fun hnot => absurd hpicked hnot
      · obtain ⟨hs, hb, -⟩ := mergeCommits_error m pr s hj he hbefore
        refine ⟨fun hm => by simp [hs] at hm, fun _ => ⟨j, hb, fun hp => ?_, fun _ => .inr hj⟩⟩
        obtain ⟨cs', hcs', -, hnone⟩ := hp
        simp only [hlist, Except.ok.injEq] at hcs'
        subst hcs'
        simp [hnone j hj] at he

theorem takeBack_base {git : Git} (gate : Gate) {pr : PullRequest} {cs : List String} (r : Repo)
    (hlist : git.revList pr.baseSha pr.headSha = .ok cs) :
    ∃ rs : List String, rs.Sublist cs.reverse ∧
      (takeBack git gate pr r).base = r.base ++ rs.map .revert := by
  simp only [takeBack, hlist]
  split
  · exact ⟨[], List.nil_sublist _, by simp⟩
  · exact revertAll_base gate 0 cs.reverse r

theorem handle_ends (m : WorktreeManager) {flags : Flags} {git : Git} {gate : Gate}
    {pr : PullRequest} {report : MergeReport} {s s' : State} {out : MergeReport × Bool}
    (hfile : s.prs pr.taskId = some (.ok pr)) (hopen : pr.status = .open)
    (h : handle m flags git gate pr report s = (.ok out, s')) :
    Ends flags git gate pr report s out s' := by
  simp only [handle] at h
  split at h
  · simp at h
  rename_i merged s₁ hmerge
  obtain ⟨cs, hlist, hothers, hrecorded, hmerged, hnot⟩ := mergePr_ends m hfile hopen hmerge
  split at h
  · rename_i hstatus
    -- The merge was refused, and what it picked stays.
    obtain ⟨n, hbase, hpicked, hshort⟩ := hnot hstatus
    simp only [Prod.mk.injEq, Except.ok.injEq] at h
    obtain ⟨rfl, rfl⟩ := h
    exact .rejected hlist hpicked hshort hbase hothers fun hr => hstatus (hrecorded.mp hr)
  · rename_i hstatus
    have hstatus : merged.status = .merged := by simpa using hstatus
    obtain ⟨hpicked, hhead, hbase⟩ := hmerged hstatus
    -- It is merged on file from here on, whatever the gate says.
    have hr := hrecorded.mpr hstatus
    split at h
    · rename_i hnone
      simp only [Prod.mk.injEq, Except.ok.injEq] at h
      obtain ⟨rfl, rfl⟩ := h
      exact .merged hlist hpicked hhead (.inl hnone) hbase hothers hr
    · rename_i hcommand
      split at h
      · simp at h
      rename_i rc tail hrun
      split at h
      · rename_i hrc
        subst hrc
        simp only [Prod.mk.injEq, Except.ok.injEq] at h
        obtain ⟨rfl, rfl⟩ := h
        exact .merged hlist hpicked hhead (.inr ⟨tail, hrun⟩) hbase hothers hr
      · rename_i hrc
        simp only [Prod.mk.injEq, Except.ok.injEq] at h
        obtain ⟨rfl, rfl⟩ := h
        -- The gate fails: the reverts go on top of the picks.
        obtain ⟨rs, hsub, hback⟩ := takeBack_base gate s₁.repo hlist
        refine .failed hlist hpicked ?_ hsub (by rw [hback, hbase]) hothers hr
        rintro (hnone | ⟨tail', hpass⟩)
        · exact hcommand hnone
        · simp [hrun] at hpass
          exact hrc hpass.1

/-! ## What later turns leave alone -/

structure Untouched (taskId : String) (report report' : MergeReport) (s s' : State) : Prop where
  prs : s'.prs taskId = s.prs taskId
  merged : taskId ∈ report'.merged ↔ taskId ∈ report.merged
  failed : taskId ∈ report'.testFailures.map Prod.fst ↔ taskId ∈ report.testFailures.map Prod.fst
  standing : standing s.repo.base ⊆ standing s'.repo.base

theorem Untouched.trans {taskId : String} {r₁ r₂ r₃ : MergeReport} {s₁ s₂ s₃ : State}
    (h : Untouched taskId r₁ r₂ s₁ s₂) (h' : Untouched taskId r₂ r₃ s₂ s₃) :
    Untouched taskId r₁ r₃ s₁ s₃ :=
  ⟨h'.prs.trans h.prs, h'.merged.trans h.merged, h'.failed.trans h.failed,
    List.Subset.trans h.standing h'.standing⟩

theorem mem_assign (key value taskId : String) (d : List (String × String)) :
    taskId ∈ (assign key value d).map Prod.fst ↔ taskId = key ∨ taskId ∈ d.map Prod.fst := by
  unfold assign
  split
  · rename_i hany
    have hkeys : (d.map fun kv => if kv.1 = key then (key, value) else kv).map Prod.fst = d.map Prod.fst := by
      rw [List.map_map]
      refine List.map_congr_left fun kv _ => ?_
      by_cases hkv : kv.1 = key <;> simp [hkv]
    rw [hkeys]
    refine ⟨.inr, ?_⟩
    rintro (rfl | h)
    · obtain ⟨kv, hkv, hk⟩ := List.any_eq_true.mp hany
      exact List.mem_map.mpr ⟨kv, hkv, by simpa using hk⟩
    · exact h
  · simp [or_comm]

theorem standing_picks_subset (base : List Commit) (cs : List String) :
    standing base ⊆ standing (base ++ cs.map .pick) := by
  rw [standing_picks]
  exact List.subset_append_right _ _

theorem Ends.untouched {flags : Flags} {git : Git} {gate : Gate} {pr : PullRequest}
    {report : MergeReport} {s s' : State} {out : MergeReport × Bool} {taskId : String}
    (h : Ends flags git gate pr report s out s') (hne : taskId ≠ pr.taskId) :
    Untouched taskId report out.1 s s' := by
  cases h with
  | rejected _ _ _ hbase hothers _ =>
    exact ⟨hothers _ hne, .rfl, .rfl, by rw [hbase]; exact standing_picks_subset _ _⟩
  | merged _ _ _ _ hbase hothers _ =>
    exact ⟨hothers _ hne, by simp [hne], .rfl, by rw [hbase]; exact standing_picks_subset _ _⟩
  | failed _ _ _ hsub hbase hothers _ =>
    exact ⟨hothers _ hne, .rfl, by simp [mem_assign, hne],
      by rw [hbase]; exact standing_picks_reverts _ hsub⟩

/-! ## The records of one turn -/

/-- The merge of this turn put every commit on the branch, and none of them is taken back. -/
def OnBase (commits : List String) (t : Turn) (base : List Commit) : Prop :=
  commits ≠ [] ∧ t.before ++ commits.map .pick <+: t.after ∧
    ∀ e ∈ commits.zipIdx t.before.length, e ∈ standing base

def commitsOf (git : Git) (pr : PullRequest) : List String :=
  match git.revList pr.baseSha pr.headSha with
  | .ok commits => commits
  | .error _ => []

/-- The branch, the envelope and the report tell the same of this pull request. -/
def Agree (git : Nat → Git) (t : Turn) (report : MergeReport) (s : State) : Prop :=
  (OnBase (commitsOf (git t.number) t.pr) t s.repo.base ↔
    Recorded t.pr.taskId s ∧ t.pr.taskId ∈ report.merged) ∧
  (t.pr.taskId ∈ report.testFailures.map Prod.fst →
    ¬ Recorded t.pr.taskId s ∧ standing t.after = standing t.before)

theorem Ends.agree_iff {flags : Flags} {git : Nat → Git} {gate : Gate} {pr : PullRequest} {i : Nat}
    {report final : MergeReport} {s s' s'' : State} {out : MergeReport × Bool}
    (h : Ends flags (git i) gate pr report s out s') (hnew : pr.taskId ∉ report.merged)
    (hnew' : pr.taskId ∉ report.testFailures.map Prod.fst)
    (hlater : Untouched pr.taskId out.1 final s' s'') :
    Agree git ⟨pr, i, s.repo.base, s'.repo.base⟩ final s'' ↔
      (Picked (git i) pr → HeadRead (git i) ∧ TestsPass flags gate) := by
  have hsame : Recorded pr.taskId s'' ↔ Recorded pr.taskId s' := by simp [Recorded, hlater.prs]
  simp only [Agree, hsame, hlater.merged, hlater.failed]
  cases h with
  | @rejected cs n _ _ hlist hpicked hshort hbase _ hrecorded =>
    simp only [hrecorded, hnew, hnew', false_and, iff_false, false_implies, and_true]
    by_cases hp : Picked (git i) pr
    · -- Every commit is on the branch, and the tip could not be read.
      obtain ⟨hn, hhead⟩ := hpicked hp
      refine iff_of_false (fun hnot => hnot ?_) fun h => hhead (h hp).1
      obtain ⟨cs', hcs', hne, -⟩ := hp
      rw [hn, List.take_length] at hbase
      obtain rfl : cs = cs' := by simpa [hlist] using hcs'
      refine ⟨by simpa [commitsOf, hlist] using hne, by simp [commitsOf, hlist, hbase], fun e he => ?_⟩
      refine hlater.standing ?_
      rw [hbase, standing_picks, List.mem_append, List.mem_reverse]
      exact .inl (by simpa [commitsOf, hlist] using he)
    · refine iff_of_true ?_ fun h => absurd h hp
      rintro ⟨hne, hprefix, -⟩
      rcases hshort hp with rfl | hn
      · simp [commitsOf, hlist] at hne
      · have hlen := hprefix.length_le
        simp [commitsOf, hlist, hbase] at hlen
        omega
  | @merged cs _ hlist hpicked hhead hpass hbase _ hrecorded =>
    obtain ⟨cs', hcs', hne, -⟩ := hpicked
    obtain rfl : cs = cs' := by simpa [hlist] using hcs'
    refine iff_of_true ⟨iff_of_true ?_ ⟨hrecorded, by simp⟩, fun h => absurd h hnew'⟩ fun _ => ⟨hhead, hpass⟩
    refine ⟨by simpa [commitsOf, hlist] using hne, by simp [commitsOf, hlist, hbase], fun e he => ?_⟩
    refine hlater.standing ?_
    rw [hbase, standing_picks, List.mem_append, List.mem_reverse]
    exact .inl (by simpa [commitsOf, hlist] using he)
  | failed _ hpicked hfail _ _ _ hrecorded =>
    -- The report names it a failure, and its envelope says merged.
    refine iff_of_false (fun h => ?_) fun h => hfail (h hpicked).2
    exact (h.2 (by simp [mem_assign])).1 hrecorded

/-! ## The batch -/

/-- Until the loop ends, a pull request with all its picks has its tip read and its tests pass. -/
def Uneventful (flags : Flags) (git : Nat → Git) (gate : Nat → Gate) : Nat → List PullRequest → Prop
  | _, [] => True
  | i, pr :: prs =>
    (Picked (git i) pr → HeadRead (git i) ∧ TestsPass flags (gate i)) ∧
      (Picked (git i) pr ∨ flags.stopOnFailure = false → Uneventful flags git gate (i + 1) prs)

/-- The envelopes of the pull requests are on file and open. -/
def OnFile (prs : List PullRequest) (s : State) : Prop :=
  ∀ pr ∈ prs, s.prs pr.taskId = some (.ok pr) ∧ pr.status = .open

theorem OnFile.tail {pr : PullRequest} {prs : List PullRequest} {flags : Flags} {git : Git}
    {gate : Gate} {report : MergeReport} {s s' : State} {out : MergeReport × Bool}
    (hfile : OnFile (pr :: prs) s) (hnodup : ((pr :: prs).map (·.taskId)).Nodup)
    (h : Ends flags git gate pr report s out s') : OnFile prs s' := by
  intro q hq
  have hne : q.taskId ≠ pr.taskId := by
    rintro heq
    simp only [List.map_cons, List.nodup_cons] at hnodup
    exact hnodup.1 (heq ▸ List.mem_map_of_mem hq)
  rw [(h.untouched hne).prs]
  exact hfile q (by simp [hq])

theorem batch_untouched (m : WorktreeManager) {flags : Flags} {git : Nat → Git} {gate : Nat → Gate}
    {taskId : String} {i : Nat} {prs : List PullRequest} {report final : MergeReport} {s : State}
    (hfile : OnFile prs s) (hnodup : (prs.map (·.taskId)).Nodup)
    (hnot : taskId ∉ prs.map (·.taskId))
    (hok : (batch m flags git gate i prs report s).2.1 = .ok final) :
    Untouched taskId report final s (batch m flags git gate i prs report s).2.2 := by
  induction prs generalizing i report s with
  | nil =>
    simp only [batch, Except.ok.injEq] at hok
    subst hok
    exact ⟨rfl, .rfl, .rfl, List.Subset.refl _⟩
  | cons pr prs ih =>
    obtain ⟨hopen, hstatus⟩ := hfile pr (by simp)
    simp only [List.map_cons, List.mem_cons, not_or] at hnot
    simp only [batch] at hok ⊢
    split at hok
    · simp at hok
    · rename_i r s' hhandle
      simp only [Except.ok.injEq] at hok
      subst hok
      exact (handle_ends m hopen hstatus hhandle).untouched hnot.1
    · rename_i r s' hhandle
      have hends := handle_ends m hopen hstatus hhandle
      exact (hends.untouched hnot.1).trans
        (ih (hfile.tail hnodup hends) (List.nodup_cons.mp hnodup).2 hnot.2 hok)

theorem Ends.stops {flags : Flags} {git : Git} {gate : Gate} {pr : PullRequest}
    {report r : MergeReport} {s s' : State} (h : Ends flags git gate pr report s (r, false) s')
    (hfine : Picked git pr → HeadRead git ∧ TestsPass flags gate) :
    ¬ (Picked git pr ∨ flags.stopOnFailure = false) := by
  generalize hout : (r, false) = out at h
  cases h with
  | rejected _ hpicked =>
    have hstop : false = !flags.stopOnFailure := (Prod.mk.inj hout).2
    rintro (hp | hgo)
    · exact (hpicked hp).2 (hfine hp).1
    · simp [hgo] at hstop
  | merged => simp at hout
  | failed _ hpicked hfail => exact absurd (hfine hpicked).2 hfail

theorem Ends.goesOn {flags : Flags} {git : Git} {gate : Gate} {pr : PullRequest}
    {report r : MergeReport} {s s' : State} (h : Ends flags git gate pr report s (r, true) s') :
    Picked git pr ∨ flags.stopOnFailure = false := by
  generalize hout : (r, true) = out at h
  cases h with
  | rejected => exact .inr (by simpa using (Prod.mk.inj hout).2.symm)
  | merged _ hpicked => exact .inl hpicked
  | failed _ hpicked => exact .inl hpicked

theorem batch_agree_iff (m : WorktreeManager) {flags : Flags} {git : Nat → Git} {gate : Nat → Gate}
    {i : Nat} {prs : List PullRequest} {report final : MergeReport} {s : State}
    (hfile : OnFile prs s) (hnodup : (prs.map (·.taskId)).Nodup)
    (hnew : ∀ pr ∈ prs, pr.taskId ∉ report.merged ∧ pr.taskId ∉ report.testFailures.map Prod.fst)
    (hok : (batch m flags git gate i prs report s).2.1 = .ok final) :
    (∀ t ∈ (batch m flags git gate i prs report s).1,
        Agree git t final (batch m flags git gate i prs report s).2.2) ↔
      Uneventful flags git gate i prs := by
  induction prs generalizing i report s with
  | nil => simp [batch, Uneventful]
  | cons pr prs ih =>
    obtain ⟨hopen, hstatus⟩ := hfile pr (by simp)
    obtain ⟨hnew₁, hnew₂⟩ := hnew pr (by simp)
    obtain ⟨hnot, hnodup'⟩ := List.nodup_cons.mp hnodup
    simp only [batch] at hok ⊢
    split at hok
    · simp at hok
    · rename_i r s' hhandle
      -- The batch stops here, so this pull request decides.
      have hends := handle_ends m hopen hstatus hhandle
      simp only [Except.ok.injEq] at hok
      subst hok
      simp only [List.mem_singleton, forall_eq, Uneventful]
      rw [hends.agree_iff hnew₁ hnew₂ ⟨rfl, .rfl, .rfl, List.Subset.refl _⟩]
      exact ⟨fun hfine => ⟨hfine, fun hon => absurd hon (hends.stops hfine)⟩, fun h => h.1⟩
    · rename_i r s' hhandle
      have hends := handle_ends m hopen hstatus hhandle
      have hfile' := hfile.tail hnodup hends
      -- The batch goes on, and what is left of it does not touch this record.
      have hlater := batch_untouched m hfile' hnodup' hnot hok
      have hnew' : ∀ q ∈ prs, q.taskId ∉ r.merged ∧ q.taskId ∉ r.testFailures.map Prod.fst := by
        intro q hq
        have hne : q.taskId ≠ pr.taskId := fun heq => hnot (List.mem_map.mpr ⟨q, hq, heq⟩)
        have hsame := hends.untouched hne
        exact ⟨fun h => (hnew q (by simp [hq])).1 (hsame.merged.mp h),
          fun h => (hnew q (by simp [hq])).2 (hsame.failed.mp h)⟩
      simp only [List.forall_mem_cons, Uneventful]
      rw [hends.agree_iff hnew₁ hnew₂ hlater, ih hfile' hnodup' hnew' hok]
      exact and_congr_right fun _ => ⟨fun h _ => h, fun h => h hends.goesOn⟩

/-! ## The pipeline -/

theorem openPr_spec {saysOpen : String → Bool} {s : State} {name : String} {pr : PullRequest}
    (hfiled : ∀ t pr, s.prs t = some (.ok pr) → pr.taskId = t)
    (h : openPr saysOpen s name = .ok (some pr)) :
    pr.taskId = name ∧ s.prs pr.taskId = some (.ok pr) ∧ pr.status = .open := by
  unfold openPr at h
  split at h
  · simp at h
  · simp at h
  · rename_i q hq
    split at h
    · rename_i hopen
      obtain rfl : q = pr := by simpa using h
      have hid := hfiled name q hq
      exact ⟨hid, hid ▸ hq, hopen⟩
    · simp at h
  · split at h <;> simp at h

theorem listOpenPrs_spec {names : List String} {saysOpen : String → Bool} {s : State}
    {prs : List PullRequest} (hfiled : ∀ t pr, s.prs t = some (.ok pr) → pr.taskId = t)
    (h : listOpenPrs saysOpen s names = .ok prs) :
    OnFile prs s ∧ (prs.map (·.taskId)).Sublist names := by
  induction names generalizing prs with
  | nil =>
    obtain rfl : [] = prs := by simpa [listOpenPrs] using h
    exact ⟨by simp [OnFile], .slnil⟩
  | cons name rest ih =>
    simp only [listOpenPrs] at h
    cases hfound : openPr saysOpen s name with
    | error e => simp [hfound, bind, Except.bind] at h
    | ok found =>
      cases hrest : listOpenPrs saysOpen s rest with
      | error e => simp [hfound, hrest, bind, Except.bind] at h
      | ok others =>
        obtain rfl : found.toList ++ others = prs := by
          simpa [hfound, hrest, bind, Except.bind, pure, Except.pure] using h
        obtain ⟨hfile, hsub⟩ := ih hrest
        cases found with
        | none => exact ⟨hfile, hsub.cons name⟩
        | some pr =>
          obtain ⟨hid, hopen⟩ := openPr_spec hfiled hfound
          refine ⟨fun q hq => ?_, by simpa [hid] using hsub⟩
          rcases List.mem_cons.mp (by simpa using hq) with rfl | hq
          · exact hopen
          · exact hfile q hq

theorem topologicalOrder_perm (prs : List PullRequest) : (topologicalOrder prs).Perm prs :=
  List.mergeSort_perm _ _

/-- The branch, the envelopes and the report tell the same of every pull request with a turn. -/
def RecordsAgree (m : WorktreeManager) (flags : Flags) (names : List String)
    (saysOpen : String → Bool) (git : Nat → Git) (gate : Nat → Gate) (s : State)
    (report : MergeReport) : Prop :=
  ∀ t ∈ (runPipeline m flags names saysOpen git gate s).1,
    Agree git t report (runPipeline m flags names saysOpen git gate s).2.2

/-- **When the branch, the envelopes and the report agree.** -/
theorem runPipeline_agree_iff (m : WorktreeManager) {flags : Flags} {names : List String}
    {saysOpen : String → Bool} {git : Nat → Git} {gate : Nat → Gate} {s : State}
    {report : MergeReport} (hnames : names.Nodup)
    (hfiled : ∀ t pr, s.prs t = some (.ok pr) → pr.taskId = t)
    (hok : (runPipeline m flags names saysOpen git gate s).2.1 = .ok report) :
    RecordsAgree m flags names saysOpen git gate s report ↔
      ∀ prs, listOpenPrs saysOpen s names = .ok prs →
        (flags.rejectOverlap = true → fileOverlap prs = []) →
        Uneventful flags git gate 0 (topologicalOrder prs) := by
  simp only [RecordsAgree, runPipeline] at hok ⊢
  cases hlist : listOpenPrs saysOpen s names with
  | error e => simp [hlist] at hok
  | ok prs =>
    simp only [hlist, Except.ok.injEq, forall_eq'] at hok ⊢
    by_cases hoverlap : (flags.rejectOverlap && !(fileOverlap prs).isEmpty) = true
    · -- The batch is refused before any turn.
      simp only [hoverlap, if_true, List.not_mem_nil, false_implies, implies_true, true_iff]
      simp only [Bool.and_eq_true, Bool.not_eq_true', List.isEmpty_eq_false_iff] at hoverlap
      exact fun hnone => absurd (hnone hoverlap.1) hoverlap.2
    · rw [if_neg hoverlap] at hok ⊢
      have hpass : flags.rejectOverlap = true → fileOverlap prs = [] := by simpa using hoverlap
      obtain ⟨hfile, hsub⟩ := listOpenPrs_spec hfiled hlist
      have hperm := topologicalOrder_perm prs
      have hfile' : OnFile (topologicalOrder prs) s := fun pr hpr => hfile pr (hperm.mem_iff.mp hpr)
      have hnodup : ((topologicalOrder prs).map (·.taskId)).Nodup :=
        (hperm.map _).nodup_iff.mpr (hsub.nodup hnames)
      rw [batch_agree_iff m hfile' hnodup (by simp) hok]
      exact ⟨fun h _ => h, fun h => h hpass⟩

/-! ## A gate that fails -/

def gated : Flags := ⟨some ["pytest", "-x"], 900, true, true⟩

def gateOf (test : TestRun) : Gate := ⟨test, false, fun _ => true⟩

theorem oneWorker_filed (t : String) (pr : PullRequest) (h : oneWorker.prs t = some (.ok pr)) :
    pr.taskId = t := by
  simp only [oneWorker] at h
  split at h
  · rename_i ht
    obtain rfl : twoCommits = pr := by simpa using h
    exact ht.symm
  · simp at h

theorem oneWorker_listed :
    listOpenPrs (fun _ => false) oneWorker ["t1"] = .ok [twoCommits] := rfl

theorem runPipeline_one (test : TestRun) :
    runPipeline manager gated ["t1"] (fun _ => false) (fun _ => gitOf fun _ => none)
        (fun _ => gateOf test) oneWorker =
      batch manager gated (fun _ => gitOf fun _ => none) (fun _ => gateOf test) 0 [twoCommits]
        ⟨[], [], []⟩ oneWorker := by
  simp [runPipeline, oneWorker_listed, fileOverlap, topologicalOrder]

theorem passing_gate_agrees :
    RecordsAgree manager gated ["t1"] (fun _ => false) (fun _ => gitOf fun _ => none)
      (fun _ => gateOf (.exited 0 "1 passed")) oneWorker ⟨["t1"], [], []⟩ := by
  refine (runPipeline_agree_iff manager (by simp) oneWorker_filed ?_).mpr ?_
  · rw [runPipeline_one]
    rfl
  · rintro prs hlist -
    obtain rfl : [twoCommits] = prs := by simpa [oneWorker_listed] using hlist
    have hone : topologicalOrder [twoCommits] = [twoCommits] := by simp [topologicalOrder]
    rw [hone]
    exact ⟨fun _ => ⟨⟨"tip", rfl⟩, .inr ⟨"1 passed", rfl⟩⟩, fun _ => trivial⟩

/-- The tests fail and every revert succeeds. The envelope says merged all the same. -/
theorem failing_gate_recorded :
    (runPipeline manager gated ["t1"] (fun _ => false) (fun _ => gitOf fun _ => none)
        (fun _ => gateOf (.exited 1 "1 failed")) oneWorker).2.1 =
          .ok ⟨[], [], [("t1", "1 failed")]⟩ ∧
      ¬ RecordsAgree manager gated ["t1"] (fun _ => false) (fun _ => gitOf fun _ => none)
        (fun _ => gateOf (.exited 1 "1 failed")) oneWorker ⟨[], [], [("t1", "1 failed")]⟩ := by
  rw [RecordsAgree, runPipeline_one]
  refine ⟨rfl, fun h => ?_⟩
  obtain ⟨-, hfailed⟩ := h _ (List.mem_singleton_self _)
  exact (hfailed (by simp [twoCommits])).1 ⟨_, rfl, rfl⟩

end Swarm.Worktree
