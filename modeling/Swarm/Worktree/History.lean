import Swarm.Lib.Runs
import Swarm.Worktree.Account
import Swarm.Worktree.Stale

/-!
# The history of a base branch

Workers submit, and the merges and the batches come in any order, with whatever failures. Each
commit is picked once at most, and each envelope tells what the branch has of its commits.
-/

namespace Swarm.Worktree.History

/-! ## Operations -/

inductive Op
  | call (c : Call)
  | run (flags : Flags) (names : List String) (saysOpen : String → Bool) (git : Nat → Git) (gate : Nat → Gate)

def Op.apply (m : WorktreeManager) (baseBranch : String) (site : Site) : Op → Site
  | .call c => c.apply m baseBranch site
  | .run flags names saysOpen git gate =>
    { site with state := (runPipeline m flags names saysOpen git gate site.state).2.2 }

/-! ## Commits -/

/-- The commits of workers on the branch, in the order of their picks. -/
def picked (base : List Commit) : List String :=
  base.filterMap fun
    | .pick c => some c
    | .sha _ | .revert _ => none

theorem picked_append (base more : List Commit) :
    picked (base ++ more) = picked base ++ picked more :=
  List.filterMap_append

theorem picked_picks (cs : List String) : picked (cs.map .pick) = cs := by
  simp [picked, List.filterMap_map]

theorem picked_reverts (cs : List String) : picked (cs.map .revert) = [] := by
  simp [picked, List.filterMap_map]

section History

-- The commits from one name to another, oldest first. A commit's name fixes its ancestors, so `git rev-list` has one
-- answer.
variable (revList : String → String → List String)

def work (pr : PullRequest) : List String := revList pr.baseSha pr.headSha

def Truthful (git : Git) : Prop := ∀ base head cs, git.revList base head = .ok cs →
    cs = revList base head

/-- The commits of a new envelope are new: none of them is on the branch or in another envelope. -/
structure New (s : State) (taskId : String) (pr : PullRequest) : Prop where
  distinct : (work revList pr).Nodup
  unpicked : ∀ c ∈ work revList pr, c ∉ picked s.repo.base
  apart : ∀ t pr', t ≠ taskId → s.prs t = some (.ok pr') → ∀ c ∈ work revList pr, c ∉ work revList pr'

def Allowed (m : WorktreeManager) (baseBranch : String) (site : Site) : Op → Prop
  | .call (.submitPr taskId path title body git) => ∀ pr,
      (submitPr m baseBranch git taskId path title body site.state).1 = .ok pr → New revList site.state taskId pr
  | .call (.mergePr _ git) => Truthful revList git
  | .run _ _ _ git _ => ∀ i, Truthful revList (git i)
  | .call (.createWorktree ..) | .call (.markStale ..) | .call (.cleanupAfterMerge ..) | .call (.removeWorktree ..)
  | .call (.gcStale ..) => True

/-- What the branch has of the commits of an envelope: none while it is open, all once it is
merged, and the first of them where it was rejected. -/
structure Tells (base : List Commit) (pr : PullRequest) : Prop where
  pending : pr.status = .open → ∀ c ∈ work revList pr, c ∉ picked base
  merged : pr.status = .merged → (picked base).filter (· ∈ work revList pr) = work revList pr
  rejected : pr.status = .rejected → ∃ n, (picked base).filter (· ∈ work revList pr) = (work revList pr).take n

structure Inv (s : State) : Prop where
  once : (picked s.repo.base).Nodup
  tells : ∀ t pr, s.prs t = some (.ok pr) → Tells revList s.repo.base pr
  distinct : ∀ t pr, s.prs t = some (.ok pr) → (work revList pr).Nodup
  apart : ∀ t t' pr pr', t ≠ t' → s.prs t = some (.ok pr) → s.prs t' = some (.ok pr') →
    ∀ c ∈ work revList pr, c ∉ work revList pr'

/-! ## What a call does -/

/-- At most one envelope changes. It was open, and the first of its commits are picked: all of them
if it is merged. -/
inductive Changes (s s' : State) : Prop
  | same (hprs : s'.prs = s.prs) (hpicked : picked s'.repo.base = picked s.repo.base)
  | settled (t : String) (pr pr' : PullRequest) (n : Nat)
      (hfile : s.prs t = some (.ok pr)) (hopen : pr.status = .open)
      (hprs : s'.prs = (s.write t pr').prs) (hwork : work revList pr' = work revList pr)
      (hpicked : picked s'.repo.base = picked s.repo.base ++ (work revList pr).take n)
      (hstatus : pr'.status = .merged ∧ (work revList pr).take n = work revList pr ∨ pr'.status = .rejected)

variable {revList} {m : WorktreeManager} {s s' : State}

theorem changes_nothing (s : State) : Changes revList s s := .same rfl rfl

theorem mergeCommits_work (m : WorktreeManager) (git : Git) (commits : List String)
    (pr : PullRequest) (s : State) :
    work revList (mergeCommits m git commits pr s).1 = work revList pr := by
  unfold mergeCommits
  split
  · rfl
  · split <;> rfl

theorem mergePr_changes {git : Git} (hgit : Truthful revList git) (t : String) (s : State) :
    Changes revList s (mergePr m git t s).2 := by
  cases hfile : s.prs t with
  | none => simpa [mergePr, hfile] using changes_nothing s
  | some read =>
    cases read with
    | error e => simpa [mergePr, hfile] using changes_nothing s
    | ok pr =>
      by_cases hopen : pr.status = .open
      · cases hlist : git.revList pr.baseSha pr.headSha with
        | error e => simpa [mergePr, hfile, hopen, hlist] using changes_nothing s
        | ok cs =>
          have hwork : cs = work revList pr := hgit _ _ _ hlist
          cases cs with
          | nil =>
            simp only [mergePr, hfile, hopen, hlist, ne_eq, not_true_eq_false, if_false]
            exact .settled t pr _ 0 hfile hopen rfl rfl (by simp [State.write]) (.inr rfl)
          | cons c cs =>
            rw [mergePr_open m hfile hopen hlist]
            -- The merge writes one record and picks a part of the listed commits.
            have hprs : ((mergeCommits m git (c :: cs) pr s).2.write t (mergeCommits m git (c :: cs) pr s).1).prs =
                (s.write t (mergeCommits m git (c :: cs) pr s).1).prs := by
              funext t'
              simp [State.write]
            have hkept : work revList (mergeCommits m git (c :: cs) pr s).1 = work revList pr :=
              mergeCommits_work m git (c :: cs) pr s
            have hpicked : ∀ n, (mergeCommits m git (c :: cs) pr s).2.repo.base =
                s.repo.base ++ ((c :: cs).take n).map .pick →
                picked ((mergeCommits m git (c :: cs) pr s).2.write t
                  (mergeCommits m git (c :: cs) pr s).1).repo.base =
                  picked s.repo.base ++ (work revList pr).take n := fun n hbase => by
              rw [← hwork]
              simp only [State.write, hbase, picked_append, picked_picks]
            -- Only where every pick and `rev-parse` succeed is the record set to merged.
            rcases picks_cases git (c :: cs).length with hall | ⟨j, hj, ⟨e, he⟩, hbefore⟩
            · have htake : (c :: cs).take (c :: cs).length = c :: cs := List.take_length
              cases hhead : git.revParse with
              | ok head =>
                obtain ⟨hstatus, hbase⟩ := mergeCommits_ok m pr s hall hhead
                exact .settled t pr _ (c :: cs).length hfile hopen hprs hkept (hpicked _ (by rw [hbase, htake]))
                  (.inl ⟨hstatus, by rw [← hwork, htake]⟩)
              | error e =>
                obtain ⟨hstatus, hbase⟩ := mergeCommits_noHead m pr s hall hhead
                exact .settled t pr _ (c :: cs).length hfile hopen hprs hkept (hpicked _ (by rw [hbase, htake]))
                  (.inr hstatus)
            · obtain ⟨hstatus, hbase, -⟩ := mergeCommits_error m pr s hj he hbefore
              exact .settled t pr _ j hfile hopen hprs hkept (hpicked j hbase) (.inr hstatus)
      · simpa [mergePr, hfile, hopen] using changes_nothing s

theorem Changes.of_same {s'' : State} (h : Changes revList s s') (hprs : s''.prs = s'.prs)
    (hpicked : picked s''.repo.base = picked s'.repo.base) : Changes revList s s'' := by
  cases h with
  | same hprs' hpicked' => exact .same (hprs.trans hprs') (hpicked.trans hpicked')
  | settled t pr pr' n hfile hopen hprs' hwork hpicked' hstatus =>
    exact .settled t pr pr' n hfile hopen (hprs.trans hprs') hwork (hpicked.trans hpicked') hstatus

theorem takeBack_picked (git : Git) (gate : Gate) (pr : PullRequest) (r : Repo) :
    picked (takeBack git gate pr r).base = picked r.base := by
  unfold takeBack
  split
  · split
    · rfl
    · next commits hlist _ =>
      obtain ⟨rs, -, hbase⟩ := revertAll_base gate 0 commits.reverse r
      rw [hbase, picked_append, picked_reverts, List.append_nil]
  · rfl

theorem handle_changes {flags : Flags} {git : Git} {gate : Gate} {pr : PullRequest}
    {report : MergeReport} (hgit : Truthful revList git) (s : State) :
    Changes revList s (handle m flags git gate pr report s).2 := by
  -- A gate that fails adds reverts, and picks nothing.
  have hmerge := mergePr_changes (m := m) hgit pr.taskId s
  unfold handle
  split
  · next heq => rwa [heq] at hmerge
  · next merged s₁ heq =>
    rw [heq] at hmerge
    dsimp only
    split
    · exact hmerge
    · split
      · exact hmerge
      · split
        · exact hmerge
        · split
          · exact hmerge
          · exact hmerge.of_same rfl (takeBack_picked git gate pr s₁.repo)

/-! ## What it keeps -/

theorem write_prs {t t' : String} {pr pr' : PullRequest}
    (h : (s.write t pr).prs t' = some (.ok pr')) :
    t' = t ∧ pr' = pr ∨ t' ≠ t ∧ s.prs t' = some (.ok pr') := by
  simp only [State.write] at h
  split at h
  · next heq => exact .inl ⟨heq, (Except.ok.inj (Option.some.inj h)).symm⟩
  · next hne => exact .inr ⟨hne, h⟩

theorem Inv.write (h : Inv revList s) {t : String} {pr : PullRequest} (hnew : New revList s t pr)
    (hopen : pr.status = .open) : Inv revList (s.write t pr) where
  once := h.once
  tells t' pr' hfile := by
    rcases write_prs hfile with ⟨-, rfl⟩ | ⟨-, hold⟩
    · exact ⟨fun _ => hnew.unpicked, fun hs => by simp [hopen] at hs, fun hs => by simp [hopen] at hs⟩
    · exact h.tells t' pr' hold
  distinct t' pr' hfile := by
    rcases write_prs hfile with ⟨-, rfl⟩ | ⟨-, hold⟩
    · exact hnew.distinct
    · exact h.distinct t' pr' hold
  apart t₁ t₂ pr₁ pr₂ hne h₁ h₂ c hc₁ hc₂ := by
    rcases write_prs h₁ with ⟨rfl, rfl⟩ | ⟨hne₁, hold₁⟩
    · rcases write_prs h₂ with ⟨rfl, -⟩ | ⟨hne₂, hold₂⟩
      · exact hne rfl
      · exact hnew.apart t₂ pr₂ hne₂ hold₂ c hc₁ hc₂
    · rcases write_prs h₂ with ⟨rfl, rfl⟩ | ⟨-, hold₂⟩
      · exact hnew.apart t₁ pr₁ hne₁ hold₁ c hc₂ hc₁
      · exact h.apart t₁ t₂ pr₁ pr₂ hne hold₁ hold₂ c hc₁ hc₂

theorem Tells.congr {base base' : List Commit} {pr : PullRequest} (h : Tells revList base pr)
    (hpicked : picked base' = picked base) : Tells revList base' pr where
  pending := by
    rw [hpicked]
    exact h.pending
  merged := by
    rw [hpicked]
    exact h.merged
  rejected := by
    rw [hpicked]
    exact h.rejected

theorem Tells.append {base base' : List Commit} {pr : PullRequest} (h : Tells revList base pr)
    {cs : List String} (hpicked : picked base' = picked base ++ cs)
    (hothers : ∀ c ∈ cs, c ∉ work revList pr) :
    Tells revList base' pr := by
  have hfilter : (picked base').filter (· ∈ work revList pr) = (picked base).filter (· ∈ work revList pr) := by
    have hnone : cs.filter (· ∈ work revList pr) = [] :=
      List.filter_eq_nil_iff.mpr (by simpa using hothers)
    rw [hpicked, List.filter_append, hnone, List.append_nil]
  refine ⟨fun hs c hc hmem => ?_, fun hs => hfilter.trans (h.merged hs), fun hs => ?_⟩
  · rw [hpicked] at hmem
    rcases List.mem_append.mp hmem with hmem | hmem
    · exact h.pending hs c hc hmem
    · exact hothers c hmem hc
  · obtain ⟨n, hn⟩ := h.rejected hs
    exact ⟨n, hfilter.trans hn⟩

theorem filter_picked {base base' : List Commit} {cs : List String} {n : Nat}
    (hnone : ∀ c ∈ cs, c ∉ picked base) (hpicked : picked base' = picked base ++ cs.take n) :
    (picked base').filter (· ∈ cs) = cs.take n := by
  -- The picks of its own commits, where the branch had none.
  have hold : (picked base).filter (· ∈ cs) = [] := by
    refine List.filter_eq_nil_iff.mpr fun c hc hmem => ?_
    exact hnone c (by simpa using hmem) hc
  have hown : (cs.take n).filter (· ∈ cs) = cs.take n :=
    List.filter_eq_self.mpr fun c hc => by simpa using List.mem_of_mem_take hc
  rw [hpicked, List.filter_append, hold, hown, List.nil_append]

theorem Inv.changes (h : Inv revList s) (hchanges : Changes revList s s') : Inv revList s' := by
  cases hchanges with
  | same hprs hpicked =>
    -- What was picked stays, and so does each record.
    refine ⟨hpicked ▸ h.once, ?_, ?_, ?_⟩
    · rw [hprs]
      exact fun t pr hfile => (h.tells t pr hfile).congr hpicked
    · rw [hprs]
      exact h.distinct
    · rw [hprs]
      exact h.apart
  | settled t pr pr' n hfile hopen hprs hwork hpicked hstatus =>
    have hnone := (h.tells t pr hfile).pending hopen
    -- Until now nothing of this pull request was picked.
    have hentries : ∀ t' pr'', s'.prs t' = some (.ok pr'') →
        t' = t ∧ pr'' = pr' ∨ t' ≠ t ∧ s.prs t' = some (.ok pr'') :=
      fun t' pr'' hfile' => write_prs (hprs ▸ hfile')
    refine ⟨?_, fun t' pr'' hfile' => ?_, fun t' pr'' hfile' => ?_, fun t₁ t₂ pr₁ pr₂ hne h₁ h₂ c hc₁ hc₂ => ?_⟩
    · rw [hpicked]
      refine List.nodup_append.mpr ⟨h.once, (h.distinct t pr hfile).sublist (List.take_sublist n _), ?_⟩
      rintro c hc c' hc' rfl
      exact hnone c (List.mem_of_mem_take hc') hc
    · rcases hentries t' pr'' hfile' with ⟨-, rfl⟩ | ⟨hne, hold⟩
      · have hown := filter_picked hnone hpicked
        rw [← hwork] at hown
        refine ⟨fun hs => ?_, fun hs => ?_, fun _ => ⟨n, hown⟩⟩
        · rcases hstatus with ⟨hs', -⟩ | hs' <;> simp [hs] at hs'
        · rcases hstatus with ⟨-, hall⟩ | hs'
          · rw [hown, hwork, hall]
          · simp [hs] at hs'
      · -- The commits of two pull requests are apart.
        refine (h.tells t' pr'' hold).append hpicked fun c hc => ?_
        exact h.apart t t' pr pr'' (Ne.symm hne) hfile hold c (List.mem_of_mem_take hc)
    · rcases hentries t' pr'' hfile' with ⟨-, rfl⟩ | ⟨-, hold⟩
      · rw [hwork]
        exact h.distinct t pr hfile
      · exact h.distinct t' pr'' hold
    · rcases hentries t₁ pr₁ h₁ with ⟨rfl, rfl⟩ | ⟨-, hold₁⟩
      · rcases hentries t₂ pr₂ h₂ with ⟨rfl, -⟩ | ⟨-, hold₂⟩
        · exact hne rfl
        · exact h.apart t₁ t₂ pr pr₂ hne hfile hold₂ c (hwork ▸ hc₁) hc₂
      · rcases hentries t₂ pr₂ h₂ with ⟨rfl, rfl⟩ | ⟨-, hold₂⟩
        · exact h.apart t₁ t₂ pr₁ pr hne hold₁ hfile c hc₁ (hwork ▸ hc₂)
        · exact h.apart t₁ t₂ pr₁ pr₂ hne hold₁ hold₂ c hc₁ hc₂

/-! ## Every call -/

/-- The envelopes and the branch stay. -/
def Leaves (s s' : State) : Prop := s'.prs = s.prs ∧ s'.repo.base = s.repo.base

theorem Leaves.changes (h : Leaves s s') : Changes revList s s' := .same h.1 (congrArg picked h.2)

theorem leaves_cleanup (git : Git) (taskId : String) (s : State) :
    Leaves s (cleanupAfterMerge m git taskId s).2 :=
  ⟨cleanup_prs m git taskId s, cleanup_keeps m git taskId s⟩

theorem leaves_create (added : Except CalledProcessError Unit) (taskId : String) (s : State) :
    Leaves s (createWorktree m added taskId s).2 := by
  simp only [createWorktree]
  split
  · exact ⟨rfl, rfl⟩
  · split <;> exact ⟨rfl, rfl⟩

theorem leaves_remove (git : Git) (taskId : String) (s : State) :
    Leaves s (removeWorktree m git taskId s) := by
  simp only [removeWorktree, worktreeRemove, worktreePrune, removeDir]
  split_ifs <;> exact ⟨rfl, rfl⟩

theorem leaves_gc (gits : String → Git) (cutoff : ℚ) (markers : List String) (site : Site) :
    Leaves site.state (gcLoop m gits cutoff markers site).2.state := by
  induction markers generalizing site with
  | nil => exact ⟨rfl, rfl⟩
  | cons marker rest ih =>
    rw [gcLoop]
    split
    · exact ih site
    · split
      · exact ih site
      · have hclean := leaves_cleanup (m := m) (gits (target marker)) (target marker) site.state
        have hrest := ih { site with
          state := (cleanupAfterMerge m (gits (target marker)) (target marker) site.state).2 }
        exact ⟨hrest.1.trans hclean.1, hrest.2.trans hclean.2⟩

theorem batch_inv {flags : Flags} {git : Nat → Git} {gate : Nat → Gate}
    (hgit : ∀ i, Truthful revList (git i)) (i : Nat) (prs : List PullRequest)
    (report : MergeReport) (h : Inv revList s) :
    Inv revList (batch m flags git gate i prs report s).2.2 := by
  induction prs generalizing i report s with
  | nil => exact h
  | cons pr prs ih =>
    have hturn : Inv revList (handle m flags (git i) (gate i) pr report s).2 :=
      h.changes (handle_changes (hgit i) s)
    rw [batch]
    split
    · next heq => rwa [heq] at hturn
    · next heq => rwa [heq] at hturn
    · next heq =>
      rw [heq] at hturn
      exact ih (i + 1) _ hturn

theorem submitPr_cases (m : WorktreeManager) (baseBranch : String) (git : Submission)
    (taskId path title body : String) (s : State) :
    (∃ e, submitPr m baseBranch git taskId path title body s = (.error e, s)) ∨
      ∃ pr, pr.status = .open ∧ submitPr m baseBranch git taskId path title body s =
        (.ok pr, s.write taskId pr) := by
  unfold submitPr
  cases git.head with
  | error e => exact .inl ⟨e, rfl⟩
  | ok head =>
    cases git.mergeBase with
    | error e => exact .inl ⟨e, rfl⟩
    | ok base =>
      cases git.diffStat with
      | error e => exact .inl ⟨e, rfl⟩
      | ok diffStat =>
        cases git.files with
        | error e => exact .inl ⟨e, rfl⟩
        | ok files => exact .inr ⟨_, rfl, rfl⟩

theorem apply_inv {baseBranch : String} {site : Site} (h : Inv revList site.state) {op : Op}
    (hallowed : Allowed revList m baseBranch site op) :
    Inv revList (op.apply m baseBranch site).state := by
  cases op with
  | run flags names saysOpen git gate =>
    simp only [Op.apply, runPipeline]
    split
    · exact h
    · split
      · exact h
      · exact batch_inv hallowed 0 _ _ h
  | call c =>
    cases c with
    | createWorktree taskId added => exact h.changes (leaves_create added taskId site.state).changes
    | submitPr taskId path title body git =>
      simp only [Op.apply, Call.apply]
      rcases submitPr_cases m baseBranch git taskId path title body site.state with ⟨e, heq⟩ | ⟨pr, hopen, heq⟩
      · rw [heq]
        exact h
      · have hnew := hallowed pr (by rw [heq])
        rw [heq]
        exact h.write hnew hopen
    | mergePr taskId git => exact h.changes (mergePr_changes hallowed taskId site.state)
    | markStale taskId now => exact h.changes (Leaves.changes ⟨rfl, rfl⟩)
    | cleanupAfterMerge taskId git => exact h.changes (leaves_cleanup git taskId site.state).changes
    | removeWorktree taskId git => exact h.changes (leaves_remove git taskId site.state).changes
    | gcStale maxAgeS now gits => exact h.changes (leaves_gc gits _ _ site).changes

/-! ## Every history -/

theorem inv_start (hprs : ∀ t, s.prs t = none) (hbase : picked s.repo.base = []) :
    Inv revList s where
  once := by simp [hbase]
  tells t pr hfile := by simp [hprs] at hfile
  distinct t pr hfile := by simp [hprs] at hfile
  apart t t' pr pr' _ hfile := by simp [hprs] at hfile

/-- **No commit is merged twice**, whatever fails and however often the merges run, and each
envelope tells what the branch has of its commits. -/
theorem history_accounted (revList : String → String → List String) (m : WorktreeManager)
    (baseBranch : String) (site : Site) (hprs : ∀ t, site.state.prs t = none)
    (hbase : picked site.state.repo.base = []) (ops : List Op)
    (hallowed : ∀ taken ∈ Lib.path (fun op site => some (Op.apply m baseBranch site op)) site ops,
      Allowed revList m baseBranch taken.before taken.label) :
    ∀ taken ∈ Lib.path (fun op site => some (Op.apply m baseBranch site op)) site ops,
      (picked taken.after.state.repo.base).Nodup ∧
        ∀ t pr, taken.after.state.prs t = some (.ok pr) →
          Tells revList taken.after.state.repo.base pr := by
  intro taken htaken
  have hstep : ∀ (site : Site) op site', Inv revList site.state → Allowed revList m baseBranch site op →
      some (Op.apply m baseBranch site op) = some site' → Inv revList site'.state := by
    intro site op site' h hop heq
    obtain rfl := Option.some.inj heq
    exact apply_inv h hop
  have h := Lib.path_invariant hstep site ops (inv_start hprs hbase) hallowed taken htaken
  exact ⟨h.once, h.tells⟩

end History

/-! ## A conflict and a second try -/

def newSite : Site := ⟨{ oneWorker with prs := fun _ => none }, fun _ => 0⟩

def submission : Submission := ⟨.ok "b", .ok "root", .ok "", .ok ["f.txt", "g.txt"], 0⟩

def conflicting : Git := gitOf fun i => if i = 1 then some ⟨"could not apply b", ""⟩ else none

/-- The second pick conflicts, and the batch finds nothing open. -/
def conflictThenMerge : List Op :=
  [.call (.submitPr "t1" "/worktrees/swarm-t1" "t" "b" submission), .call (.mergePr "t1" conflicting),
    .run keepGoing ["t1"] (fun _ => false) (fun _ => gitOf fun _ => none) fun _ => gateOf (.exited 0 "")]

def abStep : Op → Site → Option Site := fun op site => some (Op.apply manager "main" site op)

theorem conflict_accounted :
    (Lib.final abStep newSite conflictThenMerge).state.repo.base = [.sha "root", .pick "a"] ∧
    ∀ taken ∈ Lib.path abStep newSite conflictThenMerge,
      (picked taken.after.state.repo.base).Nodup ∧
        ∀ t pr, taken.after.state.prs t = some (.ok pr) →
          Tells (fun _ _ => ["a", "b"]) taken.after.state.repo.base pr := by
  have htruthful : ∀ picks, Truthful (fun _ _ => ["a", "b"]) (gitOf picks) := by
    intro picks base head cs hcs
    exact (Except.ok.inj hcs).symm
  have hallowed : ∀ taken ∈ Lib.path abStep newSite conflictThenMerge,
      Allowed (fun _ _ => ["a", "b"]) manager "main" taken.before taken.label := by
    refine (Lib.forall_path_cons rfl).mpr ⟨fun pr hpr => ⟨by simp [work], ?_, ?_⟩, ?_⟩
    · intro c hc
      simp [newSite, oneWorker, picked]
    · intro t pr' _ hfile
      simp [newSite] at hfile
    · refine (Lib.forall_path_cons rfl).mpr ⟨htruthful _, ?_⟩
      exact (Lib.forall_path_cons rfl).mpr ⟨fun _ => htruthful _, by simp [Lib.path]⟩
  refine ⟨?_, history_accounted (fun _ _ => ["a", "b"]) manager "main" newSite (fun _ => rfl) (by decide)
    conflictThenMerge hallowed⟩
  have hlist : listOpenPrs (fun _ => false) (mergePr manager conflicting "t1"
      (submitPr manager "main" submission "t1" "/worktrees/swarm-t1"
        "t" "b" newSite.state).2).2 ["t1"] = .ok [] := rfl
  simp only [conflictThenMerge, Lib.final, abStep, Op.apply, Call.apply, runPipeline, hlist, topologicalOrder,
    List.mergeSort_nil]
  rfl

end Swarm.Worktree.History
