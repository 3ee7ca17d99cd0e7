import Swarm.Python

/-!
# Pull requests and their merge, as `worktree.py` computes them

Git and the disk answer through a `Git`. What git does on success is a change of the `Repo`.
-/

namespace Swarm.Worktree

/-! ## Envelopes -/

/-- The `status` of an envelope. Its file may hold any text. -/
inductive Status
  | open
  | merged
  | rejected
  | other (text : String)
  deriving DecidableEq, Repr

structure PullRequest where
  taskId : String
  branch : String
  baseBranch : String
  worktreePath : String
  headSha : String
  baseSha : String
  filesChanged : List String
  diffStat : String
  title : String
  body : String
  submittedAt : ℚ
  status : Status
  mergedAt : Option ℚ
  mergedIntoSha : Option String
  rejectionReason : Option String
  deriving DecidableEq, Repr

/-! ## Git -/

structure CalledProcessError where
  stderr : String
  stdout : String
  deriving DecidableEq, Repr

/-- A commit of the base branch: one with a name of its own, the pick of a worker's commit, or the
revert of one. -/
inductive Commit
  | sha (name : String)
  | pick (of : String)
  | revert (of : String)
  deriving DecidableEq, Repr

/-- The repository, with the base branch checked out at its root. The working tree is that of the
tip, with the conflicts of the pick in progress if there is one. -/
structure Repo where
  base : List Commit
  picking : Option String
  branches : List String
  /-- The path of each linked worktree and its branch. -/
  worktrees : List (String × String)
  deriving DecidableEq, Repr

def Repo.cherryPick (r : Repo) (c : String) :
    Option CalledProcessError → Except CalledProcessError Unit × Repo
  | none => (.ok (), { r with base := r.base ++ [.pick c] })
  | some e => (.error e, { r with picking := some c })

/-- `git cherry-pick --abort`, which fails when no pick is in progress. -/
def Repo.cherryPickAbort (r : Repo) : Repo := { r with picking := none }

/-- `git branch -D`, which refuses a branch that a worktree has checked out. -/
def Repo.branchDelete (r : Repo) (branch : String) : Repo :=
  if r.worktrees.any (·.2 == branch) then r else { r with branches := r.branches.filter (· ≠ branch) }

structure State where
  repo : Repo
  dirs : List String
  /-- What reading an envelope gives, for each task that has one. -/
  prs : String → Option (Except PyError PullRequest)
  markers : List String

/-- The answers of one call. `picks` goes by the number of the pick. -/
structure Git where
  revList : String → String → Except CalledProcessError (List String)
  picks : Nat → Option CalledProcessError
  revParse : Except CalledProcessError String
  worktreeRemove : Bool
  rmRf : Bool
  worktreePrune : Bool
  unlink : Bool
  now : ℚ

structure WorktreeManager where
  worktreesDir : String
  branchPrefix : String

def WorktreeManager.branch (m : WorktreeManager) (taskId : String) : String :=
  m.branchPrefix ++ "/" ++ taskId

def WorktreeManager.worktreePath (m : WorktreeManager) (taskId : String) : String :=
  m.worktreesDir ++ "/" ++ m.branchPrefix ++ "-" ++ taskId

/-! ## Cleanup -/

def removeDir (path : String) (s : State) : State := { s with dirs := s.dirs.filter (· ≠ path) }

/-- `git worktree remove --force`: the directory and its entry. -/
def worktreeRemove (path : String) (s : State) : State :=
  { removeDir path s with
    repo := { s.repo with worktrees := s.repo.worktrees.filter (·.1 ≠ path) } }

/-- `git worktree prune`: the entries whose directory is gone. -/
def worktreePrune (s : State) : State :=
  { s with repo := { s.repo with worktrees := s.repo.worktrees.filter (·.1 ∈ s.dirs) } }

/-- `cleanup_after_merge`: `true` when the worktree was removed. -/
def cleanupAfterMerge (m : WorktreeManager) (git : Git) (taskId : String) (s : State) :
    Bool × State :=
  let path := m.worktreePath taskId
  let out :=
    if path ∉ s.dirs then (false, s)
    else if git.worktreeRemove then (true, worktreeRemove path s)
    else
      let s := if git.rmRf then removeDir path s else s
      if git.worktreePrune then (true, worktreePrune s) else (false, s)
  let s := { out.2 with repo := out.2.repo.branchDelete (m.branch taskId) }
  (out.1, if git.unlink then { s with markers := s.markers.filter (· ≠ taskId) } else s)

/-! ## Merge -/

inductive MergeError
  | fileNotFound (text : String)
  | envelope (e : PyError)
  | calledProcess (e : CalledProcessError)
  deriving DecidableEq, Repr

def State.write (s : State) (taskId : String) (pr : PullRequest) : State :=
  { s with prs := fun t => if t = taskId then some (.ok pr) else s.prs t }

/-- The picks from number `i` on. The first failure ends them. -/
def pickAll (git : Git) (i : Nat) : List String → Repo → Except CalledProcessError Unit × Repo
  | [], r => (.ok (), r)
  | c :: cs, r =>
    match r.cherryPick c (git.picks i) with
    | (.ok _, r) => pickAll git (i + 1) cs r
    | (.error e, r) => (.error e, r)

/-- The `except` of a merge: one abort, then the reason. -/
def rejectMerge (pr : PullRequest) (e : CalledProcessError) (s : State) : PullRequest × State :=
  ({ pr with
    status := .rejected
    rejectionReason := some ("cherry-pick failed: " ++ if e.stderr ≠ "" then e.stderr else e.stdout) },
    { s with repo := s.repo.cherryPickAbort })

def mergeCommits (m : WorktreeManager) (git : Git) (commits : List String) (pr : PullRequest)
    (s : State) : PullRequest × State :=
  match pickAll git 0 commits s.repo with
  | (.error e, repo) => rejectMerge pr e { s with repo := repo }
  | (.ok _, repo) =>
    let s := { s with repo := repo }
    let pr := { pr with status := .merged, mergedAt := some git.now }
    match git.revParse with
    | .error e => rejectMerge pr e s
    | .ok head => ({ pr with mergedIntoSha := some head }, (cleanupAfterMerge m git pr.taskId s).2)

def mergePr (m : WorktreeManager) (git : Git) (taskId : String) (s : State) :
    Except MergeError PullRequest × State :=
  match s.prs taskId with
  | none => (.error (.fileNotFound ("no PR envelope for " ++ taskId)), s)
  | some (.error e) => (.error (.envelope e), s)
  | some (.ok pr) =>
    if pr.status ≠ .open then (.ok pr, s)
    else
      match git.revList pr.baseSha pr.headSha with
      | .error e => (.error (.calledProcess e), s)
      | .ok [] =>
        let pr := { pr with
          status := .rejected, rejectionReason := some "no commits on the worker branch" }
        (.ok pr, s.write taskId pr)
      | .ok commits =>
        let out := mergeCommits m git commits pr s
        (.ok out.1, out.2.write taskId out.1)

end Swarm.Worktree
