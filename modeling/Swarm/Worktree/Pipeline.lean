import Swarm.Worktree.Code

/-!
# The merge pipeline, as `merge_pipeline.py` computes it

Every merge has a `Git` of its own and every test gate a `Gate`, both by the number of the pull
request in the batch.
-/

namespace Swarm.Worktree

structure MergeReport where
  merged : List String
  rejected : List (String × String)
  testFailures : List (String × String)
  deriving DecidableEq, Repr

/-- `d[key] = value` on the items of a dict. -/
def assign (key value : String) (d : List (String × String)) : List (String × String) :=
  if d.any (·.1 == key) then d.map fun kv => if kv.1 = key then (key, value) else kv
  else d ++ [(key, value)]

/-! ## Overlap and order -/

/-- `sorted(set(a.files_changed) & set(b.files_changed))` -/
def common (a b : PullRequest) : List String :=
  (a.filesChanged.filter (· ∈ b.filesChanged)).dedup.mergeSort fun x y => decide (x ≤ y)

def fileOverlap : List PullRequest → List (String × String × List String)
  | [] => []
  | a :: rest =>
    (rest.filterMap fun b =>
      if common a b = [] then none else some (a.taskId, b.taskId, common a b)) ++ fileOverlap rest

/-- Smallest diff first, then the oldest. `sorted` is stable. -/
def topologicalOrder (prs : List PullRequest) : List PullRequest :=
  prs.mergeSort fun p q =>
    p.filesChanged.length < q.filesChanged.length ||
      p.filesChanged.length == q.filesChanged.length && decide (p.submittedAt ≤ q.submittedAt)

def reprChar (quote c : Char) : String :=
  if c = quote || c = '\\' then "\\" ++ c.toString
  else if c = '\n' then "\\n"
  else if c = '\r' then "\\r"
  else if c = '\t' then "\\t"
  else if c.toNat < 32 || c.toNat = 127 then
    "\\x" ++ String.ofList [Nat.digitChar (c.toNat / 16), Nat.digitChar (c.toNat % 16)]
  else c.toString

/-- `repr` of a string whose characters past ASCII all print. -/
def reprStr (s : String) : String :=
  let quote := if '\'' ∈ s.toList && !decide ('"' ∈ s.toList) then '"' else '\''
  quote.toString ++ String.join (s.toList.map (reprChar quote)) ++ quote.toString

def reprStrs (l : List String) : String := "[" ++ String.intercalate ", " (l.map reprStr) ++ "]"

/-- The report of a batch that is refused. A later overlap of one task replaces the text of the
earlier one. -/
def rejectOverlaps (overlaps : List (String × String × List String)) : MergeReport :=
  overlaps.foldl
    (fun report o =>
      let text := "file overlap with " ++ o.2.1 ++ ": " ++ reprStrs (o.2.2.take 3)
      { report with rejected := assign o.1 text report.rejected })
    ⟨[], [], []⟩

/-! ## The gate -/

inductive TestRun
  | exited (returncode : Int) (output : String)
  /-- `FileNotFoundError` or `TimeoutExpired`. -/
  | error (text : String)
  | raised (e : Raised)
  deriving DecidableEq, Repr

def runTestCommand : TestRun → Except Raised (Int × String)
  | .exited rc out => .ok (rc, String.ofList (out.toList.drop (out.toList.length - 2000)))
  | .error text => .ok (1, "test runner error: " ++ text)
  | .raised e => .error e

/-- The second `rev-list` names the commits that the first one named, or fails. `reverts` goes by
the number of the revert. -/
structure Gate where
  test : TestRun
  revListFails : Bool
  reverts : Nat → Bool

/-- `git revert --no-edit`. One that fails leaves the branch as it was. -/
def Repo.revert (r : Repo) (c : String) (succeeds : Bool) : Repo :=
  if succeeds then { r with base := r.base ++ [.revert c] } else r

/-- The reverts from number `i` on. A failure does not end them. -/
def revertAll (gate : Gate) (i : Nat) : List String → Repo → Repo
  | [], r => r
  | c :: cs, r => revertAll gate (i + 1) cs (r.revert c (gate.reverts i))

def takeBack (git : Git) (gate : Gate) (pr : PullRequest) (r : Repo) : Repo :=
  match git.revList pr.baseSha pr.headSha with
  | .ok commits => if gate.revListFails then r else revertAll gate 0 commits.reverse r
  | .error _ => r

/-! ## The batch -/

structure Flags where
  testCommand : Option (List String)
  testTimeoutS : Int
  rejectOverlap : Bool
  stopOnFailure : Bool

inductive PipelineError
  | listing (e : PyError)
  | merge (e : MergeError)
  | test (e : Raised)
  deriving DecidableEq, Repr

/-- One turn of the loop: the report, and whether the loop goes on. -/
def handle (m : WorktreeManager) (flags : Flags) (git : Git) (gate : Gate) (pr : PullRequest)
    (report : MergeReport) (s : State) : Except PipelineError (MergeReport × Bool) × State :=
  match mergePr m git pr.taskId s with
  | (.error e, s) => (.error (.merge e), s)
  | (.ok merged, s) =>
    if merged.status ≠ .merged then
      let reason := merged.rejectionReason.getD ""
      let reason := if reason = "" then "rejected" else reason
      (.ok ({ report with rejected := assign pr.taskId reason report.rejected }, !flags.stopOnFailure), s)
    else if flags.testCommand = none then
      (.ok ({ report with merged := report.merged ++ [pr.taskId] }, true), s)
    else
      match runTestCommand gate.test with
      | .error e => (.error (.test e), s)
      | .ok (rc, tail) =>
        if rc = 0 then (.ok ({ report with merged := report.merged ++ [pr.taskId] }, true), s)
        else
          (.ok ({ report with testFailures := assign pr.taskId tail report.testFailures },
            !flags.stopOnFailure), { s with repo := takeBack git gate pr s.repo })

/-- A pull request that the loop took up, and the base branch before and after its turn. -/
structure Turn where
  pr : PullRequest
  number : Nat
  before : List Commit
  after : List Commit

def batch (m : WorktreeManager) (flags : Flags) (git : Nat → Git) (gate : Nat → Gate) (i : Nat) :
    List PullRequest → MergeReport → State → List Turn × Except PipelineError MergeReport × State
  | [], report, s => ([], .ok report, s)
  | pr :: prs, report, s =>
    match handle m flags (git i) (gate i) pr report s with
    | (.error e, s') => ([⟨pr, i, s.repo.base, s'.repo.base⟩], .error e, s')
    | (.ok (report, false), s') => ([⟨pr, i, s.repo.base, s'.repo.base⟩], .ok report, s')
    | (.ok (report, true), s') =>
      let rest := batch m flags git gate (i + 1) prs report s'
      (⟨pr, i, s.repo.base, s'.repo.base⟩ :: rest.1, rest.2)

/-- What one file adds to the list. Text that is not JSON is passed over. `saysOpen` tells whether
an envelope that does not fit the class is open. -/
def openPr (saysOpen : String → Bool) (s : State) (name : String) :
    Except PyError (Option PullRequest) :=
  match s.prs name with
  | none | some (.error (.valueError _)) => .ok none
  | some (.ok pr) => .ok (if pr.status = .open then some pr else none)
  | some (.error e) => if saysOpen name then .error e else .ok none

/-- `list_open_prs`, for the names that the directory gives, in order. -/
def listOpenPrs (saysOpen : String → Bool) (s : State) :
    List String → Except PyError (List PullRequest)
  | [] => .ok []
  | name :: rest => do
    let found ← openPr saysOpen s name
    let prs ← listOpenPrs saysOpen s rest
    return found.toList ++ prs

def runPipeline (m : WorktreeManager) (flags : Flags) (names : List String)
    (saysOpen : String → Bool) (git : Nat → Git) (gate : Nat → Gate) (s : State) :
    List Turn × Except PipelineError MergeReport × State :=
  match listOpenPrs saysOpen s names with
  | .error e => ([], .error (.listing e), s)
  | .ok prs =>
    if flags.rejectOverlap && !(fileOverlap prs).isEmpty then
      ([], .ok (rejectOverlaps (fileOverlap prs)), s)
    else batch m flags git gate 0 (topologicalOrder prs) ⟨[], [], []⟩ s

end Swarm.Worktree
