import Mathlib.Data.Finset.Sort
import Mathlib.Logic.Function.Basic
import Swarm.Kanban.Update
import Swarm.Lib.Runs

/-!
# The intake of GitHub issues, as `github_tasks.py` does it

A call of `generate` polls, loads the seen file, submits one issue after the other and saves the
file. Each of these is a step, and steps of other calls may come between.
-/

namespace Swarm.GithubTasks

open Kanban Swarm.Lib

/-! ## Issues and tasks -/

/-- An issue as `gh` lists it, with `none` for a key that is absent or null. -/
structure Issue where
  number : Option Int
  title : Option String
  body : Option String
  url : Option String

def isSpace (c : Char) : Bool :=
  let n := c.toNat
  n == 32 || (9 ≤ n && n ≤ 13) || (28 ≤ n && n ≤ 31) || n == 0x85 || n == 0xA0 || n == 0x1680 ||
    (0x2000 ≤ n && n ≤ 0x200A) || n == 0x2028 || n == 0x2029 || n == 0x202F || n == 0x205F || n == 0x3000

/-- `str.strip()`. -/
def strip (text : String) : String :=
  String.ofList (((text.toList.dropWhile isSpace).reverse.dropWhile isSpace).reverse)

/-- `v or default` for a text. -/
def textOr (v : Option String) (default : String) : String :=
  match v with
  | some "" | none => default
  | some s => s

/-- The config of one `GitHubWorkSource`. -/
structure GitHubWorkSource where
  enabled : Bool
  requiredHead : String
  priority : Int
  pollInterval : ℚ

/-- The task of an issue. -/
def issueToTask (src : GitHubWorkSource) (issue : Issue) (number : Int) (id : String)
    (createdAt : ℚ) : Task :=
  let title := textOr issue.title ("GitHub issue #" ++ toString number)
  let url := textOr issue.url ""
  { Task.new id createdAt with
    type := "github-issue"
    title := "GH#" ++ toString number ++ ": " ++ title
    prompt := strip ("GitHub Issue #" ++ toString number ++ ": " ++ title ++ "\n\nURL: " ++ url ++
      "\n\n---\n\n" ++ textOr issue.body "" ++ "\n")
    priority := src.priority
    requiredHead := src.requiredHead
    metadata := .obj [("github_issue_number", .int number), ("github_url", .str url)] }

/-! ## The seen file -/

/-- The numbers in the file, which is absent at first. -/
abbrev SeenFile := Option (List Int)

/-- A file that cannot be read counts as one without numbers. -/
def loadSeen (file : SeenFile) (readable : Bool) : Finset Int :=
  if readable then (file.getD []).toFinset else ∅

/-- `_save_seen` writes the whole set, sorted. -/
def saveSeen (seen : Finset Int) : SeenFile := some (seen.sort (· ≤ ·))

@[simp] theorem loadSeen_saveSeen (seen : Finset Int) : loadSeen (saveSeen seen) true = seen := by
  simp [loadSeen, saveSeen]

/-! ## One issue -/

/-- How a submit ends. Its two statements are not one transaction. -/
inductive Submission
  | stored
  | refused
  /-- The task is stored, and its timeline row refused. -/
  | unrecorded
  deriving DecidableEq, Repr

/-- What a submit leaves on the board, whichever way it ends. -/
def submit (how : Submission) (b : Board) (task : Task) (ts : ℚ) : Option Task × Board :=
  match how with
  | .stored => ((Kanban.submit b task ts).1.toOption, (Kanban.submit b task ts).2)
  | .refused => (none, b)
  | .unrecorded => (none, (b.insert task.toRow).toOption.getD b)

/-- One turn of the loop. -/
def fileOne (src : GitHubWorkSource) (issue : Issue) (id : String) (createdAt ts : ℚ)
    (how : Submission) (b : Board) (seen : Finset Int) (filed : List String) :
    Board × Finset Int × List String :=
  match issue.number with
  | none => (b, seen, filed)
  | some number =>
    if number ∈ seen then (b, seen, filed)
    else
      match submit how b (issueToTask src issue number id createdAt) ts with
      | (some task, b) => (b, insert number seen, filed ++ [task.id])
      | (none, b) => (b, seen, filed)

/-! ## Calls -/

/-- Where a call of `generate` stands. -/
inductive Call
  /-- Past the check of `_last_poll`. -/
  | polling (now : ℚ)
  | fetched (issues : List Issue)
  /-- The issues to come, the set in memory and the ids of the tasks filed. -/
  | filing (issues : List Issue) (seen : Finset Int) (filed : List String)

variable {Thread Source : Type*} [DecidableEq Thread] [DecidableEq Source]

/-- A thread is in a call of one instance at most. Threads may share an instance. -/
structure Intake (Thread Source : Type*) where
  board : Board
  file : SeenFile
  calls : Thread → Option (Source × Call)
  lastPoll : Source → ℚ

inductive Label (Thread Source : Type*)
  /-- The start of `generate`. -/
  | poll (t : Thread) (p : Source) (now : ℚ)
  /-- The poll is noted, and `gh` answers. -/
  | fetch (t : Thread) (available : Bool) (issues : List Issue)
  | load (t : Thread) (readable : Bool)
  /-- The next issue, with the id and the times of its task. -/
  | submit (t : Thread) (id : String) (createdAt ts : ℚ) (how : Submission)
  | save (t : Thread) (succeeds : Bool)
  /-- The call ends where it is. A process that ends does this to each of its threads. -/
  | crash (t : Thread)
  | restart (p : Source)

def setCall (s : Intake Thread Source) (t : Thread) (call : Option (Source × Call)) :
    Intake Thread Source :=
  { s with calls := Function.update s.calls t call }

/-- `generate` polls only when it is enabled and `poll_interval` has passed. -/
def due (src : GitHubWorkSource) (now lastPoll : ℚ) : Bool :=
  src.enabled && !decide (now - lastPoll < src.pollInterval)

/-- One step of one call. A step that the call cannot make where it stands gives `none`. -/
def step (sources : Source → GitHubWorkSource) (l : Label Thread Source)
    (s : Intake Thread Source) :
    Option (Intake Thread Source) :=
  match l with
  | .poll t p now =>
    match s.calls t with
    | none => some (if due (sources p) now (s.lastPoll p) then setCall s t (some (p, .polling now)) else s)
    | some _ => none
  | .fetch t available issues =>
    match s.calls t with
    | some (p, .polling now) =>
      let s := { s with lastPoll := Function.update s.lastPoll p now }
      some (setCall s t (if !available || issues.isEmpty then none else some (p, .fetched issues)))
    | _ => none
  | .load t readable =>
    match s.calls t with
    | some (p, .fetched issues) =>
      some (setCall s t (some (p, .filing issues (loadSeen s.file readable) [])))
    | _ => none
  | .submit t id createdAt ts how =>
    match s.calls t with
    | some (p, .filing (issue :: rest) seen filed) =>
      let (b, seen, filed) := fileOne (sources p) issue id createdAt ts how s.board seen filed
      some (setCall { s with board := b } t (some (p, .filing rest seen filed)))
    | _ => none
  | .save t succeeds =>
    match s.calls t with
    | some (_, .filing [] seen filed) =>
      if filed = [] || !succeeds then some (setCall s t none)
      else some (setCall { s with file := saveSeen seen } t none)
    | _ => none
  | .crash t => some (setCall s t none)
  | .restart p => some { s with lastPoll := Function.update s.lastPoll p 0 }

def start (b : Board) : Intake Thread Source := ⟨b, none, fun _ => none, fun _ => 0⟩

/-! ## The numbers on the board -/

/-- `metadata["github_issue_number"]` of a row. -/
def issueNumber (r : Row) : Option Int :=
  match decode (.obj []) r.metadata with
  | .obj e =>
    match Json.get e "github_issue_number" with
    | .int n => some n
    | _ => none
  | _ => none

/-- The issues that have tasks on the board, once for each task. -/
def numbers (b : Board) : List Int := b.tasks.filterMap issueNumber

/-- No two tasks carry one number. -/
def Once (s : Intake Thread Source) : Prop := (numbers s.board).Nodup

/-! ## One submit -/

theorem issueNumber_issueToTask (src : GitHubWorkSource) (issue : Issue) (number : Int)
    (id : String) (createdAt : ℚ) :
    issueNumber (issueToTask src issue number id createdAt).toRow = some number :=
  rfl

theorem submit_adds {how : Submission} (b : Board) (task : Task) (ts : ℚ) (hhow : how ≠ .refused)
    (hnew : ∀ r ∈ b.tasks, r.id ≠ task.id) :
    ∃ b', submit how b task ts = (if how = .stored then some task else none, b') ∧
      b'.tasks = b.tasks ++ [task.toRow] := by
  cases how with
  | stored =>
    obtain ⟨b', hsubmit, htasks, -⟩ := submit_filed b task ts hnew
    exact ⟨b', by simp [submit, hsubmit, Except.toOption], htasks⟩
  | refused => exact absurd rfl hhow
  | unrecorded =>
    obtain ⟨b', hinsert, htasks, -⟩ := insert_new b task hnew
    exact ⟨b', by simp [submit, hinsert, Except.toOption], htasks⟩

theorem submit_keeps {how : Submission} (b : Board) (task : Task) (ts : ℚ)
    (h : how = .refused ∨ ¬ ∀ r ∈ b.tasks, r.id ≠ task.id) : submit how b task ts = (none, b) := by
  cases how with
  | stored =>
    obtain ⟨e, hsubmit⟩ := submit_refused b task ts (h.resolve_left (by simp))
    simp [submit, hsubmit, Except.toOption]
  | refused => rfl
  | unrecorded =>
    obtain ⟨e, hinsert⟩ := insert_old b task (h.resolve_left (by simp))
    simp [submit, hinsert, Except.toOption]

theorem fileOne_spec (src : GitHubWorkSource) (issue : Issue) (id : String) (createdAt ts : ℚ)
    (how : Submission) (b : Board) (seen : Finset Int) (filed : List String) :
    (∃ number, issue.number = some number ∧ number ∉ seen ∧ how ≠ .refused ∧
      (∀ r ∈ b.tasks, r.id ≠ id) ∧
      numbers (fileOne src issue id createdAt ts how b seen filed).1 = numbers b ++ [number] ∧
      (how = .stored → (fileOne src issue id createdAt ts how b seen filed).2.1 =
        insert number seen ∧
        (fileOne src issue id createdAt ts how b seen filed).2.2 ≠ [])) ∨
    ((∀ number, issue.number = some number → number ∉ seen → how ≠ .refused →
      ¬ ∀ r ∈ b.tasks, r.id ≠ id) ∧
      fileOne src issue id createdAt ts how b seen filed = (b, seen, filed)) := by
  unfold fileOne
  cases hnumber : issue.number with
  | none => exact .inr ⟨by simp, rfl⟩
  | some number =>
    by_cases hseen : number ∈ seen
    · exact .inr ⟨by simp [hseen], by simp [hseen]⟩
    let task := issueToTask src issue number id createdAt
    by_cases hkept : how = .refused ∨ ¬ ∀ r ∈ b.tasks, r.id ≠ id
    · refine .inr ⟨fun _ _ _ hhow => hkept.resolve_left hhow, ?_⟩
      simp [hseen, submit_keeps b task ts hkept, task]
    · obtain ⟨hhow, hnew⟩ := not_or.mp hkept
      obtain ⟨b', hsubmit, htasks⟩ := submit_adds b task ts hhow (not_not.mp hnew)
      have hnumbers : numbers b' = numbers b ++ [number] := by
        simp [numbers, htasks, task, issueNumber_issueToTask]
      refine .inl ⟨number, rfl, hseen, hhow, not_not.mp hnew, ?_, fun hstored => ?_⟩
      · rw [← hnumbers]
        by_cases hstored : how = .stored
        · rw [if_pos hstored] at hsubmit
          simp [hseen, task, hsubmit]
        · rw [if_neg hstored] at hsubmit
          simp [hseen, task, hsubmit]
      · rw [if_pos hstored] at hsubmit
        simp [hseen, task, hsubmit]

/-! ## One step -/

variable {sources : Source → GitHubWorkSource}

/-- A submit turns the first issue of a call. No other step touches the board. -/
theorem step_cases {l : Label Thread Source} {s s' : Intake Thread Source}
    (h : step sources l s = some s') :
    (∃ t id createdAt ts how p issue rest seen filed, l = .submit t id createdAt ts how ∧
      s.calls t = some (p, .filing (issue :: rest) seen filed) ∧
      let out := fileOne (sources p) issue id createdAt ts how s.board seen filed
      s' = setCall { s with board := out.1 } t (some (p, .filing rest out.2.1 out.2.2))) ∨
    s'.board = s.board := by
  cases l with
  | submit t id createdAt ts how =>
    simp only [step] at h
    split at h
    · next p issue rest seen filed hcall =>
      obtain rfl := Option.some.inj h
      exact .inl ⟨t, id, createdAt, ts, how, p, issue, rest, seen, filed, rfl, hcall, rfl⟩
    · cases h
  -- The other steps are about the calls, the file and the poll times.
  | poll t p now =>
    simp only [step] at h
    split at h
    · obtain rfl := Option.some.inj h
      exact .inr (by split <;> rfl)
    · cases h
  | save t succeeds =>
    simp only [step] at h
    split at h
    · split at h <;> exact .inr (by rw [← Option.some.inj h]; rfl)
    · cases h
  | fetch t available issues =>
    simp only [step] at h
    split at h
    · exact .inr (by rw [← Option.some.inj h]; rfl)
    · cases h
  | load t readable =>
    simp only [step] at h
    split at h
    · exact .inr (by rw [← Option.some.inj h]; rfl)
    · cases h
  | crash t => exact .inr (by rw [← Option.some.inj h]; rfl)
  | restart p => exact .inr (by rw [← Option.some.inj h])

end Swarm.GithubTasks
