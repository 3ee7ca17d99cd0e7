import Swarm.CoordBus
import Swarm.Kanban.Code
import Swarm.Lib.Transact

/-!
# The connection that an adapter keeps

Every method of `CoordBusAdapter` sends its statement on one connection, which is opened by the
first of them and opened anew where it is found closed. A method makes `False` or an empty list of
an error.
-/

namespace Swarm.CoordBus.Shared

open Lib

/-! ## The tables -/

structure CoordMessage where
  id : Option Int := none
  sender : String := ""
  recipient : String := ""
  type : String := ""
  summary : String := ""
  taskRef : Option String := none
  prNumber : Option Int := none
  payload : Json := .obj []
  createdAt : Option ℚ := none
  read : Bool := false

structure MessageRow where
  id : Int
  sender : String
  recipient : String
  type : String
  summary : String
  taskRef : Option String
  prNumber : Option Int
  payload : Option Text
  createdAt : ℚ
  read : Bool

def MessageRow.toMessage (r : MessageRow) : CoordMessage where
  id := some r.id
  sender := r.sender
  recipient := r.recipient
  type := r.type
  summary := r.summary
  taskRef := r.taskRef
  prNumber := r.prNumber
  payload := Kanban.decode (.obj []) r.payload
  createdAt := some r.createdAt
  read := r.read

/-- The two tables of the bridge. -/
structure Db where
  messages : List MessageRow
  claims : Claims

/-! ## The adapter -/

/-- What the interpreter has for texts: the value of a decimal digit and the `repr` of a float. -/
structure Interpreter where
  digit : Char → Option Nat
  float : ℚ → String

structure Bridge extends Adapter where
  deepAiCommsModule : String
  py : Interpreter

/-- What a call meets outside: the server, with the next id of `coordination_messages`, the exit
code of a subprocess, and the two clocks. -/
structure Meets where
  connects : Bool
  verdict : Verdict
  nextId : Int
  exitsZero : List String → Bool
  time : ℚ
  now : ℚ

/-- What a method returns. -/
inductive Answer
  | flag (b : Bool)
  | messages (l : List CoordMessage)

/-- The command of `_subprocess_send`. -/
def Bridge.sendCommand (b : Bridge) (recipient msgType summary : String) (taskRef : Option String)
    (pr : Option Int) : List String :=
  ["python3", "-m", b.deepAiCommsModule, "send", "--sender", b.sender, "--recipient", recipient,
      "--type", msgType, "--summary", summary] ++
    (match taskRef with
      | some ref => if ref != "" then ["--task-ref", ref] else []
      | none => []) ++
    (match pr with
      | some n => ["--pr", toString n]
      | none => [])

/-- A method by its answer where the adapter is not enabled, and by its statement. -/
structure Method where
  disabled : Answer
  job : Job Db Answer

/-- A bridge that is off answers at once, and so does one without a DSN. -/
def Method.run (b : Bridge) (f : Method) (s : Session Db) : Answer × Session Db :=
  if !b.enabled then (f.disabled, s)
  else if b.dsn.getD "" == "" then (f.job.unavailable, s)
  else f.job.run s

/-- `INSERT INTO coordination_messages …` -/
def pgSend (row : MessageRow) (db : Db) : Answer × Db :=
  (.flag true, { db with messages := db.messages ++ [row] })

/-- The value of the first run of digits. -/
def Interpreter.firstNumber (py : Interpreter) (text : String) : Option Int :=
  match (text.toList.dropWhile fun c => (py.digit c).isNone).takeWhile fun c => (py.digit c).isSome with
  | [] => none
  | run => some ((run.filterMap py.digit).foldl (fun n d => 10 * n + d) 0 : Nat)

def Bridge.row (b : Bridge) (m : Meets) (recipient msgType summary : String)
    (taskRef : Option String) (prNumber : Option Int) (payload : List (String × Json)) :
    MessageRow :=
  ⟨m.nextId, b.sender, recipient, msgType, summary, taskRef, prNumber, some (.json (.obj payload)),
    m.now, false⟩

def Bridge.doneSummary (task : Kanban.Task) (headName : String) : String :=
  "Swarm task done: " ++ task.title ++ " (head=" ++ headName ++ ", cost=$" ++ fixed 4 task.costUsd ++ ")"

def Bridge.announceTaskDone (b : Bridge) (m : Meets) (task : Kanban.Task)
    (headName recipient : String) :
    Method :=
  let summary := doneSummary task headName
  let prNumber := match task.prPath with
    | some path => if path != "" then b.py.firstNumber path else none
    | none => none
  let payload := [("head", .str headName), ("cost_usd", .float (b.py.float task.costUsd)),
    ("task_id", .str task.id)]
  { disabled := .flag false
    job :=
      { connects := m.connects
        verdict := m.verdict
        unavailable := .flag
          (m.exitsZero (b.sendCommand recipient "work_completed" summary (some task.id) prNumber))
        failed := .flag false
        statement := pgSend (b.row m recipient "work_completed" summary (some task.id) prNumber payload) } }

def Bridge.announceTaskFailed (b : Bridge) (m : Meets) (task : Kanban.Task)
    (headName recipient : String) :
    Method :=
  let error := String.ofList ((task.error.getD "").toList.take 200)
  let summary := "Swarm task FAILED: " ++ task.title ++ " (head=" ++ headName ++ "): " ++ error
  let payload := [("head", .str headName), ("error", .str error), ("task_id", .str task.id)]
  { disabled := .flag false
    job :=
      { connects := m.connects
        verdict := m.verdict
        unavailable := .flag
          (m.exitsZero (b.sendCommand recipient "swarm_task_failed" summary (some task.id) none))
        failed := .flag false
        statement := pgSend (b.row m recipient "swarm_task_failed" summary (some task.id) none payload) } }

/-- Without a connection no subprocess is started. -/
def Bridge.announceHeartbeat (b : Bridge) (m : Meets) (queueDepth inProgress : Int)
    (runningCostUsd : ℚ) (recipient : String) : Method :=
  let summary := "swarm heartbeat: queue=" ++ toString queueDepth ++ " in_progress=" ++
    toString inProgress ++ " cost=$" ++ fixed 4 runningCostUsd
  let payload := [("queue_depth", .int queueDepth), ("in_progress", .int inProgress),
    ("running_cost_usd", .float (b.py.float runningCostUsd))]
  { disabled := .flag false
    job :=
      { connects := m.connects
        verdict := m.verdict
        unavailable := .flag false
        failed := .flag false
        statement := pgSend (b.row m recipient "swarm_status" summary none none payload) } }

/-- `senders or ["claude", "codex"]` -/
def orDefault (senders : Option (List String)) : List String :=
  match senders with
  | none | some [] => ["claude", "codex"]
  | some senders => senders

/-- `SELECT … WHERE sender = ANY(…) ORDER BY created_at DESC LIMIT …`. Of rows of one time the one
stored first comes first. -/
def selectRecent (senders : List String) (limit : Int) (db : Db) : List MessageRow :=
  ((db.messages.filter fun r => senders.contains r.sender).mergeSort
    fun r r' => decide (r'.createdAt ≤ r.createdAt)).take limit.toNat

/-- The server takes no negative LIMIT. -/
def recentMessages (m : Meets) (senders : Option (List String)) (limit : Int) : Method where
  disabled := .messages []
  job :=
    { connects := m.connects
      verdict := m.verdict.rejectIf (decide (limit < 0))
      unavailable := .messages []
      failed := .messages []
      statement := fun db =>
        (.messages ((selectRecent (orDefault senders) limit db).map MessageRow.toMessage), db) }

/-- `to_timestamp` takes no nan. -/
def Bridge.tryClaimArea (b : Bridge) (m : Meets) (area : String) (timeoutS : Num) : Method :=
  let expires := (Num.finite m.time).add timeoutS
  { disabled := .flag true
    job :=
      { connects := m.connects
        verdict := m.verdict.rejectIf (decide (expires = .nan))
        unavailable := .flag true
        failed := .flag false
        statement := fun db =>
          (.flag true, { db with claims := upsert area ⟨b.sender, m.now, expires⟩ db.claims }) } }

/-- `release_area`. -/
def Bridge.releaseArea (b : Bridge) (m : Meets) (area : String) : Method where
  disabled := .flag true
  job :=
    { connects := m.connects
      verdict := m.verdict
      unavailable := .flag true
      failed := .flag false
      statement := fun db => (.flag true, { db with claims := delete area b.sender db.claims }) }

/-! ## Calls -/

/-- The methods of the bridge with their arguments. -/
inductive Ask
  | taskDone (task : Kanban.Task) (headName recipient : String)
  | taskFailed (task : Kanban.Task) (headName recipient : String)
  | heartbeat (queueDepth inProgress : Int) (runningCostUsd : ℚ) (recipient : String)
  | recent (senders : Option (List String)) (limit : Int)
  | tryClaim (area : String) (timeoutS : Num)
  | release (area : String)

/-- The methods that insert a message. -/
def Ask.Announces : Ask → Prop
  | .taskDone .. | .taskFailed .. | .heartbeat .. => True
  | .recent .. | .tryClaim .. | .release .. => False

structure Call where
  meets : Meets
  ask : Ask

def Bridge.method (b : Bridge) (c : Call) : Method :=
  match c.ask with
  | .taskDone task headName recipient => b.announceTaskDone c.meets task headName recipient
  | .taskFailed task headName recipient => b.announceTaskFailed c.meets task headName recipient
  | .heartbeat queueDepth inProgress cost recipient =>
    b.announceHeartbeat c.meets queueDepth inProgress cost recipient
  | .recent senders limit => recentMessages c.meets senders limit
  | .tryClaim area timeoutS => b.tryClaimArea c.meets area timeoutS
  | .release area => b.releaseArea c.meets area

def Bridge.job (b : Bridge) (c : Call) : Job Db Answer := (b.method c).job

/-- The session after calls on a new adapter. -/
def Bridge.after (b : Bridge) (db : Db) (calls : List Call) : Session Db :=
  calls.foldl (fun s c => ((b.method c).run b s).2) ⟨.absent, db⟩

/-- What a call answers, and what is stored when it has returned. -/
def Bridge.outcome (b : Bridge) (db : Db) (before : List Call) (c : Call) : Answer × Db :=
  let r := (b.method c).run b (b.after db before)
  (r.1, r.2.db)

/-- Each call whose own statement is valid does what it does where the failing calls before it are
not made: it answers what its statement gives, and the effect is stored. -/
def AsIfUnfailed (b : Bridge) (db : Db) (calls : List Call) : Prop :=
  AtEach (fun before c => Valid b.job c →
    b.outcome db before c = b.outcome db (before.filter fun d => decide (Valid b.job d)) c ∧
      b.outcome db before c = (b.job c).statement (validDb b.job db before)) calls

/-- A `recent_messages` for nothing, or for senders of whom no message is there. -/
def FindsNothing (b : Bridge) (db : Db) (before : List Call) (c : Call) : Prop :=
  ∃ senders limit, c.ask = .recent senders limit ∧
    (limit = 0 ∨ (∀ r ∈ db.messages, r.sender ∉ orDefault senders) ∧
      (b.sender ∈ orDefault senders → ∀ d ∈ before, Valid b.job d → ¬ d.ask.Announces))

/-! ## One connection -/

/-- On its connection a claim is the claim of a single call, and an aborted connection raises. -/
theorem tryClaimArea_eq (b : Bridge) (m : Meets) (area : String) (timeoutS : Num) (s : Session Db) :
    let r := (b.tryClaimArea m area timeoutS).run b s
    let lease := CoordBus.tryClaimArea b.toAdapter
      ⟨decide (s.conn ≠ .absent) || m.connects, decide (s.conn = .aborted) || decide (m.verdict ≠ .valid),
        m.time, m.now⟩ area timeoutS s.db.claims
    r.1 = .flag lease.1 ∧ r.2.db.claims = lease.2 := by
  simp only [Method.run, Bridge.tryClaimArea, CoordBus.tryClaimArea, Adapter.getConn]
  cases henabled : b.enabled with
  | false => simp
  | true =>
    by_cases hdsn : b.dsn.getD "" = ""
    · simp [hdsn]
    · by_cases hnan : (Num.finite m.time).add timeoutS = .nan <;> cases hconn : s.conn <;>
        cases hconnects : m.connects <;> cases hverdict : m.verdict <;>
          simp [hdsn, hnan, hconn, Job.run, Session.connect, Session.transact, Verdict.rejectIf]

theorem run_eq {b : Bridge} (henabled : b.enabled = true) (hdsn : b.dsn.getD "" ≠ "") (f : Method)
    (s : Session Db) : f.run b s = f.job.run s := by
  simp [Method.run, henabled, hdsn]

theorem outcome_eq {b : Bridge} (henabled : b.enabled = true) (hdsn : b.dsn.getD "" ≠ "") (db : Db)
    (before : List Call) (c : Call) :
    b.outcome db before c = Lib.outcome b.job ⟨.absent, db⟩ before c := by
  have hafter : b.after db before = Lib.after b.job ⟨.absent, db⟩ before := by
    unfold Bridge.after Lib.after
    simp only [run_eq henabled hdsn, Bridge.job]
  simp only [Bridge.outcome, Lib.outcome, run_eq henabled hdsn, hafter, Bridge.job]

/-! ## What is there to find -/

theorem job_announces (b : Bridge) {c : Call} (h : c.ask.Announces) :
    ∃ row, row.sender = b.sender ∧ (b.job c).statement = pgSend row ∧
      (b.job c).failed = .flag false := by
  unfold Bridge.job Bridge.method
  cases hask : c.ask with
  | taskDone task headName recipient => exact ⟨_, rfl, rfl, rfl⟩
  | taskFailed task headName recipient => exact ⟨_, rfl, rfl, rfl⟩
  | heartbeat queueDepth inProgress cost recipient => exact ⟨_, rfl, rfl, rfl⟩
  | recent | tryClaim | release => simp [hask, Ask.Announces] at h

theorem job_recent (b : Bridge) {c : Call} {senders : Option (List String)} {limit : Int}
    (h : c.ask = .recent senders limit) : b.job c = (recentMessages c.meets senders limit).job := by
  rw [Bridge.job, Bridge.method, h]

theorem job_area (b : Bridge) {c : Call} (h : ¬ c.ask.Announces)
    (hrecent : ∀ senders limit, c.ask ≠ .recent senders limit) (db : Db) :
    ((b.job c).statement db).2.messages = db.messages ∧ ((b.job c).statement db).1 = .flag true ∧
      (b.job c).failed = .flag false := by
  -- A claim and a release touch no message and answer an error by `False`.
  unfold Bridge.job Bridge.method
  cases hask : c.ask with
  | tryClaim area timeoutS => exact ⟨rfl, rfl, rfl⟩
  | release area => exact ⟨rfl, rfl, rfl⟩
  | recent senders limit => exact absurd hask (hrecent senders limit)
  | taskDone | taskFailed | heartbeat => simp [hask, Ask.Announces] at h

theorem statement_messages (b : Bridge) (c : Call) (db : Db) (senders : List String) :
    (∃ r ∈ ((b.job c).statement db).2.messages, r.sender ∈ senders) ↔
      (∃ r ∈ db.messages, r.sender ∈ senders) ∨ (b.sender ∈ senders ∧ c.ask.Announces) := by
  by_cases hannounces : c.ask.Announces
  · obtain ⟨row, hsender, hstatement, -⟩ := job_announces b hannounces
    simp [hstatement, pgSend, or_and_right, exists_or, hsender, hannounces]
  · by_cases hrecent : ∃ senders limit, c.ask = .recent senders limit
    · obtain ⟨senders', limit, hask⟩ := hrecent
      simp [job_recent b hask, recentMessages, hannounces]
    · simp only [not_exists] at hrecent
      simp [(job_area b hannounces hrecent db).1, hannounces]

theorem validDb_messages (b : Bridge) (db : Db) (before : List Call) (senders : List String) :
    (∃ r ∈ (validDb b.job db before).messages, r.sender ∈ senders) ↔
      (∃ r ∈ db.messages, r.sender ∈ senders) ∨
        (b.sender ∈ senders ∧ ∃ d ∈ before, Valid b.job d ∧ d.ask.Announces) := by
  induction before using List.reverseRecOn with
  | nil => simp [validDb]
  | append_singleton before d ih =>
    rw [validDb_snoc]
    by_cases hvalid : Valid b.job d
    · rw [if_pos hvalid, statement_messages, ih, or_assoc, ← and_or_left]
      simp [or_and_right, exists_or, hvalid]
    · rw [if_neg hvalid, ih]
      simp [or_and_right, exists_or, hvalid]

theorem selectRecent_eq_nil {senders : List String} {limit : Int} {db : Db} :
    selectRecent senders limit db = [] ↔ limit ≤ 0 ∨ ¬ ∃ r ∈ db.messages, r.sender ∈ senders := by
  have hsort : ∀ l : List MessageRow,
      l.mergeSort (fun r r' => decide (r'.createdAt ≤ r.createdAt)) = [] ↔ l = [] := fun l =>
    ⟨fun h => List.length_eq_zero_iff.mp (by rw [← List.length_mergeSort, h]; rfl), fun h => by simp [h]⟩
  rw [selectRecent, List.take_eq_nil_iff, hsort, Int.toNat_eq_zero]
  simp

theorem not_rejected {bad : Bool} {v : Verdict} (h : v.rejectIf bad = .valid) : bad = false := by
  unfold Verdict.rejectIf at h
  cases bad with
  | false => rfl
  | true => cases v <;> simp at h

theorem finds_iff {b : Bridge} {db : Db} {before : List Call} {c : Call} (hvalid : Valid b.job c) :
    (b.job c).statement (validDb b.job db before) = ((b.job c).failed, validDb b.job db before) ↔
      FindsNothing b db before c := by
  -- The answer to an error is the answer of the statement only where nothing is found.
  by_cases hrecent : ∃ senders limit, c.ask = .recent senders limit
  · obtain ⟨senders, limit, hask⟩ := hrecent
    unfold Valid at hvalid
    rw [job_recent b hask] at hvalid
    have hlimit : 0 ≤ limit := by simpa using not_rejected hvalid
    have hfound := validDb_messages b db before (orDefault senders)
    rw [job_recent b hask]
    simp only [recentMessages, Prod.mk.injEq, and_true, Answer.messages.injEq, List.map_eq_nil_iff,
      selectRecent_eq_nil, hfound]
    constructor
    · intro h
      refine ⟨senders, limit, hask, h.imp (fun h => by omega) fun h => ?_⟩
      simpa using h
    · rintro ⟨senders', limit', hask', h⟩
      obtain ⟨rfl, rfl⟩ := Ask.recent.inj (hask.symm.trans hask')
      refine h.imp (fun h => by omega) fun h => ?_
      simpa using h
  · refine iff_of_false (fun h => ?_) fun ⟨senders, limit, hask, _⟩ => hrecent ⟨senders, limit, hask⟩
    by_cases hannounces : c.ask.Announces
    · obtain ⟨row, -, hstatement, hfailed⟩ := job_announces b hannounces
      rw [hstatement, hfailed] at h
      simp [pgSend] at h
    · simp only [not_exists] at hrecent
      obtain ⟨-, hanswer, hfailed⟩ := job_area b hannounces hrecent (validDb b.job db before)
      rw [Prod.ext_iff, hanswer, hfailed] at h
      simp at h

/-! ## Any sequence of calls -/

/-- **When a failed statement does not poison the adapter.** -/
theorem asIfUnfailed_iff {b : Bridge} (db : Db) {calls : List Call} (henabled : b.enabled = true)
    (hdsn : b.dsn.getD "" ≠ "") (hreach : ∀ c ∈ calls, c.meets.connects = true) :
    AsIfUnfailed b db calls ↔
      AtEach (fun before c => Valid b.job c → poisoned b.job before = true →
        FindsNothing b db before c)
        calls := by
  have hconnects : ∀ c : Call, (b.job c).connects = c.meets.connects := by
    intro c
    unfold Bridge.job Bridge.method
    cases c.ask <;> rfl
  have hjobs : ∀ c ∈ calls, (b.job c).connects = true :=
    fun c hc => (hconnects c).trans (hreach c hc)
  have halone : AsIfUnfailed b db calls ↔ Unfailed b.job db calls := by
    constructor
    · intro h before c rest hcalls hvalid
      simpa only [outcome_eq henabled hdsn] using (h before c rest hcalls hvalid).1
    · intro h before c rest hcalls hvalid
      have hsame := h before c rest hcalls hvalid
      have hprefix : ∀ d ∈ before ++ [c], (b.job d).connects = true := fun d hd =>
        hjobs d (by rw [hcalls]; simp at hd ⊢; tauto)
      simp only [outcome_eq henabled hdsn]
      exact ⟨hsame, hsame.trans (outcome_filter db hprefix hvalid)⟩
  rw [halone, unfailed_iff db hjobs]
  constructor
  · exact fun h before c rest hcalls hvalid hpoisoned =>
      (finds_iff hvalid).mp (h before c rest hcalls hvalid hpoisoned)
  · exact fun h before c rest hcalls hvalid hpoisoned =>
      (finds_iff hvalid).mpr (h before c rest hcalls hvalid hpoisoned)

/-! ## A query that the server rejects -/

def bridge : Bridge :=
  { swarm with
    deepAiCommsModule := "dm.deep_manager.coord.comms"
    py := ⟨fun c => if c.isDigit then some (c.toNat - 48) else none, fixed 4⟩ }

def emptyDb : Db := ⟨[], noClaims⟩

def asking (verdict : Verdict) (ask : Ask) : Call := ⟨⟨true, verdict, 1, fun _ => true, 0, 0⟩, ask⟩

def badLimit : Call := asking .valid (.recent none (-1))
def poll : Call := asking .valid (.recent none 20)
def lost : Call := asking .closed (.release "ui/agents.tsx")
def claimed : Call := asking .valid (.tryClaim "ui/agents.tsx" (.finite 30))

/-- The adapter finds no message after the rejected query, and claims an area on the next
connection. -/
theorem reconnected_asIfUnfailed : AsIfUnfailed bridge emptyDb [badLimit, poll, lost, claimed] := by
  refine (asIfUnfailed_iff emptyDb rfl (by decide) ?_).mpr ?_
  · simp [badLimit, poll, lost, claimed, asking]
  · change AtEach _ ([] ++ [badLimit] ++ [poll] ++ [lost] ++ [claimed])
    simp only [atEach_snoc]
    refine ⟨⟨⟨⟨atEach_nil _, fun hvalid => ?_⟩, fun _ _ => ?_⟩, fun hvalid => ?_⟩, fun _ hpoisoned => ?_⟩
    · exact absurd hvalid (by decide)
    · refine ⟨none, 20, rfl, .inr ⟨by simp [emptyDb], fun hmine => ?_⟩⟩
      exact absurd hmine (by decide)
    · exact absurd hvalid (by decide)
    · exact absurd hpoisoned (by decide)

/-- Nobody holds the area, and yet it cannot be claimed. -/
theorem claimed_fails : ¬ AsIfUnfailed bridge emptyDb [badLimit, claimed] := by
  intro h
  have hfailed : (bridge.outcome emptyDb [badLimit] claimed).1 = .flag false := rfl
  have hstatement : ((bridge.job claimed).statement (validDb bridge.job emptyDb [badLimit])).1 = .flag true :=
    rfl
  have hanswer := congrArg Prod.fst (h [badLimit] claimed [] rfl rfl).2
  rw [hfailed, hstatement] at hanswer
  simp at hanswer

end Swarm.CoordBus.Shared
