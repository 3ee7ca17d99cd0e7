import Mathlib.Data.List.Sort
import Mathlib.Data.String.Basic
import Mathlib.Algebra.Order.Ring.Rat
import Swarm.Python

/-!
# The kanban, as `kanban.py` computes it

A board is the two SQLite tables. A method takes the board and gives its result with
the board it leaves: a method that raises keeps what its statements wrote before.
The readings of `time.time()` are arguments.
-/

namespace Swarm.Kanban

/-- The statuses of a task. -/
inductive TaskStatus
  | pending | inProgress | done | failed | cancelled | needsReview | awaitingChildren
  deriving DecidableEq, Repr

namespace TaskStatus

def value : TaskStatus → String
  | pending => "pending"
  | inProgress => "in_progress"
  | done => "done"
  | failed => "failed"
  | cancelled => "cancelled"
  | needsReview => "needs_review"
  | awaitingChildren => "awaiting_children"

def all : List TaskStatus :=
  [pending, inProgress, done, failed, cancelled, needsReview, awaitingChildren]

/-- `TaskStatus(text)`. -/
def ofValue (text : String) : Except PyError TaskStatus :=
  match all.find? (·.value == text) with
  | some s => .ok s
  | none => .error (.valueError ("'" ++ text ++ "' is not a valid TaskStatus"))

@[simp] theorem ofValue_value (s : TaskStatus) : ofValue s.value = .ok s := by
  cases s <;> rfl

@[simp] theorem value_inj (s t : TaskStatus) : s.value = t.value ↔ s = t := by
  constructor
  · intro h
    have := congrArg ofValue h
    simpa using this
  · rintro rfl; rfl

end TaskStatus

/-- The fields of a task, which are the columns of a row: `Status` is the type of the
status and `Col` that of the columns stored as JSON. -/
structure Fields (Status Col : Type) where
  id : String
  type : String
  title : String
  prompt : String
  priority : Int
  role : String
  requiredHead : String
  maxTurns : Int
  maxTokens : Int
  status : Status
  createdAt : ℚ
  startedAt : Option ℚ
  completedAt : Option ℚ
  parentTaskId : Option String
  workerId : Option String
  costUsd : ℚ
  result : Option String
  error : Option String
  worktreePath : Option String
  prPath : Option String
  blockedBy : Col
  blocks : Col
  delegationDepth : Int
  filesOwned : Col
  tags : Col
  metadata : Col

/-- A task as its readers have it. -/
abbrev Task := Fields TaskStatus Json

/-- A row of `tasks`: the status is any text, a JSON column is NULL or a text. -/
abbrev Row := Fields String (Option Text)

/-- `json.dumps(v) if v else None`. -/
def dumps (v : Json) : Option Text := if v.truthy then some (.json v) else none

/-- What `from_row` makes of a JSON column; `empty` stands for NULL and for bad text. -/
def decode (empty : Json) (col : Option Text) : Json :=
  match col with
  | none => empty
  | some t => if t.truthy then (match t.loads with | .ok v => v | .error _ => empty) else empty

/-- The defaults of the dataclass, for a given id and time of creation. -/
def Task.new (id : String) (createdAt : ℚ) : Task where
  id := id
  type := "default"
  title := ""
  prompt := ""
  priority := 5
  role := "default"
  requiredHead := "builder"
  maxTurns := 100
  maxTokens := 4096
  status := .pending
  createdAt := createdAt
  startedAt := none
  completedAt := none
  parentTaskId := none
  workerId := none
  costUsd := 0
  result := none
  error := none
  worktreePath := none
  prPath := none
  blockedBy := .arr []
  blocks := .arr []
  delegationDepth := 0
  filesOwned := .arr []
  tags := .arr []
  metadata := .obj []

/-- `_to_row`. -/
def Task.toRow (t : Task) : Row where
  id := t.id
  type := t.type
  title := t.title
  prompt := t.prompt
  priority := t.priority
  role := t.role
  requiredHead := t.requiredHead
  maxTurns := t.maxTurns
  maxTokens := t.maxTokens
  status := t.status.value
  createdAt := t.createdAt
  startedAt := t.startedAt
  completedAt := t.completedAt
  parentTaskId := t.parentTaskId
  workerId := t.workerId
  costUsd := t.costUsd
  result := t.result
  error := t.error
  worktreePath := t.worktreePath
  prPath := t.prPath
  blockedBy := dumps t.blockedBy
  blocks := dumps t.blocks
  delegationDepth := t.delegationDepth
  filesOwned := dumps t.filesOwned
  tags := dumps t.tags
  metadata := dumps t.metadata

def Row.toTask (r : Row) (status : TaskStatus) : Task where
  id := r.id
  type := r.type
  title := r.title
  prompt := r.prompt
  priority := r.priority
  role := r.role
  requiredHead := r.requiredHead
  maxTurns := r.maxTurns
  maxTokens := r.maxTokens
  status := status
  createdAt := r.createdAt
  startedAt := r.startedAt
  completedAt := r.completedAt
  parentTaskId := r.parentTaskId
  workerId := r.workerId
  costUsd := r.costUsd
  result := r.result
  error := r.error
  worktreePath := r.worktreePath
  prPath := r.prPath
  blockedBy := decode (.arr []) r.blockedBy
  blocks := decode (.arr []) r.blocks
  delegationDepth := r.delegationDepth
  filesOwned := decode (.arr []) r.filesOwned
  tags := decode (.arr []) r.tags
  metadata := decode (.obj []) r.metadata

/-- `from_row` raises on an unknown status only. -/
def Task.fromRow (r : Row) : Except PyError Task := do
  let status ← TaskStatus.ofValue r.status
  return r.toTask status

structure TimelineRow where
  taskId : String
  fromStatus : Option String
  toStatus : String
  reason : Option String
  ts : ℚ
  deriving DecidableEq, Repr

/-- The database: `tasks` in rowid order, `status_timeline` in id order. -/
structure Board where
  tasks : List Row
  timeline : List TimelineRow
  primaryKey : (tasks.map (·.id)).Nodup

namespace Board

def empty : Board := ⟨[], [], by simp⟩

/-- `SELECT * FROM tasks WHERE id = ?` -/
def select (b : Board) (id : String) : Option Row := b.tasks.find? (·.id == id)

/-- `INSERT INTO tasks`, which the primary key can refuse. -/
def insert (b : Board) (r : Row) : Except PyError Board :=
  if h : ((b.tasks ++ [r]).map (·.id)).Nodup then .ok ⟨b.tasks ++ [r], b.timeline, h⟩
  else .error (.integrityError "UNIQUE constraint failed: tasks.id")

/-- `UPDATE tasks SET … WHERE id=?` that leaves the id alone. -/
def modify (b : Board) (id : String) (f : Row → Row) (hf : ∀ r, (f r).id = r.id) : Board where
  tasks := b.tasks.map fun r => if r.id = id then f r else r
  timeline := b.timeline
  primaryKey := by
    have h : ∀ r : Row, (if r.id = id then f r else r).id = r.id := by
      intro r; split
      · exact hf r
      · rfl
    simpa [List.map_map, Function.comp_def, h] using b.primaryKey

/-- The source's `_timeline`. The foreign key asks for the task. -/
def addTimeline (b : Board) (row : TimelineRow) : Except PyError Board :=
  if b.tasks.any (·.id == row.taskId) then .ok { b with timeline := b.timeline ++ [row] }
  else .error (.integrityError "FOREIGN KEY constraint failed")

end Board

/-! ## Reads -/

/-- The order of `ORDER BY priority ASC, created_at ASC`. -/
def rowLe (r s : Row) : Prop :=
  r.priority < s.priority ∨ r.priority = s.priority ∧ r.createdAt ≤ s.createdAt

instance : DecidableRel rowLe := fun r s => by unfold rowLe; infer_instance

/-- Rows tied on both keys keep their order in the table. -/
def orderBy (rows : List Row) : List Row := rows.insertionSort rowLe

/-- `get`. -/
def get (b : Board) (id : String) : Except PyError (Option Task) :=
  match b.select id with
  | none => .ok none
  | some r => (Task.fromRow r).map some

/-- `list_tasks`: by priority, then by age, with the tag tested in Python. -/
def listTasks (b : Board) (status : Option TaskStatus) (parentTaskId : Option String)
    (tag : Option String) : Except PyError (List Task) := do
  let rows := orderBy <| b.tasks.filter fun r =>
    status.all (fun s => r.status == s.value) && parentTaskId.all fun p => r.parentTaskId == some p
  let tasks ← rows.mapM Task.fromRow
  match tag with
  | none => return tasks
  | some tag => tasks.filterM fun t => t.tags.contains tag

/-- The text that a JSON value compares as with the TEXT column `id`, if any. -/
def sqlText : Json → Except PyError (Option String)
  | .null => .ok none
  | .bool b => .ok (some (if b then "1" else "0"))
  | .int n =>
    if -2 ^ 63 ≤ n ∧ n < 2 ^ 63 then .ok (some (toString n))
    else .error (.overflowError "Python int too large to convert to SQLite INTEGER")
  | .float t => .ok (some t)
  | .str s => .ok (some s)
  | .arr _ | .obj _ => .error (.databaseError "Error binding parameter 1: type is not supported")

/-- The row whose id a decoded JSON value matches. -/
def selectKey (b : Board) (key : Json) : Except PyError (Option Row) := do
  match ← sqlText key with
  | none => return none
  | some id => return b.select id

/-- `unblocked` stops at the first blocker that is missing or not DONE. -/
def blockersDone (b : Board) : List Json → Except PyError Bool
  | [] => .ok true
  | blocker :: rest => do
    match ← selectKey b blocker with
    | none => return false
    | some r =>
      let btask ← Task.fromRow r
      if btask.status = .done then blockersDone b rest else return false

/-- The loop of `unblocked`. A task with no blockers skips the test of `limit`. -/
def unblockedLoop (b : Board) (requiredHead : Option String) (limit : Option Int) :
    List Task → List Task → Except PyError (List Task)
  | [], out => .ok out
  | t :: rest, out =>
    if requiredHead.any (· != t.requiredHead) then unblockedLoop b requiredHead limit rest out
    else if !t.blockedBy.truthy then unblockedLoop b requiredHead limit rest (out ++ [t])
    else do
      let ok ← blockersDone b (← t.blockedBy.iter)
      let out := if ok then out ++ [t] else out
      if limit.any (· ≤ (out.length : Int)) then return out
      else unblockedLoop b requiredHead limit rest out

/-- The tasks that are pending with every blocker DONE, up to a limit. -/
def unblocked (b : Board) (requiredHead : Option String) (limit : Option Int) :
    Except PyError (List Task) := do
  let pending ← listTasks b (some .pending) none none
  unblockedLoop b requiredHead limit pending []

/-! ## Writes -/

/-- `submit` inserts the task and its first timeline row, in two statements. -/
def submit (b : Board) (task : Task) (ts : ℚ) : Except PyError Task × Board :=
  match b.insert task.toRow with
  | .error e => (.error e, b)
  | .ok b' =>
    match b'.addTimeline ⟨task.id, none, task.status.value, some "submit", ts⟩ with
    | .error e => (.error e, b')
    | .ok b'' => (.ok task, b'')

inductive JsonArg
  | null
  | text (t : Text)
  | value (v : Json)

def JsonArg.column : JsonArg → Option Text
  | .null => none
  | .text t => some t
  | .value v => dumps v

/-- One keyword argument of `update`. `refused` is a keyword that names no column, or a
value that SQLite or the column does not take. -/
inductive Field
  | id (v : String)
  | type (v : String)
  | title (v : String)
  | prompt (v : String)
  | priority (v : Int)
  | role (v : String)
  | requiredHead (v : String)
  | maxTurns (v : Int)
  | maxTokens (v : Int)
  | status (v : String)
  | createdAt (v : ℚ)
  | startedAt (v : Option ℚ)
  | completedAt (v : Option ℚ)
  | parentTaskId (v : Option String)
  | workerId (v : Option String)
  | costUsd (v : ℚ)
  | result (v : Option String)
  | error (v : Option String)
  | worktreePath (v : Option String)
  | prPath (v : Option String)
  | blockedBy (v : JsonArg)
  | blocks (v : JsonArg)
  | delegationDepth (v : Int)
  | filesOwned (v : JsonArg)
  | tags (v : JsonArg)
  | metadata (v : JsonArg)
  | refused (e : PyError)

namespace Field

/-- What a keyword writes into the row. The id is written by `rename`. -/
def set (r : Row) : Field → Row
  | .id _ | .refused _ => r
  | .type v => { r with type := v }
  | .title v => { r with title := v }
  | .prompt v => { r with prompt := v }
  | .priority v => { r with priority := v }
  | .role v => { r with role := v }
  | .requiredHead v => { r with requiredHead := v }
  | .maxTurns v => { r with maxTurns := v }
  | .maxTokens v => { r with maxTokens := v }
  | .status v => { r with status := v }
  | .createdAt v => { r with createdAt := v }
  | .startedAt v => { r with startedAt := v }
  | .completedAt v => { r with completedAt := v }
  | .parentTaskId v => { r with parentTaskId := v }
  | .workerId v => { r with workerId := v }
  | .costUsd v => { r with costUsd := v }
  | .result v => { r with result := v }
  | .error v => { r with error := v }
  | .worktreePath v => { r with worktreePath := v }
  | .prPath v => { r with prPath := v }
  | .blockedBy v => { r with blockedBy := v.column }
  | .blocks v => { r with blocks := v.column }
  | .delegationDepth v => { r with delegationDepth := v }
  | .filesOwned v => { r with filesOwned := v.column }
  | .tags v => { r with tags := v.column }
  | .metadata v => { r with metadata := v.column }

def status? : Field → Option String
  | .status v => some v
  | _ => none

def id? : Field → Option String
  | .id v => some v
  | _ => none

def refused? : Field → Option PyError
  | .refused e => some e
  | _ => none

theorem set_id (r : Row) (f : Field) : (set r f).id = r.id := by cases f <;> rfl

end Field

/-- What the keywords give for one column: the last value, where the list repeats a key. -/
def given {α : Type} (column : Field → Option α) (fields : List Field) : Option α :=
  fields.reverse.findSome? column

/-- The SET clause, from left to right. -/
def setAll (fields : List Field) (r : Row) : Row := fields.foldl Field.set r

theorem setAll_id (fields : List Field) (r : Row) : (setAll fields r).id = r.id := by
  induction fields generalizing r with
  | nil => rfl
  | cons f rest ih => exact (ih _).trans (Field.set_id r f)

/-- The UPDATE that gives a task a new id. The primary key refuses it at the row, the timeline at
the end of the statement. -/
def rename (b : Board) (id newId : String) : Except PyError Board :=
  if newId = id then .ok b
  else
    let tasks := b.tasks.map fun r => if r.id = id then { r with id := newId } else r
    if h : (tasks.map (·.id)).Nodup then
      if b.timeline.any (·.taskId == id) then .error (.integrityError "FOREIGN KEY constraint failed")
      else .ok ⟨tasks, b.timeline, h⟩
    else .error (.integrityError "UNIQUE constraint failed: tasks.id")

/-- The UPDATE of `update`. -/
def updateRow (b : Board) (taskId : String) (fields : List Field) : Except PyError Board :=
  match given Field.refused? fields with
  | some e => .error e
  | none =>
    let b' := b.modify taskId (setAll fields) (setAll_id fields)
    match given Field.id? fields with
    | none => .ok b'
    | some newId => rename b' taskId newId

/-- `reason` is not a column; a call without it and without fields is a plain `get`. -/
def update (b : Board) (taskId : String) (fields : List Field) (reason : Option String)
    (ts : ℚ) : Except PyError (Option Task) × Board :=
  match b.select taskId with
  | none => (.ok none, b)
  | some existing =>
    match updateRow b taskId fields with
    | .error e => (.error e, b)
    | .ok b' =>
      match given Field.status? fields with
      | none => (get b' taskId, b')
      | some status =>
        if status = existing.status then (get b' taskId, b')
        else
          match b'.addTimeline ⟨taskId, some existing.status, status, reason, ts⟩ with
          | .error e => (.error e, b')
          | .ok b'' => (get b'' taskId, b'')  -- `_cascade_unblock` does nothing

/-- `transition` is an update of the status. -/
def transition (b : Board) (taskId : String) (toStatus : TaskStatus) (reason : Option String)
    (ts : ℚ) : Except PyError (Option Task) × Board :=
  update b taskId [.status toStatus.value] reason ts

/-- `set(v)` of a decoded list, for a set that is then sorted beside strings. -/
def asStrs (v : Json) : Except PyError (List String) := do
  let items ← v.iter
  match items.mapM Json.str? with
  | some l => return l
  | none => throw (.typeError "'<' not supported between instances of these types")

def sortedSet (l : List String) : List String := l.dedup.insertionSort (· ≤ ·)

/-- What the mirror loop makes of a blocker's `blocks`: `none` when the task is in it. -/
def mirrored (taskId : String) (blist : Json) : Except PyError (Option (List String)) := do
  if ← blist.contains taskId then return none
  match blist with
  | .arr _ =>
    let strs ← asStrs blist
    return some ((strs ++ [taskId]).insertionSort (· ≤ ·))
  | _ => throw (.attributeError "object has no attribute 'append'")

/-- `json.loads` of a column, or an empty list without a text. -/
def loadList (col : Option Text) : Except PyError Json :=
  match col with
  | none => .ok (.arr [])
  | some t => if t.truthy then t.loads else .ok (.arr [])

/-- The loop of `add_blocked_by` that mirrors the edge on each blocker. -/
def mirrorLoop (taskId : String) (b : Board) : List String → Except PyError Unit × Board
  | [] => (.ok (), b)
  | blocker :: rest =>
    match b.select blocker with
    | none => mirrorLoop taskId b rest
    | some brow =>
      match loadList brow.blocks >>= mirrored taskId with
      | .error e => (.error e, b)
      | .ok none => mirrorLoop taskId b rest
      | .ok (some blist) =>
        let col := some (Text.json (.ofStrs blist))
        mirrorLoop taskId (b.modify blocker (fun r => { r with blocks := col }) fun _ => rfl) rest

/-- `add_blocked_by`: the task's own column first, then `blocks` of each blocker. -/
def addBlockedBy (b : Board) (taskId : String) (blockerIds : List String) :
    Except PyError Unit × Board :=
  let ids := blockerIds.filter (· != "")
  if ids.isEmpty then (.ok (), b)
  else
    match b.select taskId with
    | none => (.error (.keyError taskId), b)
    | some row =>
      match loadList row.blockedBy >>= asStrs with
      | .error e => (.error e, b)
      | .ok current =>
        let col := dumps (.ofStrs (sortedSet (current ++ ids)))
        mirrorLoop taskId (b.modify taskId (fun r => { r with blockedBy := col }) fun _ => rfl) ids

def addBlocksLoop (b : Board) (taskId : String) : List String → Except PyError Unit × Board
  | [] => (.ok (), b)
  | blocked :: rest =>
    match addBlockedBy b blocked [taskId] with
    | (.error e, b') => (.error e, b')
    | (.ok (), b') => addBlocksLoop b' taskId rest

/-- `add_blocks` is `add_blocked_by` of each task that is blocked. -/
def addBlocks (b : Board) (taskId : String) (blockedIds : List String) :
    Except PyError Unit × Board :=
  addBlocksLoop b taskId (blockedIds.filter (· != ""))

/-! ## The claim -/

/-- The loop of `claim_one` over the blockers of one row, on raw rows. -/
def anyOpen (b : Board) : List Json → Except PyError Bool
  | [] => .ok false
  | blocker :: rest => do
    match ← selectKey b blocker with
    | none => return true
    | some br => if br.status ≠ "done" then return true else anyOpen b rest

/-- The row that a claim takes: the first that is wanted, with no blocker open or missing. -/
def claimPick (b : Board) (requiredHead : Option String) : List Row → Except PyError (Option Row)
  | [] => .ok none
  | row :: rest =>
    if requiredHead.any (· != row.requiredHead) then claimPick b requiredHead rest
    else do
      let blockers ← loadList row.blockedBy
      if blockers.truthy then
        if ← anyOpen b (← blockers.iter) then claimPick b requiredHead rest else return some row
      else return some row

/-- What the claim writes. -/
def claimRow (workerId : String) (now : ℚ) (r : Row) : Row :=
  { r with status := "in_progress", workerId := some workerId, startedAt := some now }

theorem claimRow_id (workerId : String) (now : ℚ) (r : Row) : (claimRow workerId now r).id = r.id :=
  rfl

/-- `claim_one`: the select and the update are one transaction. -/
def claimOne (b : Board) (workerId : String) (requiredHead : Option String) (now ts : ℚ) :
    Except PyError (Option Task) × Board :=
  match claimPick b requiredHead (orderBy (b.tasks.filter (·.status == "pending"))) with
  | .error e => (.error e, b)
  | .ok none => (.ok none, b)
  | .ok (some pick) =>
    let b' := b.modify pick.id (claimRow workerId now) (claimRow_id workerId now)
    match b'.addTimeline
        ⟨pick.id, some pick.status, "in_progress", some ("claim:" ++ workerId), ts⟩ with
    | .error e => (.error e, b)  -- ROLLBACK
    | .ok b'' => (get b'' pick.id, b'')

end Swarm.Kanban
