import Swarm.Kanban.Code
import Swarm.Messaging

/-!
# The task bus, as `bus.py` computes it

The bus keeps one inbox file for each recipient. A call takes the inboxes and the kanban and gives
its result with what it leaves. The id and the clock readings of a call are arguments.
-/

namespace Swarm.Bus

open Kanban

/-! ## Participants -/

/-- The kinds of agents on the bus. -/
inductive AgentClass
  | claudeSwarm | claudeCode | codex | cursor | apiWorker | supervisor | operator
  deriving DecidableEq, Repr

def AgentClass.value : AgentClass → String
  | claudeSwarm => "claude-swarm"
  | claudeCode => "claude-code"
  | codex => "codex"
  | cursor => "cursor"
  | apiWorker => "api-worker"
  | supervisor => "supervisor"
  | operator => "operator"

def AgentClass.all : List AgentClass :=
  [claudeSwarm, claudeCode, codex, cursor, apiWorker, supervisor, operator]

def VALID_PARTICIPANTS : List String :=
  ["claude", "claude-code", "codex", "cursor", "api-worker", "scout", "planner", "dispatch", "meta",
    "operator", "slack", "all"]

def WILDCARD_PREFIX : String := "agent:"

def BROADCAST : String := "*"

/-- `name.startswith(WILDCARD_PREFIX)` -/
def startsWildcard (name : String) : Bool := WILDCARD_PREFIX.toList.isPrefixOf name.toList

/-- A known name, `agent:` with a name behind it, or the broadcast where it is allowed. -/
def validParticipant (name : String) (allowBroadcast : Bool) : Bool :=
  if name ∈ VALID_PARTICIPANTS then true
  else if !allowBroadcast then false
  else if name = BROADCAST then true
  else if startsWildcard name then
    let cls := String.ofList (name.toList.drop WILDCARD_PREFIX.toList.length)
    cls ∈ AgentClass.all.map (·.value)
  else false

/-! ## Message types -/

def COORDINATION_MSG_TYPES : List String :=
  ["work_started", "work_completed", "handoff", "question", "answer", "ack", "heartbeat", "blocker",
    "slack_inbound"]

inductive DelegationStatus
  | delegated | claimed | progress | done | blocked | failed
  deriving DecidableEq, Repr

namespace DelegationStatus

def value : DelegationStatus → String
  | delegated => "task_delegated"
  | claimed => "task_claimed"
  | progress => "task_progress"
  | done => "task_done"
  | blocked => "task_blocked"
  | failed => "task_failed"

def all : List DelegationStatus := [delegated, claimed, progress, done, blocked, failed]

/-- `DelegationStatus(text)`, with `none` for its ValueError. -/
def ofValue (text : String) : Option DelegationStatus := all.find? (·.value == text)

@[simp] theorem ofValue_value (s : DelegationStatus) : ofValue s.value = some s := by
  cases s <;> rfl

theorem value_ofValue {text : String} {s : DelegationStatus} (h : ofValue text = some s) :
    s.value = text := by
  simpa using List.find?_some h

def isTerminal : DelegationStatus → Bool
  | done | failed => true
  | _ => false

end DelegationStatus

def VERIFY_MSG_TYPES : List String := ["verify_request", "verify_result"]

def TASK_MSG_TYPES : List String := DelegationStatus.all.map (·.value)

def VALID_MSG_TYPES : List String := COORDINATION_MSG_TYPES ++ TASK_MSG_TYPES ++ VERIFY_MSG_TYPES

variable (sp : Spelling)

/-- `sorted(names)` in an f-string. -/
def listed (names : List String) : String := (Json.ofStrs (sortedSet names)).repr sp

/-- Sender, recipient and type are checked in this order, each with its own message. -/
def validateSend (sender recipient msgType : String) : Except PyError Unit :=
  if !validParticipant sender false then
    .error (.valueError ("sender " ++ sp.quote sender ++ " not a valid participant (expected one of " ++
      listed sp VALID_PARTICIPANTS ++ " or 'agent:<class>')"))
  else if !validParticipant recipient true then
    .error (.valueError ("recipient " ++ sp.quote recipient ++
      " not a valid participant (expected one of " ++ listed sp VALID_PARTICIPANTS ++
      ", '*', or 'agent:<class>')"))
  else if msgType ∉ VALID_MSG_TYPES then
    .error (.valueError ("msg_type " ++ sp.quote msgType ++ " not in " ++ listed sp VALID_MSG_TYPES))
  else .ok ()

/-! ## Messages and delegations -/

/-- A dict with text keys, as a message body holds it. -/
abbrev Dict := List (String × Json)

structure Message where
  id : String
  ts : ℚ
  sender : String
  recipient : String
  kind : String
  body : Dict
  inReplyTo : Option String

/-- The pairs of `payload` are those that `dict` was given. -/
structure Delegation where
  taskRef : String
  sender : String
  recipient : String
  status : DelegationStatus
  id : String
  ts : ℚ
  summary : String
  branch : Json
  prNumber : Json
  payload : List (Json × Json)
  inReplyTo : Option String

def ofOption {α : Type} (f : α → Json) (v : Option α) : Json := (v.map f).getD .null

/-- A key of a dict as `json.dumps` writes it. -/
def keyText : Json → String
  | .str s => s
  | .bool b => if b then "true" else "false"
  | .null => "null"
  | .int n => toString n
  | .float t => sp.float t
  | .arr _ | .obj _ => ""  -- no key

/-- The delegation as a message: what is set goes into the body. -/
def Delegation.toMessage (d : Delegation) : Message where
  id := d.id
  ts := d.ts
  sender := d.sender
  recipient := d.recipient
  kind := d.status.value
  body :=
    [("task_ref", .str d.taskRef), ("status", .str d.status.value), ("summary", .str d.summary),
      ("branch", d.branch), ("pr_number", d.prNumber),
      ("payload", .obj (d.payload.map fun kv => (keyText sp kv.1, kv.2)))]
  inReplyTo := d.inReplyTo

/-- A message of a task type that names a task; everything else raises. -/
def fromMessage (msg : Message) : Except PyError Delegation :=
  match DelegationStatus.ofValue msg.kind with
  | none =>
    .error (.valueError ("message kind " ++ sp.quote msg.kind ++ " is not a task-delegation verb"))
  | some status =>
    let taskRef := Json.get msg.body "task_ref"
    if !taskRef.truthy then .error (.valueError "delegation message is missing task_ref")
    else
      match ((Json.get msg.body "payload").or (.obj [])).asDict with
      | .error e => .error e
      | .ok payload =>
        .ok {
          taskRef := taskRef.toStr sp
          sender := msg.sender
          recipient := msg.recipient
          status := status
          id := msg.id
          ts := msg.ts
          summary := ((Json.get msg.body "summary").or (.str "")).toStr sp
          branch := Json.get msg.body "branch"
          prNumber := Json.get msg.body "pr_number"
          payload := payload
          inReplyTo := msg.inReplyTo }

/-! ## The inboxes -/

/-- The inbox files, by recipient. -/
abbrev Inboxes := String → Option (List Message)

/-- `MessageBus.send`: a broadcast goes to the inboxes that are there. -/
def deliver (maxMessages : Int) (msg : Message) (inboxes : Inboxes) : Inboxes :=
  if msg.recipient = BROADCAST then
    fun r => (inboxes r).map fun msgs => Messaging.bounded maxMessages (msgs ++ [msg])
  else
    Function.update inboxes msg.recipient
      (some (Messaging.bounded maxMessages ((inboxes msg.recipient).getD [] ++ [msg])))

/-- `recv` lists and takes nothing out. -/
def recv (inboxes : Inboxes) (recipient : String) : List Message := (inboxes recipient).getD []

/-! ## Reads -/

/-- The loop of `delegations`. -/
def delegationsLoop (status : Option DelegationStatus) :
    List Message → Except PyError (List Delegation)
  | [] => .ok []
  | msg :: rest =>
    if msg.kind ∉ TASK_MSG_TYPES then delegationsLoop status rest
    else
      match fromMessage sp msg with
      | .error e => .error e
      | .ok deleg =>
        (delegationsLoop status rest).map fun out =>
          if status.any (· != deleg.status) then out else deleg :: out

/-- The delegations of an inbox, of one status or of all. One that cannot be read raises. -/
def delegations (inboxes : Inboxes) (recipient : String) (status : Option DelegationStatus) :
    Except PyError (List Delegation) := delegationsLoop sp status (recv inboxes recipient)

/-- Of two of one time the later in the inbox counts. -/
def latestStep (taskRef : String) (latest : Option Delegation) (deleg : Delegation) :
    Option Delegation :=
  if deleg.taskRef ≠ taskRef then latest
  else if latest.all fun l => l.ts ≤ deleg.ts then some deleg else latest

/-- The latest delegation of a task in an inbox. -/
def statusOf (inboxes : Inboxes) (recipient taskRef : String) :
    Except PyError (Option Delegation) :=
  (delegations sp inboxes recipient none).map (·.foldl (latestStep taskRef) none)

/-! ## Calls -/

structure TaskBus where
  spelling : Spelling
  maxMessages : Int
  /-- Whether a kanban is wired. -/
  mirrors : Bool

/-- The id and the time of the message that is stored, and the time of the kanban write. -/
structure Stamp where
  id : String
  ts : ℚ
  kanbanTs : ℚ

structure State where
  inboxes : Inboxes
  board : Board

/-- `dict.setdefault`. -/
def setDefault (d : Dict) (key : String) (v : Json) : Dict :=
  if (d.lookup key).isSome then d else d ++ [(key, v)]

/-- `d.update(e)` -/
def dictUpdate (d e : Dict) : Dict :=
  e.foldl (fun d kv =>
    if (d.lookup kv.1).isSome then d.map fun old => if old.1 = kv.1 then kv else old else d ++ [kv]) d

structure SendArgs where
  sender : String
  recipient : String
  msgType : String
  summary : String
  body : Dict
  inReplyTo : Option String

def SendArgs.message (a : SendArgs) (t : Stamp) : Message where
  id := t.id
  ts := t.ts
  sender := a.sender
  recipient := a.recipient
  kind := a.msgType
  body := if a.summary = "" then a.body else setDefault a.body "summary" (.str a.summary)
  inReplyTo := a.inReplyTo

/-- A checked message goes to its inbox, or to all of them. -/
def send (bus : TaskBus) (a : SendArgs) (t : Stamp) (s : State) : Except PyError Message × State :=
  match validateSend bus.spelling a.sender a.recipient a.msgType with
  | .error e => (.error e, s)
  | .ok () => (.ok (a.message t), { s with inboxes := deliver bus.maxMessages (a.message t) s.inboxes })

/-- `_send_delegation`: the message gets an id and a time of its own, and is read back. -/
def sendDelegation (bus : TaskBus) (d : Delegation) (t : Stamp) (s : State) :
    Except PyError Delegation × State :=
  let stored := { d.toMessage bus.spelling with id := t.id, ts := t.ts }
  (fromMessage bus.spelling stored, { s with inboxes := deliver bus.maxMessages stored s.inboxes })

/-- `dict(e)` of a dict with text keys. -/
def strKeys (e : Dict) : List (Json × Json) := e.map fun kv => (.str kv.1, kv.2)

structure DelegateArgs where
  sender : String
  recipient : String
  taskRef : String
  prompt : String
  summary : String
  filesOwned : Option (List String)
  acceptance : Option (List String)
  route : Option String
  deadlineS : Option Int
  baseSha : Option String
  worktreeHint : Option String
  extraPayload : Dict

def DelegateArgs.payload (a : DelegateArgs) : Dict :=
  dictUpdate
    ([("prompt", .str a.prompt)] ++ (a.filesOwned.map fun v => ("files_owned", .ofStrs v)).toList ++
      (a.acceptance.map fun v => ("acceptance", .ofStrs v)).toList ++
      (a.route.map fun v => ("route", .str v)).toList ++
      (a.deadlineS.map fun v => ("deadline_s", .int v)).toList ++
      (a.baseSha.map fun v => ("base_sha", .str v)).toList ++
      (a.worktreeHint.map fun v => ("worktree_hint", .str v)).toList)
    a.extraPayload

/-- The id and the time are those of the stored message in the end. -/
def DelegateArgs.delegation (a : DelegateArgs) (t : Stamp) : Delegation where
  taskRef := a.taskRef
  sender := a.sender
  recipient := a.recipient
  status := .delegated
  id := t.id
  ts := t.ts
  summary := if a.summary = "" then "delegated " ++ a.taskRef ++ " → " ++ a.recipient else a.summary
  branch := .null
  prNumber := .null
  payload := strKeys a.payload
  inReplyTo := none

/-- `delegate` checks reference, prompt and addresses before it stores anything. -/
def delegate (bus : TaskBus) (a : DelegateArgs) (t : Stamp) (s : State) :
    Except PyError Delegation × State :=
  if a.taskRef = "" then (.error (.valueError "task_ref must be a non-empty kanban task id"), s)
  else if a.prompt = "" then (.error (.valueError "prompt must be a non-empty string"), s)
  else
    match validateSend bus.spelling a.sender a.recipient DelegationStatus.delegated.value with
    | .error e => (.error e, s)
    | .ok () => sendDelegation bus (a.delegation t) t s

structure UpdateArgs where
  sender : String
  recipient : String
  taskRef : String
  status : DelegationStatus
  summary : String
  branch : Option String
  prNumber : Option Int
  inReplyTo : Option String
  extraPayload : Dict

def UpdateArgs.delegation (a : UpdateArgs) (t : Stamp) : Delegation where
  taskRef := a.taskRef
  sender := a.sender
  recipient := a.recipient
  status := a.status
  id := t.id
  ts := t.ts
  summary := if a.summary = "" then a.status.value ++ " " ++ a.taskRef else a.summary
  branch := ofOption .str a.branch
  prNumber := ofOption .int a.prNumber
  payload := strKeys a.extraPayload
  inReplyTo := a.inReplyTo

/-- The status of a task for that of its delegation. A fresh delegation moves nothing. -/
def KANBAN_STATUS : DelegationStatus → Option TaskStatus
  | .claimed | .progress => some .inProgress
  | .done => some .done
  | .failed => some .failed
  | .blocked => some .needsReview
  | .delegated => none

/-- `_mirror_kanban`, which logs what the kanban raises. -/
def mirrorKanban (bus : TaskBus) (d : Delegation) (ts : ℚ) (b : Board) : Board :=
  if !bus.mirrors then b
  else
    match KANBAN_STATUS d.status with
    | none => b
    | some status =>
      let prPath := match d.prNumber with
        | .null => []
        | n => [Field.prPath (some ("PR#" ++ n.toStr bus.spelling))]
      (Kanban.update b d.taskRef ([.status status.value] ++ prPath)
        (some ("bus:" ++ d.status.value ++ ":" ++ d.sender)) ts).2

/-- `update_status` stores its message and moves the task on the board where it can. -/
def updateStatus (bus : TaskBus) (a : UpdateArgs) (t : Stamp) (s : State) :
    Except PyError Delegation × State :=
  if a.taskRef = "" then (.error (.valueError "task_ref must be a non-empty kanban task id"), s)
  else
    match validateSend bus.spelling a.sender a.recipient a.status.value with
    | .error e => (.error e, s)
    | .ok () =>
      match sendDelegation bus (a.delegation t) t s with
      | (.error e, s) => (.error e, s)
      | (.ok sent, s) => (.ok sent, { s with board := mirrorKanban bus sent t.kanbanTs s.board })

end Swarm.Bus
