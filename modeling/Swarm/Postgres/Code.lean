import Swarm.Postgres.Schema

/-!
# The calls of `postgres_bus.py`

A client keeps whether it has migrated. The rows are in a table that other clients use too. `takes`
says which values the column types and the indexes take.
-/

namespace Swarm.Postgres

open Swarm.Bus

structure PostgresBus where
  spelling : Spelling
  autoMigrate : Bool
  migrated : Bool

/-- What a call gives, with the client and the database that it leaves. -/
abbrev Result (α : Type) := Except Error α × PostgresBus × Database

/-- `_maybe_migrate`: once for each client, unless it raises. -/
def maybeMigrate (bus : PostgresBus) (db : Database) : Except Error Unit × PostgresBus × Database :=
  if bus.autoMigrate && !bus.migrated then
    match ensureSchema bus.spelling db with
    | (.error e, db) => (.error e, bus, db)
    | (.ok (), db) => (.ok (), { bus with migrated := true }, db)
  else (.ok (), bus, db)

/-! ## Send -/

/-- The arguments of `send`, which are the values of the INSERT. -/
structure Values where
  sender : String
  recipient : String
  msgType : String
  summary : String
  taskRef : Option String
  branch : Option String
  prNumber : Option Int
  payload : Dict
  ackOf : Option Int

def Values.row (v : Values) (id : Nat) (now : ℚ) : Row where
  id := id
  createdAt := now
  sender := v.sender
  recipient := v.recipient
  msgType := v.msgType
  taskRef := v.taskRef
  branch := v.branch
  prNumber := v.prNumber
  summary := v.summary
  payload := v.payload
  status := "unread"
  ackOf := v.ackOf
  readAt := none
  ackedAt := none

/-- A refused row has used its id. -/
def Table.insert (v : Values) (now : ℚ) (t : Table) : Except Error Nat × Table :=
  match h : t.constraints.find? fun c => !c.accepts (v.row t.nextId now) with
  | some c =>
    (.error (.checkViolation c.conname),
      { t with nextId := t.nextId + 1, past := fun r hr => Nat.lt_succ_of_lt (t.past r hr) })
  | none =>
    (.ok t.nextId,
      { t with
        rows := t.rows ++ [v.row t.nextId now]
        nextId := t.nextId + 1
        byId := by
          rw [List.pairwise_append]
          refine ⟨t.byId, List.pairwise_singleton _ _, fun r hr r' hr' => ?_⟩
          rw [List.mem_singleton.mp hr']
          exact t.past r hr
        past := by
          intro r hr
          rcases List.mem_append.mp hr with hr | hr
          · exact Nat.lt_succ_of_lt (t.past r hr)
          · rw [List.mem_singleton.mp hr]
            exact Nat.lt_succ_self t.nextId
        checked := by
          intro r hr c hc
          rcases List.mem_append.mp hr with hr | hr
          · exact t.checked r hr c hc
          · rw [List.mem_singleton.mp hr]
            simpa using List.find?_eq_none.mp h c hc })

/-- Broadcasts are in the lane `all`. -/
def lane (recipient : String) : String := if recipient = BROADCAST then "all" else recipient

variable (takes : Values → Bool)

/-- `send` checks the summary and the names, and the CHECKs of the table the rest. -/
def send (bus : PostgresBus) (v : Values) (now : ℚ) (db : Database) : Result Nat :=
  if v.summary = "" then (.error (.raised (.valueError "summary must be a non-empty string")), bus, db)
  else
    match validateSend bus.spelling v.sender v.recipient v.msgType with
    | .error e => (.error (.raised e), bus, db)
    | .ok () =>
      match maybeMigrate bus db with
      | (.error e, bus, db) => (.error e, bus, db)
      | (.ok (), bus, db) =>
        match db.table with
        | none => (.error .undefinedTable, bus, db)
        | some t =>
          let v := { v with recipient := lane v.recipient }
          if !takes v then (.error .dataError, bus, db)
          else
            let out := t.insert v now
            (out.1, bus, { db with table := some out.2 })

/-- A `Delegation` without its id and time, which this transport neither stores nor reads. -/
structure Handoff where
  taskRef : String
  sender : String
  recipient : String
  status : DelegationStatus
  summary : String
  branch : Option String
  prNumber : Option Int
  payload : Dict

def Handoff.values (h : Handoff) : Values where
  sender := h.sender
  recipient := h.recipient
  msgType := h.status.value
  summary := if h.summary = "" then h.status.value ++ " " ++ h.taskRef else h.summary
  taskRef := some h.taskRef
  branch := h.branch
  prNumber := h.prNumber
  payload := h.payload
  ackOf := none

def sendDelegation (bus : PostgresBus) (h : Handoff) (now : ℚ) (db : Database) : Result Nat :=
  send takes bus h.values now db

/-! ## Reads -/

structure PollArgs where
  recipient : String
  unreadOnly : Bool
  sinceId : Option Nat
  /-- An empty set is no filter. -/
  msgTypes : List String
  limit : Int

/-- The WHERE clause of `poll`. -/
def PollArgs.selects (a : PollArgs) (r : Row) : Bool :=
  (r.recipient == a.recipient || r.recipient == "all") && (!a.unreadOnly || r.status == "unread") &&
    a.sinceId.all (· < r.id) && (a.msgTypes.isEmpty || a.msgTypes.contains r.msgType)

/-- `poll`: the oldest rows first, up to the limit. -/
def poll (bus : PostgresBus) (a : PollArgs) (db : Database) : Result (List Row) :=
  if a.recipient ∉ VALID_PARTICIPANTS && !startsWildcard a.recipient then
    (.error (.raised (.valueError ("recipient " ++ bus.spelling.quote a.recipient ++
      " not a valid participant"))), bus, db)
  else
    match maybeMigrate bus db with
    | (.error e, bus, db) => (.error e, bus, db)
    | (.ok (), bus, db) =>
      match db.table with
      | none => (.error .undefinedTable, bus, db)
      | some t =>
        if a.limit < 0 then (.error .invalidLimit, bus, db)
        else (.ok ((t.rows.filter a.selects).take a.limit.toNat), bus, db)

/-- A row of `delegations`. -/
def Row.handoff (sp : Spelling) (r : Row) : Except PyError Handoff :=
  match DelegationStatus.ofValue r.msgType with
  | none => .error (.valueError (sp.quote r.msgType ++ " is not a valid DelegationStatus"))
  | some status =>
    .ok {
      taskRef := r.taskRef.getD ""
      sender := r.sender
      recipient := r.recipient
      status := status
      summary := r.summary
      branch := r.branch
      prNumber := r.prNumber
      payload := r.payload }

def delegations (bus : PostgresBus) (recipient : String) (status : Option DelegationStatus)
    (unreadOnly : Bool) (limit : Int) (db : Database) : Result (List Handoff) :=
  let types := match status with
    | some s => [s.value]
    | none => TASK_MSG_TYPES
  match poll bus ⟨recipient, unreadOnly, none, types, limit⟩ db with
  | (.error e, out) => (.error e, out)
  | (.ok rows, out) =>
    match rows.mapM (Row.handoff bus.spelling) with
    | .error e => (.error (.raised e), out)
    | .ok handoffs => (.ok handoffs, out)

/-! ## `mark_read` -/

def Row.read (now : ℚ) (r : Row) : Row := { r with status := "read", readAt := some now }

/-- The UPDATE of `mark_read`, which has no reader in it. -/
def Row.marked (ids : List Nat) (now : ℚ) (r : Row) : Row :=
  if ids.contains r.id && r.status == "unread" then r.read now else r

@[simp] theorem marked_id (ids : List Nat) (now : ℚ) (r : Row) : (r.marked ids now).id = r.id := by
  unfold Row.marked
  split <;> rfl

@[simp] theorem marked_recipient (ids : List Nat) (now : ℚ) (r : Row) :
    (r.marked ids now).recipient = r.recipient := by
  unfold Row.marked
  split <;> rfl

/-- The checks see each row that the UPDATE writes. -/
def Table.markRead (ids : List Nat) (now : ℚ) (t : Table) : Except Error Table :=
  match h : t.constraints.find? fun c => t.rows.any fun r => !c.accepts (r.marked ids now) with
  | some c => .error (.checkViolation c.conname)
  | none =>
    .ok { t with
      rows := t.rows.map (Row.marked ids now)
      byId := by
        rw [List.pairwise_map]
        simpa using t.byId
      past := by
        intro r hr
        obtain ⟨old, hold, rfl⟩ := List.mem_map.mp hr
        simpa using t.past old hold
      checked := by
        intro r hr c hc
        obtain ⟨old, hold, rfl⟩ := List.mem_map.mp hr
        have hnone := List.find?_eq_none.mp h c hc
        simp only [List.any_eq_true, not_exists, not_and] at hnone
        simpa using hnone old hold }

/-- `mark_read`. -/
def markRead (bus : PostgresBus) (ids : List Nat) (now : ℚ) (db : Database) : Result Unit :=
  if ids = [] then (.ok (), bus, db)
  else
    match maybeMigrate bus db with
    | (.error e, bus, db) => (.error e, bus, db)
    | (.ok (), bus, db) =>
      match db.onTable (Table.markRead ids now) with
      | .error e => (.error e, bus, db)
      | .ok db => (.ok (), bus, db)

end Swarm.Postgres
