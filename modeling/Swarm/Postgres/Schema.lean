import Swarm.Bus.Code

/-!
# The schema of `postgres_bus.py`

A statement takes the database or raises and leaves it. A connection with autocommit keeps what the
statements before a refused one did.
-/

namespace Swarm.Postgres

open Swarm.Bus Swarm.Kanban

/-! ## The value lists -/

def SENDER_VALUES : List String := sortedSet (VALID_PARTICIPANTS.filter (· ≠ "all"))

def RECIPIENT_VALUES : List String := sortedSet VALID_PARTICIPANTS

def MSG_TYPE_VALUES : List String := sortedSet VALID_MSG_TYPES

/-- What a call to the database raises. -/
inductive Error
  | raised (e : PyError)
  | undefinedTable
  | checkViolation (conname : String)
  | duplicateObject (conname : String)
  /-- A value that the type of its column, or an index, does not take. -/
  | dataError
  /-- A LIMIT that is negative. -/
  | invalidLimit
  deriving DecidableEq, Repr

def quoted (v : String) : String := "'" ++ v ++ "'"

/-- `_sql_in_list` refuses a value with a quote in it. -/
def sqlInList (sp : Spelling) (values : List String) : Except PyError String :=
  match values.find? (·.toList.contains (Char.ofNat 39)) with
  | some v => .error (.valueError ("taxonomy value " ++ sp.quote v ++ " contains a single quote"))
  | none => .ok (", ".intercalate (values.map quoted))

/-! ## The table -/

/-- The columns of a row. The payload is an object, as `send` writes it, and one that `jsonb` gives
back as it was written: a float such as 1e22 is not, which comes back as an int. -/
structure Row where
  id : Nat
  createdAt : ℚ
  sender : String
  recipient : String
  msgType : String
  taskRef : Option String
  branch : Option String
  prNumber : Option Int
  summary : String
  payload : Dict
  status : String
  ackOf : Option Int
  readAt : Option ℚ
  ackedAt : Option ℚ

/-- A CHECK, with the text that `pg_get_constraintdef` has for it. -/
structure Constraint where
  conname : String
  definition : String
  accepts : Row → Bool

/-- The rows by id, each of which meets the checks. The sequence is past their ids. -/
@[ext]
structure Table where
  rows : List Row
  nextId : Nat
  constraints : List Constraint
  byId : rows.Pairwise (·.id < ·.id)
  past : ∀ r ∈ rows, r.id < nextId
  named : (constraints.map (·.conname)).Nodup
  checked : ∀ r ∈ rows, ∀ c ∈ constraints, c.accepts r = true

namespace Table

def empty : Table := ⟨[], 1, [], by simp, by simp, by simp, by simp⟩

/-- Whether the checks take a row. -/
def Accepts (t : Table) (r : Row) : Prop := ∀ c ∈ t.constraints, c.accepts r = true

/-- The constraints that meet `p` are dropped. -/
def dropWhere (p : Constraint → Bool) (t : Table) : Table :=
  { t with
    constraints := t.constraints.filter (!p ·)
    named := t.named.sublist (List.filter_sublist.map _)
    checked := fun r hr c hc => t.checked r hr c (List.mem_of_mem_filter hc) }

/-- `ADD CONSTRAINT`, which every row must meet. -/
def addConstraint (c : Constraint) (t : Table) : Except Error Table :=
  if hnamed : ((t.constraints ++ [c]).map (·.conname)).Nodup then
    if hchecked : ∀ r ∈ t.rows, c.accepts r = true then
      .ok { t with
        constraints := t.constraints ++ [c]
        named := hnamed
        checked := by
          intro r hr d hd
          rcases List.mem_append.mp hd with hd | hd
          · exact t.checked r hr d hd
          · rw [List.mem_singleton.mp hd]
            exact hchecked r hr }
    else .error (.checkViolation c.conname)
  else .error (.duplicateObject c.conname)

end Table

structure Database where
  table : Option Table
  indexes : List String
  notifyFunction : Bool
  trigger : Bool

/-- An absent table is a relation that does not exist. -/
def Database.onTable (f : Table → Except Error Table) (db : Database) : Except Error Database :=
  match db.table with
  | none => .error .undefinedTable
  | some t => (f t).map fun t => { db with table := some t }

/-! ## Widening -/

/-- `text LIKE pattern`, for a pattern without an escape. -/
def like : List Char → List Char → Bool
  | [], text => text.isEmpty
  | c :: pattern, text =>
    if c = '%' then text.tails.any (like pattern)
    else
      match text with
      | [] => false
      | d :: rest => (c == '_' || c == d) && like pattern rest

inductive Column
  | sender | recipient | msgType
  deriving DecidableEq, Repr

def Column.name : Column → String
  | sender => "sender"
  | recipient => "recipient"
  | msgType => "msg_type"

def Column.get : Column → Row → String
  | sender => (·.sender)
  | recipient => (·.recipient)
  | msgType => (·.msgType)

/-- One rendering of `_DDL_WIDEN_TEMPLATE`. -/
structure Widening where
  column : Column
  conname : String
  values : List String

namespace Widening

def constraint (w : Widening) : Constraint where
  conname := w.conname
  definition := "CHECK ((" ++ w.column.name ++ " = ANY (ARRAY[" ++
    ", ".intercalate (w.values.map fun v => quoted v ++ "::text") ++ "])))"
  accepts r := w.values.contains (w.column.get r)

/-- A CHECK that mentions the column, under another name. -/
def mentioned (w : Widening) (c : Constraint) : Bool :=
  like ("%" ++ w.column.name ++ "%").toList c.definition.toList && c.conname != w.conname

/-- One `DO` block of the migration: what mentions the column goes, and the fixed list comes. -/
def widen (w : Widening) (t : Table) : Except Error Table :=
  ((t.dropWhere w.mentioned).dropWhere (·.conname == w.conname)).addConstraint w.constraint

end Widening

def widenings : List Widening :=
  [⟨.sender, "chk_coord_msg_sender", SENDER_VALUES⟩,
    ⟨.recipient, "chk_coord_msg_recipient", RECIPIENT_VALUES⟩,
    ⟨.msgType, "chk_coord_msg_type", MSG_TYPE_VALUES⟩]

def widenSql (sp : Spelling) : Except PyError (List Widening) :=
  widenings.mapM fun w => (sqlInList sp w.values).map fun _ => w

/-! ## `ensure_schema` -/

abbrev Statement := Database → Except Error Database

/-- `CREATE TABLE IF NOT EXISTS` -/
def DDL_TABLE : Statement := fun db => .ok { db with table := some (db.table.getD .empty) }

/-- `CREATE INDEX IF NOT EXISTS` -/
def createIndex (indexes : List String) (name : String) : List String :=
  if name ∈ indexes then indexes else indexes ++ [name]

def createIndexes (indexes : List String) : List String :=
  ["ix_coord_msg_recipient_status_created", "ix_coord_msg_task_ref", "ix_coord_msg_type"].foldl
    createIndex indexes

def DDL_INDEXES : Statement := fun db => .ok { db with indexes := createIndexes db.indexes }

def DDL_TRIGGER_FN : Statement := fun db => .ok { db with notifyFunction := true }

def DDL_TRIGGER : Statement := fun db => .ok { db with trigger := true }

/-- The statements run in autocommit mode up to the first that raises. -/
def execute : List Statement → Database → Except Error Unit × Database
  | [], db => (.ok (), db)
  | stmt :: rest, db =>
    match stmt db with
    | .error e => (.error e, db)
    | .ok db => execute rest db

def ensureSchema (sp : Spelling) (db : Database) : Except Error Unit × Database :=
  match widenSql sp with
  | .error e => (.error (.raised e), (execute [DDL_TABLE] db).2)
  | .ok stmts =>
    execute ([DDL_TABLE] ++ stmts.map (fun w => Database.onTable w.widen) ++
      [DDL_INDEXES, DDL_TRIGGER_FN, DDL_TRIGGER]) db

end Swarm.Postgres
