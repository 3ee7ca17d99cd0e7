import Swarm.Kanban.Update
import Swarm.Lib.Rounding

/-!
# The supervisor, as `supervisor.py` computes it

One thread runs the loop. The conductor answers the n-th dispatch with a result or with
what it raised. `calls` is a ghost: the tasks it was given, each with the board of the peek.
-/

namespace Swarm.Supervisor

open Kanban

structure Head where
  name : String
  deriving DecidableEq, Repr

abbrev Roster := List (String × Head)

/-- What a conductor answers. A cost that is nan and a result with lone surrogates, which SQLite
refuses at the write-back, are left out. -/
structure DispatchResult where
  status : TaskStatus
  costUsd : ℚ
  result : Option String
  error : Option String
  prPath : Option String
  deriving DecidableEq, Repr

abbrev Answer := Except Raised DispatchResult

abbrev Conductor := Nat → Head → Kanban.Task → Answer

structure Config where
  teammateName : String
  abortRoot : Option String
  maxIterations : Option Int
  costCapUsd : ℚ
  waitForWork : Bool

/-- The readings of `time.time()` in one step. -/
structure Times where
  startedAt : ℚ
  claimTs : ℚ
  completedAt : ℚ
  updateTs : ℚ

structure Dispatch where
  head : Head
  task : Kanban.Task
  peeked : Board
  board : Board

structure State where
  board : Board
  costSoFarUsd : ℚ
  turn : Nat
  calls : List Dispatch

/-- An exact match wins, else the builder. -/
def pickHead (roster : Roster) (requiredHead : String) : Option Head :=
  (roster.lookup requiredHead).or (roster.lookup "builder")

/-! ## The write-back -/

def outcomeFields (o : DispatchResult) (completedAt : ℚ) : List Field :=
  [.status o.status.value, .costUsd o.costUsd, .result o.result, .error o.error,
    .prPath o.prPath, .completedAt (some completedAt)]

def failedFields (error : String) (completedAt : ℚ) : List Field :=
  [.status "failed", .error (some error), .completedAt (some completedAt)]

/-- What a kanban write that a handler makes leaves: its own error, or `next`. -/
def after {α β : Type} (write : Except PyError α × Board) (next : Except Exn β) :
    Except Exn β × Board :=
  match write with
  | (.error e, b) => (.error (.program e), b)
  | (.ok _, b) => (next, b)

/-- `_dispatch_one`, from the answer on. `step` has the same lines after its claim. -/
def dispatchOne (answer : Answer) (claimed : Kanban.Task) (t : Times) (s : State) :
    Except Exn Kanban.Task × State :=
  match answer with
  | .error e =>
    if e.cls = .abortRequested then
      let w := after (transition s.board claimed.id .pending (some "aborted") t.updateTs)
        (.error (.raised e))
      (w.1, { s with board := w.2 })
    else
      let w := after (update s.board claimed.id (failedFields e.repr t.completedAt) none t.updateTs)
        (.ok claimed)
      (w.1, { s with board := w.2 })
  | .ok o =>
    let w := after (update s.board claimed.id (outcomeFields o t.completedAt) none t.updateTs)
      (.ok claimed)
    (w.1, { s with board := w.2, costSoFarUsd := s.costSoFarUsd + o.costUsd, turn := s.turn + 1 })

/-! ## The loop -/

variable (cfg : Config) (roster : Roster) (conductor : Conductor)

def workerId (head : Head) : String := cfg.teammateName ++ ":" ++ head.name

/-- `raise_if_set` of the abort marker, if there is one to look for: `marker` is whether the
file exists. -/
def raiseIfSet (marker : Bool) : Except Exn Unit :=
  match cfg.abortRoot with
  | none => .ok ()
  | some root =>
    if marker then
      .error (.raised (abortRequested (abortMarkerPath root cfg.teammateName) cfg.teammateName))
    else .ok ()

def step (marker : Bool) (t : Times) (s : State) : Except Exn (Option Kanban.Task) × State :=
  match raiseIfSet cfg marker with
  | .error e => (.error e, s)
  | .ok () =>
    match unblocked s.board none (some 1) with
    | .error e => (.error (.program e), s)
    | .ok [] => (.ok none, s)
    | .ok (task :: _) =>
      match pickHead roster task.requiredHead with
      | none => (.ok none, s)
      | some head =>
        match claimOne s.board (workerId cfg head) (some task.requiredHead) t.startedAt t.claimTs with
        | (.error e, b) => (.error (.program e), { s with board := b })
        | (.ok none, b) => (.ok none, { s with board := b })
        | (.ok (some claimed), b) =>
          if claimed.id ≠ task.id then (.ok none, { s with board := b })
          else
            let call : Dispatch := ⟨head, claimed, s.board, b⟩
            let out := dispatchOne (conductor s.calls.length head claimed) claimed t
              { s with board := b, calls := s.calls ++ [call] }
            (out.1.map some, out.2)

def drained (b : Board) : Except PyError Bool := do
  let pending ← listTasks b (some .pending) none none
  let inProg ← listTasks b (some .inProgress) none none
  return pending.isEmpty && inProg.isEmpty

/-- `run` with `max_parallel = 1`, from iteration `i` on: `none` when `fuel` iterations are
not enough. The marker, the clock and `on_idle` are read by iteration. -/
def run (marker : Nat → Bool) (clock : Nat → Times)
    (onIdle : Nat → Board → Except Exn Unit × Board) :
    Nat → Nat → State → Option (Except Exn Unit × State)
  | 0, _, _ => none
  | fuel + 1, i, s =>
    if cfg.maxIterations.any (· ≤ (i : Int)) then some (.ok (), s)
    else
      match step cfg roster conductor (marker i) (clock i) s with
      | (.error e, s') => if e.isAbort then some (.ok (), s') else some (.error e, s')
      | (.ok (some _), s') => run marker clock onIdle fuel (i + 1) s'
      | (.ok none, s') =>
        match onIdle i s'.board with
        | (.error e, b) => some (.error e, { s' with board := b })
        | (.ok (), b) =>
          match drained b with
          | .error e => some (.error (.program e), { s' with board := b })
          | .ok done =>
            if done && !cfg.waitForWork then some (.ok (), { s' with board := b })
            else run marker clock onIdle fuel (i + 1) { s' with board := b }

def fresh (b : Board) : State := ⟨b, 0, 0, []⟩

/-! ## Status -/

structure Status where
  teammate : String
  turn : Nat
  costSoFarUsd : ℚ
  costCapUsd : ℚ
  pending : Nat
  inProgress : Nat
  done : Nat
  failed : Nat
  heads : List String

def status (s : State) : Except PyError Status := do
  let pending ← listTasks s.board (some .pending) none none
  let inProgress ← listTasks s.board (some .inProgress) none none
  let done ← listTasks s.board (some .done) none none
  let failed ← listTasks s.board (some .failed) none none
  return {
    teammate := cfg.teammateName
    turn := s.turn
    costSoFarUsd := Lib.roundTo 4 s.costSoFarUsd
    costCapUsd := cfg.costCapUsd
    pending := pending.length
    inProgress := inProgress.length
    done := done.length
    failed := failed.length
    heads := sortedSet (roster.map (·.1)) }

end Swarm.Supervisor
