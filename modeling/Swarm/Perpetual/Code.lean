import Swarm.Resilience
import Swarm.Supervisor.Code

/-!
# The perpetual loop, as `perpetual.py` computes it

The outside of the loop is an `Env`. Dispatches are counted, and everything else is read at a
moment: the number of abort polls so far. The naps between ticks only pass time.
-/

namespace Swarm.Perpetual

open Kanban Supervisor Resilience

/-! ## The driver -/

/-- What the driver learns from its peek: the head to claim for. -/
def peekHead (b : Board) : Except PyError (Option String) :=
  (unblocked b none (some 1)).map fun ready => ready.head?.map (·.requiredHead)

/-- `_drive_claimed_task` after its claim. A transient error goes back to PENDING and out; the
other lines are those of `_dispatch_one`. -/
def release (roster : Roster) (answer : Answer) (claimed : Kanban.Task) (t : Times) (s : State) :
    Except Exn Kanban.Task × State :=
  match pickHead roster claimed.requiredHead with
  | none =>
    let w := after (update s.board claimed.id (failedFields "no matching head" t.completedAt) none
      t.updateTs) (.ok claimed)
    (w.1, { s with board := w.2 })
  | some _ =>
    match answer with
    | .error e =>
      if e.cls ≠ .abortRequested ∧ (classifyError e).isSome then
        let w := after (transition s.board claimed.id .pending (some "transient; will retry")
          t.updateTs) (.error (.raised e))
        (w.1, { s with board := w.2 })
      else dispatchOne (.error e) claimed t s
    | .ok o => dispatchOne (.ok o) claimed t s

def dispatched (roster : Roster) (claimed : Kanban.Task) (peeked board : Board) : List Dispatch :=
  ((pickHead roster claimed.requiredHead).map fun head => ⟨head, claimed, peeked, board⟩).toList

def driveClaimedTask (cfg : Supervisor.Config) (roster : Roster) (answers : Nat → Answer)
    (t : Times) (s : State) : Except Exn (Option Kanban.Task) × State :=
  match peekHead s.board with
  | .error e => (.error (.program e), s)
  | .ok none => (.ok none, s)
  | .ok (some requiredHead) =>
    match claimOne s.board (cfg.teammateName ++ ":" ++ requiredHead) (some requiredHead)
        t.startedAt t.claimTs with
    | (.error e, b) => (.error (.program e), { s with board := b })
    | (.ok none, b) => (.ok none, { s with board := b })
    | (.ok (some claimed), b) =>
      let out := release roster (answers s.calls.length) claimed t
        { s with board := b, calls := s.calls ++ dispatched roster claimed s.board b }
      (out.1.map some, out.2)

/-! ## The loop -/

/-- What a work source or a verify hook does: it submits tasks, then answers or raises. -/
structure Filing where
  tasks : List (Kanban.Task × ℚ)
  answer : Except Exn (List String)

/-- `PerpetualConfig` without `idle_heartbeat_s` and `busy_poll_s`, the naps of `run` between its
passes. -/
structure Config where
  name : String
  maxTicks : Option Int
  statusPath : Option String
  backoff : BackoffPolicy
  maxAttempts : Int

/-- What the world answers, by the number of the question. -/
structure Env where
  answers : Nat → Answer
  shouldAbort : Nat → Bool
  times : Nat → Times
  uniform : Nat → ℚ → ℚ → ℚ
  resolve : Nat → String → Option String
  generate : Nat → Filing
  verify : Option (Nat → String → Filing)
  now : Nat → ℚ

/-- `PerpetualStats`. -/
structure Stats where
  ticks : Nat
  dispatched : Nat
  generated : Nat
  idleTicks : Nat
  transientRecoveries : Nat
  startedAt : ℚ
  lastTickAt : Option ℚ

structure Checkpoint where
  base : Supervisor.Status
  name : String
  stats : Stats
  uptimeS : ℚ

/-- `checkpoints` is what was handed to the status file, in order. -/
structure LoopState where
  sup : State
  polls : Nat
  rotator : Option KeyRotator
  stats : Stats
  checkpoints : List Checkpoint

variable (scfg : Supervisor.Config) (roster : Roster) (cfg : Config) (env : Env)

/-- One question whether to stop. -/
def poll (s : LoopState) : Bool × LoopState :=
  (env.shouldAbort s.polls, { s with polls := s.polls + 1 })

/-- The driver as `resilient_call` sees it. The credential is for the conductor. -/
def world : World LoopState (Option Kanban.Task) where
  fn _ s :=
    let out := driveClaimedTask scfg roster env.answers (env.times s.polls) s.sup
    (out.1, { s with sup := out.2 })
  shouldAbort := poll env
  sleep wait _ := timeSleep wait
  uniform s := env.uniform s.polls
  resolve s := env.resolve s.polls

def Config.options (cfg : Config) : Options := ⟨cfg.backoff, cfg.maxAttempts, 2⟩

/-- The drive inside `resilient_call`, which keeps its rotator. -/
def resilientDrive (s : LoopState) : Except Exn (Option Kanban.Task) × LoopState :=
  let (result, call) := resilientCall (world scfg roster env) cfg.options s s.rotator none
  let s := { call.world with rotator := call.rotator }
  match result with
  | .error e => (.error e, s)
  | .ok task =>
    let recovered := if 1 < call.stats.attempts then 1 else 0
    (.ok task, { s with
      stats := { s.stats with transientRecoveries := s.stats.transientRecoveries + recovered } })

/-- The board after a filing, whatever each submit answers. -/
def file (b : Board) (filing : Filing) : Board :=
  filing.tasks.foldl (fun b t => (submit b t.1 t.2).2) b

/-- `_safe_generate`: what the work source raises is logged. -/
def safeGenerate (s : LoopState) : List String × LoopState :=
  let filing := env.generate s.polls
  let s := { s with sup := { s.sup with board := file s.sup.board filing } }
  match filing.answer with
  | .ok ids => (ids, s)
  | .error _ => ([], s)

/-- `_safe_verify`, when there is a hook. -/
def safeVerify (taskId : String) (s : LoopState) : LoopState :=
  match env.verify with
  | none => s
  | some verify =>
    { s with sup := { s.sup with board := file s.sup.board (verify s.polls taskId) } }

/-- `tick`: whether anything was done. -/
def tick (s : LoopState) : Except Exn Bool × LoopState :=
  let s := { s with stats := { s.stats with
    ticks := s.stats.ticks + 1
    lastTickAt := some (env.now s.polls) } }
  match resilientDrive scfg roster cfg env s with
  | (.error e, s) => (.error e, s)
  | (.ok (some task), s) =>
    let s := { s with stats := { s.stats with dispatched := s.stats.dispatched + 1 } }
    (.ok true, safeVerify env task.id s)
  | (.ok none, s) =>
    match drained s.sup.board with  -- `_board_idle`
    | .error e => (.error (.program e), s)
    | .ok false => (.ok false, s)
    | .ok true =>
      let s := { s with stats := { s.stats with idleTicks := s.stats.idleTicks + 1 } }
      let (filed, s) := safeGenerate env s
      (.ok false, { s with stats := { s.stats with generated := s.stats.generated + filed.length } })

def status (s : LoopState) : Except PyError Checkpoint := do
  let base ← Supervisor.status scfg roster s.sup
  return ⟨base, cfg.name, s.stats, Lib.roundTo 1 (env.now s.polls - s.stats.startedAt)⟩

/-- `_checkpoint`. An OSError of the file is logged, so only the status can raise. -/
def checkpoint (s : LoopState) : Except Exn Unit × LoopState :=
  match cfg.statusPath with
  | none => (.ok (), s)
  | some _ =>
    match status scfg roster cfg env s with
    | .error e => (.error (.program e), s)
    | .ok c => (.ok (), { s with checkpoints := s.checkpoints ++ [c] })

/-- Why the loop ends. -/
inductive Exit
  | maxTicks
  | stopped
  | aborted
  | raised (e : Exn)

/-- What a round of `run` comes to. -/
inductive Turn
  | again (s : LoopState)
  | exit (why : Exit) (s : LoopState)

def finish (why : Exit) (s : LoopState) : Turn :=
  match checkpoint scfg roster cfg env s with
  | (.ok (), s) => .exit why s
  | (.error e, s) => .exit (.raised e) s

/-- One round of `run`. Its naps are left out. -/
def turn (s : LoopState) : Turn :=
  if cfg.maxTicks.any (· ≤ (s.stats.ticks : Int)) then finish scfg roster cfg env .maxTicks s
  else
    let (abort, s) := poll env s
    if abort then finish scfg roster cfg env .stopped s
    else
      match tick scfg roster cfg env s with
      | (.error e, s) =>
        if e.isAbort then finish scfg roster cfg env .aborted s else .exit (.raised e) s
      | (.ok _, s) =>
        match checkpoint scfg roster cfg env s with
        | (.error e, s) => .exit (.raised e) s
        | (.ok (), s) => .again s

/-- `run`: `none` when `fuel` passes are not enough. -/
def run : Nat → LoopState → Option (Exit × LoopState)
  | 0, _ => none
  | fuel + 1, s =>
    match turn scfg roster cfg env s with
    | .exit why s => some (why, s)
    | .again s => run fuel s

end Swarm.Perpetual
