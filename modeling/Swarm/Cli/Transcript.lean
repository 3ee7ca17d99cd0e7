import Swarm.Supervisor.Complete

/-!
# The global-mind transcript of `run`, as `cli/main.py` writes it

With `--global-mind-log` the command puts a wrapper in the place of `step`, which appends a JSON
line for every task that was dispatched. The loop is the supervisor's own, and with `--max-parallel`
above 1 it is `_run_parallel`, which never calls `step`.
-/

namespace Swarm.Cli

open Kanban Supervisor

/-- One line of the log. -/
structure Event where
  ts : ℚ
  turn : Nat
  taskId : String
  head : String
  title : String
  status : String
  elapsedS : ℚ
  costSoFarUsd : ℚ
  deriving DecidableEq, Repr

/-- The supervisor and the lines of its log. -/
structure Logged where
  sup : State
  log : List Event

/-- What one call of the wrapper reads: its clock, and what `open("a")` of the log raises. -/
structure Readings where
  times : Times
  t0 : ℚ
  ts : ℚ
  t1 : ℚ
  appends : Except Raised Unit

variable (cfg : Config) (roster : Roster) (conductor : Conductor)

/-- `kb.get(dispatched.id) or dispatched`, and `dispatched` where the read raises. -/
def fresh (b : Board) (dispatched : Kanban.Task) : Kanban.Task :=
  match get b dispatched.id with
  | .ok (some task) => task
  | .ok none | .error _ => dispatched

/-- `_logged_step` -/
def loggedStep (marker : Bool) (r : Readings) (s : Logged) :
    Except Exn (Option Kanban.Task) × Logged :=
  match step cfg roster conductor marker r.times s.sup with
  | (.error e, sup) => (.error e, { s with sup := sup })
  | (.ok none, sup) => (.ok none, { s with sup := sup })
  | (.ok (some dispatched), sup) =>
    let event : Event := {
      ts := r.ts
      turn := sup.turn
      taskId := dispatched.id
      head := dispatched.requiredHead
      title := dispatched.title
      status := (fresh sup.board dispatched).status.value
      elapsedS := Lib.roundTo 3 (r.t1 - r.t0)
      costSoFarUsd := Lib.roundTo 6 sup.costSoFarUsd }
    match r.appends with
    | .error e => (.error (.raised e), { s with sup := sup })
    | .ok () => (.ok (some dispatched), ⟨sup, s.log ++ [event]⟩)

/-- `run` with `step` in another method's place: `onBoard` is what an idle hook does to the
board. -/
def runWith {σ : Type} (sup : σ → State) (onBoard : σ → Board → σ)
    (stepAt : Nat → σ → Except Exn (Option Kanban.Task) × σ)
    (onIdle : Nat → Board → Except Exn Unit × Board) :
    Nat → Nat → σ → Option (Except Exn Unit × σ)
  | 0, _, _ => none
  | fuel + 1, i, s =>
    if cfg.maxIterations.any (· ≤ (i : Int)) then some (.ok (), s)
    else
      match stepAt i s with
      | (.error e, s') => if e.isAbort then some (.ok (), s') else some (.error e, s')
      | (.ok (some _), s') => runWith sup onBoard stepAt onIdle fuel (i + 1) s'
      | (.ok none, s') =>
        match onIdle i (sup s').board with
        | (.error e, b) => some (.error e, onBoard s' b)
        | (.ok (), b) =>
          match drained b with
          | .error e => some (.error (.program e), onBoard s' b)
          | .ok done =>
            if done && !cfg.waitForWork then some (.ok (), onBoard s' b)
            else runWith sup onBoard stepAt onIdle fuel (i + 1) (onBoard s' b)

def State.onBoard (s : State) (b : Board) : State := { s with board := b }

def Logged.onBoard (s : Logged) (b : Board) : Logged := { s with sup := { s.sup with board := b } }

/-- `_run_parallel` under a schedule of its threads, once it is out of the pool: what it returns or
raises. -/
def runParallel (maxParallel : Int) (schedule : List Parallel.Label) (s : State) :
    Option (Except Exn Unit × State) :=
  let ended := Lib.final (Parallel.step cfg roster maxParallel) { Parallel.start s.board with sup := s } schedule
  match ended.pc, ended.running with
  | .exited none, [] => some (.ok (), ended.sup)
  | .exited (some raised), [] => some (.error raised, ended.sup)
  | _, _ => none

/-- `Supervisor.run` -/
def runAny (maxParallel : Int) (schedule : List Parallel.Label) (marker : Nat → Bool)
    (clock : Nat → Times) (onIdle : Nat → Board → Except Exn Unit × Board) (fuel i : Nat)
    (s : State) :
    Option (Except Exn Unit × State) :=
  if 1 < maxParallel then runParallel cfg roster maxParallel schedule s
  else run cfg roster conductor marker clock onIdle fuel i s

/-- The same under `--global-mind-log`. -/
def loggedRun (maxParallel : Int) (schedule : List Parallel.Label) (marker : Nat → Bool)
    (readings : Nat → Readings) (onIdle : Nat → Board → Except Exn Unit × Board) (fuel i : Nat)
    (s : Logged) :
    Option (Except Exn Unit × Logged) :=
  if 1 < maxParallel then
    (runParallel cfg roster maxParallel schedule s.sup).map fun out => (out.1, { s with sup := out.2 })
  else
    runWith cfg Logged.sup Logged.onBoard (fun i => loggedStep cfg roster conductor (marker i) (readings i)) onIdle
      fuel i s

theorem run_eq_runWith (marker : Nat → Bool) (clock : Nat → Times)
    (onIdle : Nat → Board → Except Exn Unit × Board) (fuel i : Nat) (s : State) :
    run cfg roster conductor marker clock onIdle fuel i s =
      runWith cfg id State.onBoard (fun i => step cfg roster conductor (marker i) (clock i)) onIdle fuel i s := by
  induction fuel generalizing i s with
  | zero => rfl
  | succ fuel ih =>
    rw [run, runWith]
    by_cases hmax : cfg.maxIterations.any (· ≤ (i : Int)) = true
    · rw [if_pos hmax, if_pos hmax]
    rw [if_neg hmax, if_neg hmax]
    rcases step cfg roster conductor (marker i) (clock i) s with ⟨_ | _ | _, s'⟩
    · rfl
    · dsimp only [id_eq]
      rcases onIdle i s'.board with ⟨_ | _, b'⟩
      · rfl
      · dsimp only
        cases drained b' with
        | error e => rfl
        | ok done =>
          dsimp only
          rw [ih]
          rfl
    · exact ih (i + 1) s'

/-! ## One dispatch -/

/-- The cost of an answer, nothing for an exception. -/
def costOf : Answer → ℚ
  | .ok o => o.costUsd
  | .error _ => 0

/-- Only an outcome counts as a turn. -/
def turnsOf : Answer → Nat
  | .ok _ => 1
  | .error _ => 0

theorem dispatchOne_totals (answer : Answer) (claimed : Kanban.Task) (t : Times) (s : State) :
    (dispatchOne answer claimed t s).2.costSoFarUsd = s.costSoFarUsd + costOf answer ∧
      (dispatchOne answer claimed t s).2.turn = s.turn + turnsOf answer := by
  cases answer with
  | ok o => exact ⟨rfl, rfl⟩
  | error e =>
    simp only [dispatchOne, costOf, turnsOf, add_zero]
    split
    · exact ⟨rfl, rfl⟩
    · exact ⟨rfl, rfl⟩

/-- The step gave `d` to the conductor and wrote its answer back. -/
structure Handed (s s' : State) (d : Dispatch) (answer : Answer) : Prop where
  calls : s'.calls = s.calls ++ [d]
  cost : s'.costSoFarUsd = s.costSoFarUsd + costOf answer
  turn : s'.turn = s.turn + turnsOf answer
  row : ∃ r ∈ s'.board.tasks, r.id = d.task.id ∧ r.status = (answerStatus answer).value

/-- The step gave nothing to the conductor. -/
structure Passed (s s' : State) : Prop where
  calls : s'.calls = s.calls
  cost : s'.costSoFarUsd = s.costSoFarUsd
  turn : s'.turn = s.turn

theorem step_cases (marker : Bool) (t : Times) (s : State)
    (out : Except Exn (Option Kanban.Task) × State)
    (hstep : step cfg roster conductor marker t s = out) :
    (Passed s out.2 ∧ ∀ task, out.1 ≠ .ok (some task)) ∨
      ∃ d, Handed s out.2 d (conductor s.calls.length d.head d.task) ∧
        out.1 = (answerResult d.task (conductor s.calls.length d.head d.task)).map some := by
  have hpassed : ∀ b : Board, Passed s { s with board := b } := fun b => ⟨rfl, rfl, rfl⟩
  -- The marker, a peek that raises, an empty board and a task without a head come first.
  unfold step at hstep
  split at hstep
  · subst hstep
    exact .inl ⟨hpassed s.board, by simp⟩
  split at hstep
  · subst hstep
    exact .inl ⟨hpassed s.board, by simp⟩
  · subst hstep
    exact .inl ⟨hpassed s.board, by simp⟩
  next task rest hpeek =>
  split at hstep
  · subst hstep
    exact .inl ⟨hpassed s.board, by simp⟩
  next head hhead =>
  rcases claimOne_cases s.board (some task.requiredHead) (workerId cfg head) t.startedAt t.claimTs with
    ⟨-, -, hres⟩ | ⟨r, hr, -, -, -, -, heq⟩
  · split at hstep
    · subst hstep
      exact .inl ⟨hpassed _, by simp⟩
    · subst hstep
      exact .inl ⟨hpassed _, by simp⟩
    · next heq => exact absurd (congrArg Prod.fst heq) (hres _)
  · simp only [heq] at hstep
    split at hstep
    · subst hstep
      exact .inl ⟨hpassed _, by simp⟩
    · let d : Dispatch :=
        ⟨head, (claimRow (workerId cfg head) t.startedAt r).toTask .inProgress, s.board,
        claimedBoard s.board (workerId cfg head) t.startedAt t.claimTs r⟩
      let answer := conductor s.calls.length d.head d.task
      -- The task that was claimed is the one that the conductor is given.
      have hsel := select_claimedBoard s.board (workerId cfg head) t.startedAt t.claimTs r hr
      obtain ⟨hresult, hmoves, hcalls⟩ := dispatchOne_spec _ answer d.task t
        { s with board := d.board, calls := s.calls ++ [d] } hsel
      obtain ⟨hcost, hturn⟩ :=
        dispatchOne_totals answer d.task t { s with board := d.board, calls := s.calls ++ [d] }
      obtain ⟨hmem, hid⟩ := select_mem _ _ _ hsel
      subst hstep
      exact .inr ⟨d, ⟨hcalls, hcost, hturn, hmoves.moved _ hmem hid⟩, congrArg (Except.map some) hresult⟩

/-! ## The lines -/

/-- What a line says, its times apart. -/
structure Line where
  taskId : String
  head : String
  title : String
  status : String
  turn : Nat
  costSoFarUsd : ℚ
  deriving DecidableEq, Repr

/-- What a line says of its dispatch, without its times. -/
def Event.line (e : Event) : Line := ⟨e.taskId, e.head, e.title, e.status, e.turn, e.costSoFarUsd⟩

/-- The lines of dispatches from the `n`-th on: the status that each answer left, and the totals
after it. -/
def lines : ℚ → Nat → Nat → List Dispatch → List Line
  | _, _, _, [] => []
  | cost, turn, n, d :: rest =>
    let answer := conductor n d.head d.task
    let cost := cost + costOf answer
    let turn := turn + turnsOf answer
    ⟨d.task.id, d.task.requiredHead, d.task.title, (answerStatus answer).value, turn, Lib.roundTo 6 cost⟩ ::
      lines cost turn (n + 1) rest

/-- From `s` to `s'` the log has gained the lines of the dispatches, the last one perhaps apart. -/
def Transcribed (s s' : State) (events : List Event) : Prop :=
  ∃ new, s'.calls = s.calls ++ new ∧
    events.map Event.line <+: lines conductor s.costSoFarUsd s.turn s.calls.length new ∧
    new.length ≤ events.length + 1

variable {cfg roster conductor} {s s' s'' : State}

theorem Passed.transcribed (h : Passed s s') : Transcribed conductor s s' [] :=
  ⟨[], h.calls.trans (List.append_nil _).symm, List.nil_prefix, Nat.zero_le _⟩

theorem Passed.onBoard (h : Passed s s') (b : Board) : Passed s { s' with board := b } :=
  ⟨h.calls, h.cost, h.turn⟩

theorem Passed.cons {events : List Event} (h : Passed s s')
    (hrest : Transcribed conductor s' s'' events) :
    Transcribed conductor s s'' events := by
  unfold Transcribed at hrest ⊢
  rwa [h.calls, h.cost, h.turn] at hrest

theorem Handed.last {d : Dispatch} {answer : Answer} (h : Handed s s' d answer) :
    Transcribed conductor s s' [] :=
  ⟨[d], h.calls, List.nil_prefix, le_rfl⟩

theorem Handed.cons {d : Dispatch} {events : List Event} {event : Event}
    (h : Handed s s' d (conductor s.calls.length d.head d.task))
    (hevent : event.line = ⟨d.task.id, d.task.requiredHead, d.task.title,
      (answerStatus (conductor s.calls.length d.head d.task)).value, s'.turn,
        Lib.roundTo 6 s'.costSoFarUsd⟩)
    (hrest : Transcribed conductor s' s'' events) :
    Transcribed conductor s s'' (event :: events) := by
  obtain ⟨new, hcalls, hlines, hlen⟩ := hrest
  refine ⟨d :: new, ?_, ?_, Nat.succ_le_succ hlen⟩
  · rw [hcalls, h.calls, List.append_assoc, List.singleton_append]
  · rw [h.calls, List.length_append, List.length_singleton] at hlines
    rw [h.cost, h.turn] at hevent hlines
    rw [List.map_cons, lines, hevent]
    exact (List.cons_prefix_cons).mpr ⟨rfl, hlines⟩

theorem Handed.fresh_status {d : Dispatch} {answer : Answer} (h : Handed s s' d answer) :
    (fresh s'.board d.task).status = answerStatus answer := by
  -- The task that was written back is read with the status of its answer.
  obtain ⟨r, hr, hid, hstatus⟩ := h.row
  have hget :=
    get_of_select s'.board d.task.id r (answerStatus answer) ((select_eq_some _ _ _).mpr ⟨hr, hid⟩) hstatus
  simp only [fresh, hget]
  rfl

/-! ## Every run -/

/-- The wrapper is `step`, with one more line for a task that it dispatched. -/
theorem loggedStep_spec {marker : Bool} {r : Readings} (happends : r.appends = .ok ())
    (log : List Event) {result : Except Exn (Option Kanban.Task)}
    (hstep : step cfg roster conductor marker r.times s = (result, s')) :
    (Passed s s' ∧ loggedStep cfg roster conductor marker r ⟨s, log⟩ = (result, ⟨s', log⟩) ∧
        ∀ task, result ≠ .ok (some task)) ∨
      ∃ d, Handed s s' d (conductor s.calls.length d.head d.task) ∧
        ((∃ e, result = .error e ∧ loggedStep cfg roster conductor marker r ⟨s, log⟩ =
          (result, ⟨s', log⟩)) ∨
          ∃ event : Event, result = .ok (some d.task) ∧
            loggedStep cfg roster conductor marker r ⟨s, log⟩ = (result, ⟨s', log ++ [event]⟩) ∧
            event.line = ⟨d.task.id, d.task.requiredHead, d.task.title,
              (answerStatus (conductor s.calls.length d.head d.task)).value, s'.turn,
              Lib.roundTo 6 s'.costSoFarUsd⟩) := by
  rcases step_cases cfg roster conductor marker r.times s _ hstep with ⟨hpassed, hnone⟩ | ⟨d, hhanded, hresult⟩
  · refine .inl ⟨hpassed, ?_, hnone⟩
    simp only [loggedStep, hstep]
    cases result with
    | error e => rfl
    | ok task =>
      cases task with
      | none => rfl
      | some task => exact absurd rfl (hnone task)
  · refine .inr ⟨d, hhanded, ?_⟩
    dsimp only at hresult
    have hfresh := hhanded.fresh_status
    simp only [loggedStep, hstep, happends]
    unfold answerResult at hresult
    split at hresult
    · subst hresult
      refine .inr ⟨_, rfl, rfl, ?_⟩
      simp only [Event.line, hfresh]
    · split at hresult
      · subst hresult
        exact .inl ⟨_, rfl, rfl⟩
      · subst hresult
        refine .inr ⟨_, rfl, rfl, ?_⟩
        simp only [Event.line, hfresh]

/-- The two runs go side by side, and the log ends with new lines. -/
def Alongside (conductor : Conductor) (s : State) (log : List Event)
    (plain : Option (Except Exn Unit × State)) (logged : Option (Except Exn Unit × Logged)) :
    Prop :=
  match plain with
  | none => logged = none
  | some (result, s') =>
    ∃ events, logged = some (result, ⟨s', log ++ events⟩) ∧ Transcribed conductor s s' events

variable {marker : Nat → Bool} {readings : Nat → Readings}
    {onIdle : Nat → Board → Except Exn Unit × Board}

theorem Alongside.passed {log : List Event} {plain : Option (Except Exn Unit × State)}
    {logged : Option (Except Exn Unit × Logged)} (h : Passed s s')
    (hrest : Alongside conductor s' log plain logged) :
    Alongside conductor s log plain logged := by
  unfold Alongside at hrest ⊢
  split
  · exact hrest
  · obtain ⟨events, hlogged, htranscribed⟩ := hrest
    exact ⟨events, hlogged, h.cons htranscribed⟩

theorem Alongside.handed {d : Dispatch} {event : Event} {log : List Event}
    {plain : Option (Except Exn Unit × State)} {logged : Option (Except Exn Unit × Logged)}
    (h : Handed s s' d (conductor s.calls.length d.head d.task))
    (hevent : event.line = ⟨d.task.id, d.task.requiredHead, d.task.title,
      (answerStatus (conductor s.calls.length d.head d.task)).value, s'.turn,
        Lib.roundTo 6 s'.costSoFarUsd⟩)
    (hrest : Alongside conductor s' (log ++ [event]) plain logged) :
    Alongside conductor s log plain logged := by
  unfold Alongside at hrest ⊢
  split
  · exact hrest
  · obtain ⟨events, hlogged, htranscribed⟩ := hrest
    rw [List.append_assoc, List.singleton_append] at hlogged
    exact ⟨event :: events, hlogged, h.cons hevent htranscribed⟩

theorem serial_faithful (cfg : Config) (roster : Roster) (conductor : Conductor)
    (marker : Nat → Bool) (readings : Nat → Readings)
    (onIdle : Nat → Board → Except Exn Unit × Board)
    (happends : ∀ i, (readings i).appends = .ok ()) (fuel i : Nat) (s : State) (log : List Event) :
    Alongside conductor s log (run cfg roster conductor marker (fun i => (readings i).times) onIdle fuel i s)
      (runWith cfg Logged.sup Logged.onBoard
        (fun i => loggedStep cfg roster conductor (marker i) (readings i)) onIdle
        fuel i ⟨s, log⟩) := by
  rw [run_eq_runWith]
  induction fuel generalizing i s log with
  | zero => rfl
  | succ fuel ih =>
    rw [runWith, runWith]
    by_cases hmax : cfg.maxIterations.any (· ≤ (i : Int)) = true
    · rw [if_pos hmax, if_pos hmax]
      exact ⟨[], by rw [List.append_nil], Passed.transcribed ⟨rfl, rfl, rfl⟩⟩
    rw [if_neg hmax, if_neg hmax]
    rcases hstep : step cfg roster conductor (marker i) (readings i).times s with ⟨result, s'⟩
    rcases loggedStep_spec (happends i) log hstep with
      ⟨hpassed, hlogged, hnone⟩ | ⟨d, hhanded, ⟨e, rfl, hlogged⟩ | ⟨event, rfl, hlogged, hline⟩⟩
    · -- No dispatch, and the wrapper adds nothing.
      rw [hlogged]
      cases result with
      | error e =>
        dsimp only
        split
        · exact ⟨[], by rw [List.append_nil], hpassed.transcribed⟩
        · exact ⟨[], by rw [List.append_nil], hpassed.transcribed⟩
      | ok task =>
        obtain rfl : task = none := by
          cases task with
          | none => rfl
          | some task => exact absurd rfl (hnone task)
        dsimp only [id_eq]
        rcases onIdle i s'.board with ⟨_ | _, b⟩
        · exact ⟨[], by rw [List.append_nil]; rfl, (hpassed.onBoard b).transcribed⟩
        · dsimp only
          cases drained b with
          | error e => exact ⟨[], by rw [List.append_nil]; rfl, (hpassed.onBoard b).transcribed⟩
          | ok done =>
            dsimp only
            split
            · exact ⟨[], by rw [List.append_nil]; rfl, (hpassed.onBoard b).transcribed⟩
            · exact (ih (i + 1) (State.onBoard s' b) log).passed (hpassed.onBoard b)
    · -- The dispatch ended the run, so that it has no line.
      rw [hlogged]
      dsimp only
      split
      · exact ⟨[], by rw [List.append_nil], hhanded.last⟩
      · exact ⟨[], by rw [List.append_nil], hhanded.last⟩
    · rw [hlogged]
      exact (ih (i + 1) s' (log ++ [event])).handed hhanded hline

def demoConfig : Config := ⟨"supervisor", none, none, 10, false⟩

/-- Every dispatch costs a dime. -/
def dime : Conductor := fun _ _ _ => .ok ⟨.done, 1 / 10, none, none, none⟩

def demoReadings (i : Nat) : Readings := ⟨⟨i, i, i, i⟩, i, i + 1, i + 1, .ok ()⟩

def chainPlain (maxParallel : Int) : Option (Except Exn Unit × State) :=
  runAny demoConfig soloRoster dime maxParallel Parallel.chainLabels (fun _ => false)
    (fun i => (demoReadings i).times) (fun _ b => (.ok (), b))
    3 0 (Supervisor.fresh chain)

def chainLogged (maxParallel : Int) : Option (Except Exn Unit × Logged) :=
  loggedRun demoConfig soloRoster dime maxParallel Parallel.chainLabels (fun _ => false) demoReadings
    (fun _ b => (.ok (), b)) 3 0 ⟨Supervisor.fresh chain, []⟩

end Swarm.Cli
