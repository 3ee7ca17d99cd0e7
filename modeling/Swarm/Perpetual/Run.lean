import Swarm.Perpetual.Driver
import Swarm.Supervisor.Drain

/-!
# What ends the perpetual loop

`run` should end only by `max_ticks`, a stop or the abort marker. It also ends by what leaves
`resilient_call`: the error of a spent budget, of a stop that a poll inside the call sees, or
of a wait that is too long to sleep. `Survives` is the exact condition on one pass.
-/

namespace Swarm.Perpetual

open Kanban Supervisor Resilience

/-! ## Typed boards -/

/-- The columns hold what the declared types say. -/
structure Typed (b : Board) : Prop where
  statuses : b.StatusesOk
  columns : ∀ r ∈ b.tasks, HoldsIds r.blockedBy

def Filing.Typed (f : Filing) : Prop := ∀ t ∈ f.tasks, ∃ ids, t.1.blockedBy = .ofStrs ids

/-- The conductor raises ordinary exceptions, and hooks submit tasks as declared. -/
structure Env.Ordinary (env : Env) : Prop where
  answers : ∀ n e, env.answers n = .error e → e.cls ≠ .abortRequested
  generate : ∀ m, (env.generate m).Typed
  verify : ∀ hook, env.verify = some hook → ∀ m id, (hook m id).Typed

theorem Typed.columnsOk {b : Board} (h : Typed b) : b.ColumnsOk := fun r hr _ => h.columns r hr

theorem Typed.moves {b b' : Board} {id : String} {s : TaskStatus} (h : Typed b)
    (hm : Moves b b' id s.value) : Typed b' where
  statuses r hr := by
    rcases hm.row r hr with ⟨-, hs, -⟩ | ⟨-, hold⟩
    · exact ⟨s, hs⟩
    · exact h.statuses r hold
  columns r hr := by
    rcases hm.row r hr with ⟨-, -, x, hx, hkept⟩ | ⟨-, hold⟩
    · rw [kept_blockedBy hkept]; exact h.columns x hx
    · exact h.columns r hold

theorem Typed.submit {b : Board} (h : Typed b) (task : Kanban.Task) (ts : ℚ)
    (hids : ∃ ids, task.blockedBy = .ofStrs ids) : Typed (Kanban.submit b task ts).2 := by
  rcases submit_cases b task ts with heq | ⟨-, htasks, -⟩
  · rw [heq]; exact h
  obtain ⟨ids, hids⟩ := hids
  constructor
  · intro r hr
    rw [htasks, List.mem_append, List.mem_singleton] at hr
    rcases hr with hr | rfl
    · exact h.statuses r hr
    · exact ⟨task.status, rfl⟩
  · intro r hr
    rw [htasks, List.mem_append, List.mem_singleton] at hr
    rcases hr with hr | rfl
    · exact h.columns r hr
    · exact ⟨ids, by rw [Task.toRow, hids]; exact idsOf_dumps ids⟩

theorem Typed.file {b : Board} (h : Typed b) (filing : Filing) (hf : filing.Typed) :
    Typed (Perpetual.file b filing) := by
  unfold Perpetual.file
  unfold Filing.Typed at hf
  generalize filing.tasks = tasks at hf
  induction tasks generalizing b with
  | nil => exact h
  | cons t rest ih =>
    obtain ⟨ht, hrest⟩ := List.forall_mem_cons.mp hf
    exact ih (h.submit t.1 t.2 ht) hrest

/-! ## The driver on typed boards -/

variable (scfg : Supervisor.Config) (roster : Roster) (cfg : Config) (env : Env)

/-- The first ready task has a head, so a claim leads to a dispatch. -/
def dispatches (b : Board) : Bool :=
  ((readyRows b none).head?.bind fun r => pickHead roster r.requiredHead).isSome

theorem dispatches_scheduled {b b' : Board}
    (h : b'.tasks.map scheduled = b.tasks.map scheduled) :
    dispatches roster b' = dispatches roster b := by
  have hread : ∀ c : Board, dispatches roster c =
      (((readyRows c none).map kept).head?.bind fun k => pickHead roster k.requiredHead).isSome := by
    intro c
    rw [List.head?_map, Option.bind_map]
    rfl
  rw [hread, hread, readyRows_scheduled h]

variable (answers : Nat → Answer) (t : Times) (s : State)

theorem peekHead_spec (b : Board) (h : Typed b) :
    peekHead b = .ok ((readyRows b none).head?.map (·.requiredHead)) := by
  obtain ⟨L, hL⟩ := unblocked_total b none h.columnsOk h.statuses (some 1)
  have hfirst := unblocked_head b none h.columnsOk (some 1) rfl L hL
  simp only [peekHead, hL, Except.map, hfirst, Option.map_map]
  rfl

theorem drive_idle (h : Typed s.board) (hnone : (readyRows s.board none).head? = none) :
    driveClaimedTask scfg roster answers t s = (.ok none, s) := by
  simp [driveClaimedTask, peekHead_spec s.board h, hnone]

theorem drive_claims (h : Typed s.board) (r : Row) (hr : (readyRows s.board none).head? = some r) :
    ∃ claimed, claimed.requiredHead = r.requiredHead ∧
      (driveClaimedTask scfg roster answers t s).1 =
        (releaseResult roster (answers s.calls.length) claimed).map some ∧
      Moves s.board (driveClaimedTask scfg roster answers t s).2.board r.id
        (releaseStatus roster (answers s.calls.length) claimed).value ∧
      (driveClaimedTask scfg roster answers t s).2.calls.length =
        s.calls.length + (pickHead roster r.requiredHead).toList.length := by
  obtain ⟨hmem, -, -⟩ := (mem_readyRows s.board none r).mp (List.mem_of_head? hr)
  let workerId := scfg.teammateName ++ ":" ++ r.requiredHead
  let claimed := (claimRow workerId t.startedAt r).toTask .inProgress
  let b := claimedBoard s.board workerId t.startedAt t.claimTs r
  have hclaim :=
    claimOne_spec s.board (some r.requiredHead) h.columnsOk workerId t.startedAt t.claimTs
  rw [readyRows_own_head s.board r hr] at hclaim
  obtain ⟨hresult, hmoves, hcalls⟩ := release_spec roster (answers s.calls.length) claimed t
    { s with board := b, calls := s.calls ++ dispatched roster claimed s.board b } _
    (select_claimedBoard s.board workerId t.startedAt t.claimTs r hmem)
  have hdrive : driveClaimedTask scfg roster answers t s =
      let out := release roster (answers s.calls.length) claimed t
        { s with board := b, calls := s.calls ++ dispatched roster claimed s.board b }
      (out.1.map some, out.2) := by
    simp only [driveClaimedTask, peekHead_spec s.board h, hr, Option.map_some, hclaim, workerId]
    rfl
  refine ⟨claimed, rfl, ?_, ?_, ?_⟩
  · rw [hdrive]; simp only [hresult]
  · rw [hdrive]; exact (claimedBoard_moves s.board t.claimTs workerId t.startedAt r).trans hmoves
  · have hhead : claimed.requiredHead = r.requiredHead := rfl
    rw [hdrive]
    refine (congrArg List.length hcalls).trans ?_
    simp only [List.length_append, dispatched, hhead]
    cases pickHead roster r.requiredHead <;> rfl

/-! ## One resilient call -/

/-- What dispatch `n` raises, if that is transient. -/
def transientAt (n : Nat) : Option TransientError :=
  match env.answers n with
  | .ok _ => none
  | .error e => classifyError e

/-- The wait can be computed and `time.sleep` takes it. -/
def sleepable (wait : Except PyError ℚ) : Prop :=
  ∃ seconds, wait = .ok seconds ∧ seconds * 10 ^ 9 ≤ 2 ^ 63 - 1

/-- From attempt `attempt` on, at dispatch `d` and moment `m`, some dispatch within the budget
is not throttled; each wait before it can be slept, and no poll up to it asks to stop. -/
def Recovers (left attempt d m : Nat) : Prop :=
  ∃ k < left,
    (∀ j < k, ∃ e, transientAt env (d + j) = some e ∧ sleepable
      (cfg.backoff.delay (env.uniform (m + 2 * j + 1)) ((attempt + j : Nat) : Int) e.retryAfterS)) ∧
    transientAt env (d + k) = none ∧ ∀ i ≤ 2 * k, env.shouldAbort (m + i) = false

theorem recovers_succ (left attempt d m : Nat) :
    Recovers cfg env (left + 1) attempt d m ↔
      env.shouldAbort m = false ∧
        (transientAt env d = none ∨ ∃ e, transientAt env d = some e ∧
          sleepable (cfg.backoff.delay (env.uniform (m + 1)) attempt e.retryAfterS) ∧
          env.shouldAbort (m + 1) = false ∧
            Recovers cfg env left (attempt + 1) (d + 1) (m + 2)) := by
  constructor
  · rintro ⟨k, hk, htransient, hlast, hpolls⟩
    -- The first of the answers, then the same condition one attempt and two polls on.
    refine ⟨hpolls 0 (by omega), ?_⟩
    cases k with
    | zero => exact Or.inl hlast
    | succ k =>
      obtain ⟨e, he, hsleep⟩ := htransient 0 (by omega)
      refine Or.inr ⟨e, he, hsleep, hpolls 1 (by omega), k, by omega, fun j hj => ?_, ?_, ?_⟩
      · obtain ⟨e, he, hsleep⟩ := htransient (j + 1) (by omega)
        refine ⟨e, by rw [← he]; congr 1; omega, ?_⟩
        have h1 : m + 2 + 2 * j + 1 = m + 2 * (j + 1) + 1 := by omega
        have h2 : attempt + 1 + j = attempt + (j + 1) := by omega
        rw [h1, h2]
        exact hsleep
      · rw [← hlast]; congr 1; omega
      · intro i hi
        have := hpolls (i + 2) (by omega)
        rwa [show m + (i + 2) = m + 2 + i by omega] at this
  · rintro ⟨hpoll, hnone | ⟨e, he, hsleep, hpoll', k, hk, htransient, hlast, hpolls⟩⟩
    · exact ⟨0, by omega, by simp, hnone, fun i hi => by rwa [show i = 0 by omega]⟩
    · refine ⟨k + 1, by omega, fun j hj => ?_, by rw [← hlast]; congr 1; omega, fun i hi => ?_⟩
      · cases j with
        | zero => exact ⟨e, he, hsleep⟩
        | succ j =>
          obtain ⟨e, he, hsleep⟩ := htransient j (by omega)
          refine ⟨e, by rw [← he]; congr 1; omega, ?_⟩
          have h1 : m + 2 + 2 * j + 1 = m + 2 * (j + 1) + 1 := by omega
          have h2 : attempt + 1 + j = attempt + (j + 1) := by omega
          rw [← h1, ← h2]
          exact hsleep
      · match i with
        | 0 => exact hpoll
        | 1 => exact hpoll'
        | i + 2 =>
          have := hpolls i (by omega)
          rwa [show m + 2 + i = m + (i + 2) by omega] at this

theorem world_fn_spec (henv : env.Ordinary) (key : Option String) (s : LoopState)
    (htyped : Typed s.sup.board) (hdis : dispatches roster s.sup.board = true) :
    ∃ result s', (world scfg roster env).fn key s = (result, s') ∧
      Typed s'.sup.board ∧ s'.polls = s.polls ∧
      (transientAt env s.sup.calls.length = none → ∃ task, result = .ok (some task)) ∧
      ∀ e, transientAt env s.sup.calls.length = some e →
        ∃ x, result = .error x ∧ classifyExn x = some e ∧
          s'.sup.calls.length = s.sup.calls.length + 1 ∧ dispatches roster s'.sup.board = true := by
  obtain ⟨head, hhead⟩ := Option.isSome_iff_exists.mp hdis
  obtain ⟨r, hr, hpick⟩ := Option.bind_eq_some_iff.mp hhead
  obtain ⟨claimed, hsame, hresult, hmoves, hcalls⟩ :=
    drive_claims scfg roster env.answers (env.times s.polls) s.sup htyped r hr
  refine ⟨_, _, rfl, htyped.moves hmoves, rfl, fun hnone => ?_, fun e he => ?_⟩
  · refine ⟨claimed, hresult.trans ?_⟩
    simp only [releaseResult, hsame, hpick, transientAt] at hnone ⊢
    cases hans : env.answers s.sup.calls.length with
    | ok o => rfl
    | error x => simp [hans] at hnone; simp [hnone, henv.answers _ x hans, Except.map]
  · simp only [transientAt] at he
    cases hans : env.answers s.sup.calls.length with
    | ok o => simp [hans] at he
    | error x =>
      simp only [hans] at he
      refine ⟨.raised x, hresult.trans ?_, he, ?_, ?_⟩
      · simp [releaseResult, hsame, hpick, hans, he, Except.map]
      · simpa [hpick] using hcalls
      · -- The task is pending again, so the ready rows are what they were.
        obtain ⟨hmem, hready, -⟩ := (mem_readyRows s.sup.board none r).mp (List.mem_of_head? hr)
        have hstatus : releaseStatus roster (env.answers s.sup.calls.length) claimed = .pending := by
          simp [releaseStatus, hsame, hpick, hans, he]
        rw [hstatus] at hmoves
        have hkeep := hmoves.same r hmem rfl ((ready_iff _ r hmem).mp hready).2.1
        exact (dispatches_scheduled roster hkeep).trans hdis

theorem timeSleep_spec (seconds : ℚ) :
    (if 0 < seconds then timeSleep seconds else .ok ()) = .ok () ↔ sleepable (.ok seconds) := by
  unfold sleepable
  simp only [Except.ok.injEq, exists_eq_left']
  split
  · next hpos =>
    rw [timeSleep, if_neg (not_lt.mpr hpos.le)]
    split <;> simp_all
  · next hneg =>
    have : seconds * 10 ^ 9 ≤ 0 := by nlinarith [not_lt.mp hneg]
    exact iff_of_true rfl (by linarith)

theorem pause_spec (attempt : Nat) (e : TransientError) (c : Call LoopState) :
    (sleepable (cfg.backoff.delay (env.uniform c.world.polls) attempt e.retryAfterS) ∧
        env.shouldAbort c.world.polls = false →
      ∃ c', pause (world scfg roster env) cfg.options attempt e c = (.ok (), c') ∧
        c'.world = { c.world with polls := c.world.polls + 1 }) ∧
    (¬ (sleepable (cfg.backoff.delay (env.uniform c.world.polls) attempt e.retryAfterS) ∧
        env.shouldAbort c.world.polls = false) →
      ∃ x c', pause (world scfg roster env) cfg.options attempt e c = (.error x, c') ∧
        x.isAbort = false) := by
  have hworld := rotate_world (world scfg roster env) cfg.options c
  have hpoll : (world scfg roster env).shouldAbort c.world =
    (env.shouldAbort c.world.polls, { c.world with polls := c.world.polls + 1 }) := rfl
  have hdelay : ∀ attempt hint, cfg.options.backoff.delay ((world scfg roster env).uniform c.world)
    attempt hint = cfg.backoff.delay (env.uniform c.world.polls) attempt hint := fun _ _ => rfl
  have hsleep : ∀ wait s, (world scfg roster env).sleep wait s = timeSleep wait := fun _ _ => rfl
  simp only [pause, hworld, hdelay]
  cases cfg.backoff.delay (env.uniform c.world.polls) attempt e.retryAfterS with
  | error x =>
    refine ⟨fun h => ?_, fun _ => ⟨_, _, rfl, rfl⟩⟩
    obtain ⟨seconds, hseconds, -⟩ := h.1
    cases hseconds
  | ok wait =>
    simp only [hpoll, hsleep]
    rw [← timeSleep_spec]
    cases env.shouldAbort c.world.polls with
    | true => exact ⟨by simp, fun _ => ⟨_, _, rfl, rfl⟩⟩
    | false =>
      simp only [Bool.false_eq_true, if_false, and_true]
      cases (if 0 < wait then timeSleep wait else .ok () : Except PyError Unit) with
      | error x => exact ⟨fun h => (nomatch h), fun _ => ⟨_, _, rfl, rfl⟩⟩
      | ok v => exact ⟨fun _ => ⟨_, rfl, rfl⟩, fun h => absurd rfl h⟩

theorem attempts_spec (henv : env.Ordinary) (left attempt : Nat) (c : Call LoopState)
    (htyped : Typed c.world.sup.board) (hdis : dispatches roster c.world.sup.board = true) :
    (Recovers cfg env left attempt c.world.sup.calls.length c.world.polls →
      ∃ task c', attempts (world scfg roster env) cfg.options left attempt c =
        (.ok (some task), c') ∧
        Typed c'.world.sup.board) ∧
    (¬ Recovers cfg env left attempt c.world.sup.calls.length c.world.polls →
      ∃ e c', attempts (world scfg roster env) cfg.options left attempt c = (.error e, c') ∧
        e.isAbort = false) := by
  induction left generalizing attempt c with
  | zero =>
    refine ⟨fun h => ?_, fun _ => ?_⟩
    · obtain ⟨k, hk, -⟩ := h
      omega
    · simp only [attempts]
      cases c.lastErr with
      | none => exact ⟨_, _, rfl, rfl⟩
      | some e => exact ⟨_, _, rfl, rfl⟩
  | succ left ih =>
    rw [recovers_succ]
    -- The poll before the attempt.
    have hpoll : (world scfg roster env).shouldAbort c.world =
      (env.shouldAbort c.world.polls, { c.world with polls := c.world.polls + 1 }) := rfl
    cases habort : env.shouldAbort c.world.polls with
    | true =>
      refine ⟨by simp, fun _ => ?_⟩
      simp only [attempts, hpoll, habort, if_true]
      exact ⟨_, _, rfl, rfl⟩
    | false =>
      obtain ⟨result, s', hfn, htyped', hpolls, hok, herror⟩ := world_fn_spec scfg roster env henv
        c.apiKey { c.world with polls := c.world.polls + 1 } htyped hdis
      simp only [attempts, hpoll, habort, Bool.false_eq_true, if_false, hfn]
      cases htransient : transientAt env c.world.sup.calls.length with
      | none =>
        -- The dispatch is answered, and the call returns.
        obtain ⟨task, rfl⟩ := hok htransient
        simp only [true_and, true_or, true_implies]
        exact ⟨⟨_, _, rfl, htyped'⟩, fun h => absurd trivial h⟩
      | some e =>
        obtain ⟨x, rfl, hclassify, hcalls, hdis'⟩ := herror e htransient
        simp only [hclassify]
        -- A transient error, with no attempt left or with some.
        by_cases hleft : left = 0
        · subst hleft
          refine ⟨?_, fun _ => ⟨_, _, rfl, rfl⟩⟩
          rintro ⟨-, hnone | ⟨-, -, -, -, k, hk, -⟩⟩
          · cases hnone
          · omega
        rw [if_neg hleft]
        let failed : Call LoopState :=
          Call.failed { c with world := s', stats := { c.stats with attempts := attempt + 1 } } e
        obtain ⟨hpass, hstop⟩ := pause_spec scfg roster cfg env attempt e failed
        have hmoment : failed.world.polls = c.world.polls + 1 := hpolls
        rw [hmoment] at hpass hstop
        -- The wait passes, or ends the call.
        by_cases hquiet : sleepable (cfg.backoff.delay (env.uniform (c.world.polls + 1)) attempt
            e.retryAfterS) ∧ env.shouldAbort (c.world.polls + 1) = false
        · obtain ⟨c', hpause, hworld⟩ := hpass hquiet
          have hrest :=
            ih (attempt + 1) c' (by rw [hworld]; exact htyped') (by rw [hworld]; exact hdis')
          have hnext : (c'.world.sup.calls.length = c.world.sup.calls.length + 1) ∧
              c'.world.polls = c.world.polls + 2 := by
            rw [hworld]
            exact ⟨hcalls, rfl⟩
          rw [hnext.1, hnext.2] at hrest
          simp only [failed, hpause]
          simpa [hquiet.1, hquiet.2] using hrest
        · obtain ⟨x, c', hpause, hx⟩ := hstop hquiet
          simp only [failed, hpause]
          refine ⟨?_, fun _ => ⟨_, _, rfl, hx⟩⟩
          rintro ⟨-, hnone | ⟨e', he', hsleep, hpoll', -⟩⟩
          · cases hnone
          · cases he'
            exact absurd ⟨hsleep, hpoll'⟩ hquiet

/-! ## One pass of the loop -/

theorem world_fn_quiet (key : Option String) (s : LoopState) (htyped : Typed s.sup.board)
    (hdis : dispatches roster s.sup.board = false) :
    ∃ task s', (world scfg roster env).fn key s = (.ok task, s') ∧ Typed s'.sup.board := by
  -- An attempt where no dispatch is due: nothing is ready, or no head takes what is.
  cases hr : (readyRows s.sup.board none).head? with
  | none =>
    have hidle := drive_idle scfg roster env.answers (env.times s.polls) s.sup htyped hr
    exact ⟨none, s, by simp only [world, hidle], htyped⟩
  | some r =>
    obtain ⟨claimed, hsame, hresult, hmoves, -⟩ :=
      drive_claims scfg roster env.answers (env.times s.polls) s.sup htyped r hr
    have hpick : pickHead roster r.requiredHead = none := by
      simpa [dispatches, hr] using hdis
    have hok : releaseResult roster (env.answers s.sup.calls.length) claimed = .ok claimed := by
      simp only [releaseResult, hsame, hpick]
    rw [hok] at hresult
    exact ⟨some claimed, _, Prod.ext hresult rfl, htyped.moves hmoves⟩

def DriveOk (s : LoopState) : Prop :=
  1 ≤ cfg.maxAttempts ∧
    if dispatches roster s.sup.board then
      Recovers cfg env cfg.maxAttempts.toNat 0 s.sup.calls.length s.polls
    else env.shouldAbort s.polls = false

/-- The condition on one pass: it ends the loop as it should, or its call comes back. -/
def Survives (s : LoopState) : Prop :=
  cfg.maxTicks.any (· ≤ (s.stats.ticks : Int)) = true ∨ env.shouldAbort s.polls = true ∨
    DriveOk roster cfg env { s with polls := s.polls + 1 }

theorem resilientCall_spec (henv : env.Ordinary) (s : LoopState) (htyped : Typed s.sup.board) :
    (DriveOk roster cfg env s →
      ∃ task c, resilientCall (world scfg roster env) cfg.options s s.rotator none = (.ok task, c) ∧
        Typed c.world.sup.board) ∧
    (¬ DriveOk roster cfg env s →
      ∃ e c, resilientCall (world scfg roster env) cfg.options s s.rotator none = (.error e, c) ∧
        e.isAbort = false) := by
  have hbudget : cfg.options.maxAttempts = cfg.maxAttempts := rfl
  simp only [resilientCall, DriveOk, hbudget]
  by_cases hmax : cfg.maxAttempts < 1
  · rw [if_pos hmax]
    exact ⟨fun h => absurd h.1 (by omega), fun _ => ⟨_, _, rfl, rfl⟩⟩
  rw [if_neg hmax]
  have hmax' : 1 ≤ cfg.maxAttempts := by omega
  cases hdis : dispatches roster s.sup.board with
  | true =>
    obtain ⟨hok, hfail⟩ := attempts_spec scfg roster cfg env henv cfg.maxAttempts.toNat 0
      (enter (world scfg roster env) s s.rotator none) htyped hdis
    refine ⟨fun h => ?_, fun h => ?_⟩
    · obtain ⟨task, c, hrun, hc⟩ := hok (by simpa using h.2)
      exact ⟨some task, c, hrun, hc⟩
    · exact hfail fun h' => h ⟨hmax', by simpa using h'⟩
  | false =>
    obtain ⟨left, hleft⟩ : ∃ left, cfg.maxAttempts.toNat = left + 1 :=
      ⟨cfg.maxAttempts.toNat - 1, by omega⟩
    have hpoll : (world scfg roster env).shouldAbort (enter (world scfg roster env) s s.rotator none).world =
      (env.shouldAbort s.polls, { s with polls := s.polls + 1 }) := rfl
    simp only [hleft, attempts, hpoll]
    cases env.shouldAbort s.polls with
    | true => exact ⟨fun h => by simp at h, fun _ => ⟨_, _, rfl, rfl⟩⟩
    | false =>
      obtain ⟨task, s', hfn, htyped'⟩ := world_fn_quiet scfg roster env
        (enter (world scfg roster env) s s.rotator none).apiKey { s with polls := s.polls + 1 } htyped hdis
      simp only [Bool.false_eq_true, if_false, hfn]
      exact ⟨fun _ => ⟨_, _, rfl, htyped'⟩, fun h => absurd ⟨hmax', by simp⟩ h⟩

theorem resilientDrive_spec (henv : env.Ordinary) (s : LoopState) (htyped : Typed s.sup.board) :
    (DriveOk roster cfg env s →
      ∃ task s', resilientDrive scfg roster cfg env s = (.ok task, s') ∧ Typed s'.sup.board) ∧
    (¬ DriveOk roster cfg env s →
      ∃ e s', resilientDrive scfg roster cfg env s = (.error e, s') ∧ e.isAbort = false) := by
  obtain ⟨hok, hfail⟩ := resilientCall_spec scfg roster cfg env henv s htyped
  refine ⟨fun h => ?_, fun h => ?_⟩
  · obtain ⟨task, c, hcall, hc⟩ := hok h
    simp only [resilientDrive, hcall]
    exact ⟨_, _, rfl, hc⟩
  · obtain ⟨e, c, hcall, he⟩ := hfail h
    simp only [resilientDrive, hcall]
    exact ⟨_, _, rfl, he⟩

theorem safeVerify_typed (henv : env.Ordinary) (taskId : String) (s : LoopState)
    (h : Typed s.sup.board) : Typed (safeVerify env taskId s).sup.board := by
  unfold safeVerify
  cases hverify : env.verify with
  | none => exact h
  | some hook => exact h.file _ (henv.verify hook hverify s.polls taskId)

theorem safeGenerate_typed (henv : env.Ordinary) (s : LoopState) (h : Typed s.sup.board) :
    Typed (safeGenerate env s).2.sup.board := by
  have hfile := h.file _ (henv.generate s.polls)
  simp only [safeGenerate]
  split
  · exact hfile
  · exact hfile

theorem tick_spec (henv : env.Ordinary) (s : LoopState) (htyped : Typed s.sup.board) :
    (DriveOk roster cfg env s →
      ∃ worked s', tick scfg roster cfg env s = (.ok worked, s') ∧ Typed s'.sup.board) ∧
    (¬ DriveOk roster cfg env s →
      ∃ e s', tick scfg roster cfg env s = (.error e, s') ∧ e.isAbort = false) := by
  let s₀ : LoopState := { s with stats := { s.stats with
    ticks := s.stats.ticks + 1, lastTickAt := some (env.now s.polls) } }
  obtain ⟨hok, hfail⟩ := resilientDrive_spec scfg roster cfg env henv s₀ htyped
  refine ⟨fun h => ?_, fun h => ?_⟩
  · obtain ⟨task, s', hdrive, hs'⟩ := hok h
    simp only [tick, s₀] at hdrive ⊢
    rw [hdrive]
    cases task with
    | some task => exact ⟨_, _, rfl, safeVerify_typed env henv task.id _ hs'⟩
    | none =>
      simp only [drained_spec]
      cases s'.sup.board.tasks.all fun r => r.status != "pending" && r.status != "in_progress" with
      | false => exact ⟨_, _, rfl, hs'⟩
      | true => exact ⟨_, _, rfl, safeGenerate_typed env henv
          { s' with stats := { s'.stats with idleTicks := s'.stats.idleTicks + 1 } } hs'⟩
  · obtain ⟨e, s', hdrive, he⟩ := hfail h
    simp only [tick, s₀] at hdrive ⊢
    rw [hdrive]
    exact ⟨_, _, rfl, he⟩

/-! ## The whole run -/

/-- The last thing handed to the status file is the status of the state. -/
def Checkpointed (s : LoopState) : Prop :=
  cfg.statusPath.isSome →
    ∃ c, s.checkpoints.getLast? = some c ∧ status scfg roster cfg env s = .ok c

/-- The loop ended by `max_ticks`, or by the poll that it made last. -/
def CleanExit (why : Exit) (s : LoopState) : Prop :=
  (why = .maxTicks ∧ cfg.maxTicks.any (· ≤ (s.stats.ticks : Int)) = true ∨
      why = .stopped ∧ ∃ m, s.polls = m + 1 ∧ env.shouldAbort m = true) ∧
    Checkpointed scfg roster cfg env s

theorem status_ok (s : LoopState) : ∃ c, status scfg roster cfg env s = .ok c := by
  simp only [status, Supervisor.status, listTasks_status, bind, Except.bind, pure, Except.pure]
  exact ⟨_, rfl⟩

theorem checkpoint_spec (s : LoopState) :
    ∃ s', checkpoint scfg roster cfg env s = (.ok (), s') ∧ s'.sup = s.sup ∧ s'.polls = s.polls ∧
      s'.stats = s.stats ∧ Checkpointed scfg roster cfg env s' := by
  unfold checkpoint
  cases hpath : cfg.statusPath with
  | none => exact ⟨s, rfl, rfl, rfl, rfl, by simp [Checkpointed, hpath]⟩
  | some path =>
    obtain ⟨c, hc⟩ := status_ok scfg roster cfg env s
    refine ⟨{ s with checkpoints := s.checkpoints ++ [c] }, by simp only [hc], rfl, rfl, rfl, ?_⟩
    exact fun _ => ⟨c, by simp, hc⟩

theorem turn_spec (henv : env.Ordinary) (s : LoopState) (htyped : Typed s.sup.board) :
    (Survives roster cfg env s →
      (∃ s', turn scfg roster cfg env s = .again s' ∧ Typed s'.sup.board) ∨
        ∃ why s', turn scfg roster cfg env s = .exit why s' ∧
          CleanExit scfg roster cfg env why s') ∧
    (¬ Survives roster cfg env s → ∃ e s', turn scfg roster cfg env s = .exit (.raised e) s') := by
  by_cases hmax : cfg.maxTicks.any (· ≤ (s.stats.ticks : Int)) = true
  · obtain ⟨s', hcheck, -, -, hstats, hlast⟩ := checkpoint_spec scfg roster cfg env s
    refine ⟨fun _ => Or.inr ⟨.maxTicks, s', ?_, Or.inl ⟨rfl, by rw [hstats, hmax]⟩, hlast⟩,
      fun h => absurd (Or.inl hmax) h⟩
    simp only [turn, hmax, if_true, finish, hcheck]
  by_cases hpoll : env.shouldAbort s.polls = true
  · obtain ⟨s', hcheck, -, hpolls, -, hlast⟩ :=
      checkpoint_spec scfg roster cfg env { s with polls := s.polls + 1 }
    refine ⟨fun _ => Or.inr ⟨.stopped, s', ?_, Or.inr ⟨rfl, s.polls, hpolls, hpoll⟩, hlast⟩,
      fun h => absurd (Or.inr (Or.inl hpoll)) h⟩
    simp only [turn, hmax, poll, hpoll, Bool.false_eq_true, if_true, if_false, finish, hcheck]
  obtain ⟨hok, hfail⟩ := tick_spec scfg roster cfg env henv
    { s with polls := s.polls + 1 } htyped
  simp only [Survives, hmax, hpoll, Bool.false_eq_true, false_or]
  refine ⟨fun h => Or.inl ?_, fun h => ?_⟩
  · obtain ⟨worked, s₁, htick, htyped₁⟩ := hok h
    obtain ⟨s', hcheck, hsup, -⟩ := checkpoint_spec scfg roster cfg env s₁
    exact ⟨s', by simp [turn, hmax, poll, hpoll, htick, hcheck], hsup ▸ htyped₁⟩
  · obtain ⟨e, s₁, htick, habort⟩ := hfail h
    exact ⟨e, s₁, by simp [turn, hmax, poll, hpoll, htick, habort]⟩

/-- The state before pass `n`, if the loop gets there. -/
def reached (s : LoopState) : Nat → Option LoopState
  | 0 => some s
  | n + 1 => (reached s n).bind fun t =>
    match turn scfg roster cfg env t with
    | .again t' => some t'
    | .exit _ _ => none

theorem reached_typed (henv : env.Ordinary) (s : LoopState) (htyped : Typed s.sup.board) (n : Nat)
    (t : LoopState) (h : reached scfg roster cfg env s n = some t) : Typed t.sup.board := by
  induction n generalizing t with
  | zero => cases h; exact htyped
  | succ n ih =>
    obtain ⟨u, hu, hturn⟩ := Option.bind_eq_some_iff.mp h
    obtain ⟨hsurvives, hraises⟩ := turn_spec scfg roster cfg env henv u (ih u hu)
    by_cases hs : Survives roster cfg env u
    · rcases hsurvives hs with ⟨t', hagain, htyped'⟩ | ⟨why, t', hexit, -⟩
      · rw [hagain] at hturn; cases hturn; exact htyped'
      · rw [hexit] at hturn; cases hturn
    · obtain ⟨e, t', hexit⟩ := hraises hs
      rw [hexit] at hturn
      cases hturn

theorem reached_succ (s s' : LoopState) (h : turn scfg roster cfg env s = .again s') (n : Nat) :
    reached scfg roster cfg env s (n + 1) = reached scfg roster cfg env s' n := by
  induction n with
  | zero => simp [reached, h]
  | succ n ih => rw [reached, ih, reached]

theorem run_reached (s t : LoopState) (n fuel : Nat)
    (h : reached scfg roster cfg env s n = some t) :
    run scfg roster cfg env (n + fuel) s = run scfg roster cfg env fuel t := by
  induction n generalizing s with
  | zero => cases h; rw [Nat.zero_add]
  | succ n ih =>
    cases hturn : turn scfg roster cfg env s with
    | exit why s' =>
      have hnone : ∀ k, reached scfg roster cfg env s (k + 1) = none := by
        intro k
        induction k with
        | zero => simp [reached, hturn]
        | succ k ihk => rw [reached, ihk]; rfl
      rw [hnone n] at h
      cases h
    | again s' =>
      rw [reached_succ scfg roster cfg env s s' hturn] at h
      rw [Nat.add_right_comm, run, hturn]
      exact ih s' h

/-- **Only a pass that does not survive ends the loop wrongly.** Every end of `run` is clean,
with the final checkpoint, exactly when every pass that the loop gets to survives. -/
theorem run_clean_iff (scfg : Supervisor.Config) (roster : Roster) (cfg : Config) (env : Env)
    (henv : env.Ordinary) (s : LoopState) (htyped : Typed s.sup.board) :
    (∀ fuel why s', run scfg roster cfg env fuel s = some (why, s') →
        CleanExit scfg roster cfg env why s') ↔
      ∀ n t, reached scfg roster cfg env s n = some t → Survives roster cfg env t := by
  constructor
  · intro hclean n t ht
    by_contra hs
    obtain ⟨e, s', hexit⟩ := (turn_spec scfg roster cfg env henv t
      (reached_typed scfg roster cfg env henv s htyped n t ht)).2 hs
    have hrun : run scfg roster cfg env (n + 1) s = some (.raised e, s') := by
      rw [run_reached scfg roster cfg env s t n 1 ht, run, hexit]
    obtain ⟨⟨h, -⟩ | ⟨h, -⟩, -⟩ := hclean (n + 1) (.raised e) s' hrun
    · cases h
    · cases h
  · intro hsurvives fuel why s' hrun
    induction fuel generalizing s with
    | zero => cases hrun
    | succ fuel ih =>
      obtain hturn := (turn_spec scfg roster cfg env henv s htyped).1
        (hsurvives 0 s rfl)
      rw [run] at hrun
      rcases hturn with ⟨s₁, hagain, htyped₁⟩ | ⟨why', s₁, hexit, hclean⟩
      · rw [hagain] at hrun
        refine ih s₁ htyped₁ (fun n t ht => hsurvives (n + 1) t ?_) hrun
        rw [reached_succ scfg roster cfg env s s₁ hagain]
        exact ht
      · rw [hexit] at hrun
        cases hrun
        exact hclean

/-! ## Two runs -/

/-- A conductor that always answers the same, and nobody who asks to stop. -/
def steady (answer : Answer) : Env where
  answers _ := answer
  shouldAbort _ := false
  times _ := ⟨0, 0, 0, 0⟩
  uniform _ _ high := high
  resolve _ _ := none
  generate _ := ⟨[], .ok []⟩
  verify := none
  now _ := 0

theorem steady_ordinary (answer : Answer) (h : ∀ e, answer = .error e → e.cls ≠ .abortRequested) :
    (steady answer).Ordinary where
  answers _ := h
  generate _ := by simp [steady, Filing.Typed]
  verify _ h := by simp [steady] at h

def defaults : Config := ⟨"perpetual", none, some "status.json", ⟨1, 2, 60, true⟩, 6⟩

def oneTask : Board := ⟨[Task.toRow (Task.new "a" 0)], [], by decide⟩

def begin (b : Board) : LoopState := ⟨fresh b, 0, none, ⟨0, 0, 0, 0, 0, 0, none⟩, []⟩

theorem oneTask_typed : Typed oneTask where
  statuses r hr := ⟨.pending, by rw [List.mem_singleton.mp hr]; rfl⟩
  columns r hr := ⟨[], by rw [List.mem_singleton.mp hr]; rfl⟩

def sup : Supervisor.Config := ⟨"perpetual", none, none, 10, false⟩

def solo : Roster := [("builder", ⟨"builder"⟩)]

def oneTick : Config := { defaults with maxTicks := some 1 }

theorem steady_survives (o : DispatchResult) (s : LoopState) :
    Survives solo oneTick (steady (.ok o)) s := by
  refine Or.inr (Or.inr ⟨by decide, ?_⟩)
  split
  · exact ⟨0, by decide, by simp, rfl, fun _ _ => rfl⟩
  · rfl

def Exit.isRaised : Exit → Bool
  | .raised _ => true
  | _ => false

theorem oneTick_run_clean :
    ∃ why s', run sup solo oneTick (steady (.ok ⟨.done, 0, none, none, none⟩)) 2 (begin oneTask) =
        some (why, s') ∧ why.isRaised = false ∧
      CleanExit sup solo oneTick (steady (.ok ⟨.done, 0, none, none, none⟩)) why s' := by
  have hends : (run sup solo oneTick (steady (.ok ⟨.done, 0, none, none, none⟩)) 2
      (begin oneTask)).any (!·.1.isRaised) := by
    decide +kernel
  obtain ⟨⟨why, s'⟩, hrun, hwhy⟩ := (Option.any_eq_true _ _).mp hends
  have hclean := (run_clean_iff sup solo oneTick (steady (.ok ⟨.done, 0, none, none, none⟩))
    (steady_ordinary _ (by simp)) (begin oneTask) oneTask_typed).mpr fun _ t _ => steady_survives _ t
  exact ⟨why, s', hrun, by simpa using hwhy, hclean 2 why s' hrun⟩

/-- A dispatch that ends in a 429. -/
def throttled : Answer := .error ⟨.other, some 429, none, none, "too many requests", "HTTPError()"⟩

/-- Six throttled dispatches in a row end the loop. -/
theorem throttled_run_raises :
    ¬ ∀ fuel why s', run sup solo defaults (steady throttled) fuel (begin oneTask) =
      some (why, s') →
      CleanExit sup solo defaults (steady throttled) why s' := by
  intro h
  have hraised : (run sup solo defaults (steady throttled) 1 (begin oneTask)).any (·.1.isRaised) := by
    decide +kernel
  obtain ⟨⟨why, s'⟩, hrun, hwhy⟩ := (Option.any_eq_true _ _).mp hraised
  obtain ⟨⟨rfl, -⟩ | ⟨rfl, -⟩, -⟩ := h 1 why s' hrun
  · cases hwhy
  · cases hwhy

end Swarm.Perpetual
