import Swarm.Perpetual.Run
import Swarm.Resilience.Trace

/-!
# An abort that the conductor raises

`resilient_call` asks `classify_error` of every exception, and that looks for words in the text. The
text of an abort has the name of the teammate and the path of the marker.
-/

namespace Swarm.Perpetual.Abort

open Kanban Supervisor Resilience

/-! ## The exception -/

/-- The root of a path: `Path` keeps two slashes, and makes one of three. -/
def pathRoot (text : List Char) : String :=
  match text with
  | '/' :: '/' :: '/' :: _ => "/"
  | '/' :: '/' :: _ => "//"
  | '/' :: _ => "/"
  | _ => ""

/-- The components of a path: empty ones and dots count for nothing. -/
def components (text : String) : List String :=
  ((text.toList.splitOn '/').filter fun part => part != [] && part != ['.']).map String.ofList

/-- `str(abort_marker_path(worktree_root, teammate))` for any two strings. -/
def markerPath (worktreeRoot teammate : String) : String :=
  pathRoot worktreeRoot.toList ++
    "/".intercalate (components worktreeRoot ++ [".claude"] ++ components ("abort-" ++ teammate))

example : markerPath "/repo//./tree/" "perpetual" = abortMarkerPath "/repo/tree" "perpetual" := by decide +kernel

/-- `AbortRequested(marker, teammate)`. It has none of the attributes that `classify_error`
reads. -/
def markerSeen (sp : Spelling) (worktreeRoot teammate : String) : Raised :=
  let text := "abort marker present for " ++ sp.quote teammate ++ " at " ++ markerPath worktreeRoot teammate
  ⟨.abortRequested, none, none, none, text, "AbortRequested(" ++ sp.quote text ++ ")"⟩

theorem classify_markerSeen (sp : Spelling) (worktreeRoot teammate : String) :
    classifyError (markerSeen sp worktreeRoot teammate) = none ↔
      hasToken (markerSeen sp worktreeRoot teammate).text = false := by
  unfold classifyError
  cases hasToken (markerSeen sp worktreeRoot teammate).text <;> simp [markerSeen]

/-! ## One turn -/

variable (scfg : Supervisor.Config) (roster : Roster) (cfg : Config) (env : Env)

/-- The state in which a turn makes its resilient call, if it gets there. -/
def calling (s : LoopState) : Option LoopState :=
  if cfg.maxTicks.any (· ≤ (s.stats.ticks : Int)) then none
  else if env.shouldAbort s.polls then none
  else some { s with
    polls := s.polls + 1
    stats := { s.stats with ticks := s.stats.ticks + 1, lastTickAt := some (env.now (s.polls + 1)) } }

/-- What the resilient call of a turn does. -/
def events (s : LoopState) : List (Event (Call LoopState) (Option Kanban.Task)) :=
  match calling cfg env s with
  | none => []
  | some s' => (traced (world scfg roster env) cfg.options s' s'.rotator none).1

/-- What a call of the driver leaves. -/
def driven (c : Call LoopState) : State :=
  (driveClaimedTask scfg roster env.answers (env.times c.world.polls) c.world.sup).2

/-- The driver dispatches in this call, and the conductor raises `e`. -/
def DispatchRaises (c : Call LoopState) (e : Raised) : Prop :=
  (∃ d, (driven scfg roster env c).calls = c.world.sup.calls ++ [d]) ∧
    env.answers c.world.sup.calls.length = .error e

/-- The exception leaves the resilient call on this attempt, after which nothing comes, and the loop
exits on it. -/
def LeavesAtOnce (s : LoopState) (c : Call LoopState) (e : Raised)
    (post : List (Event (Call LoopState) (Option Kanban.Task))) : Prop :=
  post = [] ∧
    (∃ s', calling cfg env s = some s' ∧
      (resilientCall (world scfg roster env) cfg.options s' s'.rotator none).1 = .error (.raised e)) ∧
    ∃ s', turn scfg roster cfg env s = .exit .aborted s' ∧ s'.sup = driven scfg roster env c

theorem drive_aborts {answers : Nat → Answer} {t : Times} {s : State} {d : Dispatch} {e : Raised}
    (hcalls : (driveClaimedTask scfg roster answers t s).2.calls = s.calls ++ [d])
    (hanswer : answers s.calls.length = .error e) (habort : e.cls = .abortRequested) :
    (driveClaimedTask scfg roster answers t s).1 = .error (.raised e) := by
  cases hpeek : peekHead s.board with
  | error x => simp [driveClaimedTask, hpeek] at hcalls
  | ok head =>
    cases head with
    | none => simp [driveClaimedTask, hpeek] at hcalls
    | some requiredHead =>
      let workerId := scfg.teammateName ++ ":" ++ requiredHead
      rcases claimOne_cases s.board (some requiredHead) workerId t.startedAt t.claimTs with
        ⟨-, -, hnone⟩ | ⟨r, hmem, -, -, -, -, hclaim⟩
      · rcases hclaim : claimOne s.board workerId (some requiredHead) t.startedAt t.claimTs with
          ⟨⟨x⟩ | ⟨_ | claimed⟩, b⟩
        · simp [driveClaimedTask, hpeek, workerId, hclaim] at hcalls
        · simp [driveClaimedTask, hpeek, workerId, hclaim] at hcalls
        · exact absurd (by rw [hclaim]) (hnone claimed)
      · let claimed := (claimRow workerId t.startedAt r).toTask .inProgress
        let b := claimedBoard s.board workerId t.startedAt t.claimTs r
        let before : State := { s with
          board := b
          calls := s.calls ++ dispatched roster claimed s.board b }
        have hdrive : driveClaimedTask scfg roster answers t s =
            ((release roster (answers s.calls.length) claimed t before).1.map some,
              (release roster (answers s.calls.length) claimed t before).2) := by
          simp only [driveClaimedTask, hpeek, hclaim, workerId]
          rfl
        obtain ⟨hresult, -, hsame⟩ :=
          release_spec roster (answers s.calls.length) claimed t before _
          (select_claimedBoard s.board workerId t.startedAt t.claimTs r hmem)
        rw [hdrive] at hcalls ⊢
        have hdispatched : before.calls = s.calls ++ [d] := hsame.symm.trans hcalls
        cases hpick : pickHead roster claimed.requiredHead with
        | none => simp [before, dispatched, hpick] at hdispatched
        | some head =>
          have hraised : releaseResult roster (answers s.calls.length) claimed = .error (.raised e) := by
            simp [releaseResult, hpick, hanswer, habort]
          exact congrArg (Except.map some) (hresult.trans hraised)

theorem turn_aborted {s s' : LoopState} {e : Raised} (hcalling : calling cfg env s = some s')
    (hout : (resilientCall (world scfg roster env) cfg.options s' s'.rotator none).1 =
      .error (.raised e))
    (habort : e.cls = .abortRequested) :
    ∃ t, turn scfg roster cfg env s = .exit .aborted t ∧
      t.sup = (resilientCall (world scfg roster env) cfg.options s' s'.rotator none).2.world.sup := by
  unfold calling at hcalling
  split at hcalling
  · cases hcalling
  next hticks =>
  split at hcalling
  · cases hcalling
  next hpoll =>
  rcases hcall : resilientCall (world scfg roster env) cfg.options s' s'.rotator none with ⟨result, call⟩
  rw [hcall] at hout
  obtain rfl : result = .error (.raised e) := hout
  have hdrive : resilientDrive scfg roster cfg env s' =
      (.error (.raised e), { call.world with rotator := call.rotator }) := by
    unfold resilientDrive
    rw [hcall]
  obtain ⟨t, hcheck, hsup, -⟩ :=
    checkpoint_spec scfg roster cfg env { call.world with rotator := call.rotator }
  have hexits : (Exn.raised e).isAbort = true := by simp [Exn.isAbort, habort]
  refine ⟨t, ?_, hsup⟩
  rw [← Option.some.inj hcalling] at hdrive
  simp only [turn, hticks, hpoll, poll, tick, hdrive, hexits, finish, hcheck, Bool.false_eq_true, if_true,
    if_false]

/-- **When an abort is not retried.** -/
theorem leavesAtOnce_iff (sp : Spelling) (worktreeRoot teammate : String) {s : LoopState}
    {c : Call LoopState} {result : Except Exn (Option Kanban.Task)}
    {pre post : List (Event (Call LoopState) (Option Kanban.Task))}
    (hevents : events scfg roster cfg env s = pre ++ .called c result :: post)
    (hraises : DispatchRaises scfg roster env c (markerSeen sp worktreeRoot teammate)) :
    LeavesAtOnce scfg roster cfg env s c (markerSeen sp worktreeRoot teammate) post ↔
      hasToken (markerSeen sp worktreeRoot teammate).text = false := by
  rw [← classify_markerSeen]
  constructor
  · rintro ⟨-, ⟨s', -, hout⟩, -⟩
    exact resilientCall_raised _ _ hout
  · intro hclass
    unfold events at hevents
    cases hcalling : calling cfg env s with
    | none => simp [hcalling] at hevents
    | some s' =>
      simp only [hcalling] at hevents
      obtain ⟨⟨d, hcalls⟩, hanswer⟩ := hraises
      have hfn : ((world scfg roster env).fn c.apiKey c.world).1 =
          .error (.raised (markerSeen sp worktreeRoot teammate)) :=
        drive_aborts scfg roster hcalls hanswer rfl
      obtain ⟨hresult, hleaves⟩ :=
        traced_leaves (world scfg roster env) cfg.options s' s'.rotator none
        pre c result post hevents
      obtain ⟨hpost, hout, hworld⟩ := hleaves _ (hresult.trans hfn) hclass
      obtain ⟨t, hturn, hsup⟩ := turn_aborted scfg roster cfg env hcalling hout rfl
      exact ⟨hpost, ⟨s', hcalling, hout⟩, t, hturn, by rw [hsup, hworld]; rfl⟩

/-! ## A teammate with an unlucky name -/

/-- `repr` of a string without quotes and escapes. -/
def plainSpelling : Spelling := ⟨fun s => "'" ++ s ++ "'", id⟩

/-- The first dispatch of a task that is ready sees the marker. -/
def marked (teammate : String) : Env :=
  { steady (.ok ⟨.done, 0, none, none, none⟩) with
    answers := fun n =>
      if n = 0 then .error (markerSeen plainSpelling "/repo" teammate) else .ok ⟨.done, 0, none, none, none⟩ }

/-- The first call of the driver, after a poll of the turn and one of the attempt. -/
def firstCall : Call LoopState where
  world := { begin oneTask with polls := 2, stats := ⟨1, 0, 0, 0, 0, 0, some 0⟩ }
  rotator := none
  apiKey := none
  stats := ⟨0, 0, 0, none, false⟩
  consecutiveTransient := 0
  lastErr := none

theorem marked_events (teammate : String) :
    ∃ post, events sup solo defaults (marked teammate) (begin oneTask) = [.checked false] ++
      .called firstCall (.error (.raised (markerSeen plainSpelling "/repo" teammate))) :: post :=
  attemptsTraced_opening (world sup solo (marked teammate)) defaults.options
    (c := { firstCall with world := { firstCall.world with polls := 1 } }) rfl 5 0

theorem marked_raises (teammate : String) :
    DispatchRaises sup solo (marked teammate) firstCall (markerSeen plainSpelling "/repo" teammate) :=
  ⟨⟨_, rfl⟩, rfl⟩

theorem plain_leavesAtOnce :
    ∃ post, LeavesAtOnce sup solo defaults (marked "perpetual") (begin oneTask) firstCall
      (markerSeen plainSpelling "/repo" "perpetual") post := by
  obtain ⟨post, hevents⟩ := marked_events "perpetual"
  exact ⟨post, (leavesAtOnce_iff sup solo defaults (marked "perpetual") plainSpelling "/repo" "perpetual"
    hevents (marked_raises "perpetual")).mpr (by decide +kernel)⟩

/-- The abort does not leave: it is taken for an overloaded server. -/
theorem overloaded_retried :
    ∃ post, events sup solo defaults (marked "overloaded-lane") (begin oneTask) =
      [.checked false] ++
        .called firstCall (.error (.raised (markerSeen plainSpelling "/repo" "overloaded-lane"))) :: post ∧
      ¬ LeavesAtOnce sup solo defaults (marked "overloaded-lane") (begin oneTask) firstCall
        (markerSeen plainSpelling "/repo" "overloaded-lane") post := by
  obtain ⟨post, hevents⟩ := marked_events "overloaded-lane"
  refine ⟨post, hevents, ?_⟩
  rintro ⟨-, ⟨s', -, hout⟩, -⟩
  have hclass := resilientCall_raised _ _ hout
  exact absurd ((classify_markerSeen _ _ _).mp hclass) (by decide +kernel)

end Swarm.Perpetual.Abort
