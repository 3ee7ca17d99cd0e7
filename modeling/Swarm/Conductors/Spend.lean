import Swarm.Conductors.Outcome
import Swarm.Perpetual.Code

/-!
# What a dispatch spends and what is counted

The cost of a dispatch reaches the supervisor in the result. A dispatch that raises has none, so
what it spent until then is not counted.
-/

namespace Swarm.Conductors

open Kanban Supervisor Perpetual

/-! ## What the supervisor adds -/

/-- What an answer adds to the cost total. -/
def counted : Answer → ℚ
  | .ok o => o.costUsd
  | .error _ => 0

theorem dispatchOne_cost (answer : Answer) (claimed : Kanban.Task) (t : Times) (s : State) :
    (dispatchOne answer claimed t s).2.costSoFarUsd = s.costSoFarUsd + counted answer := by
  cases answer with
  | ok o => rfl
  | error e =>
    simp only [dispatchOne, counted, add_zero]
    split <;> rfl

theorem dispatchOne_calls (answer : Answer) (claimed : Kanban.Task) (t : Times) (s : State) :
    (dispatchOne answer claimed t s).2.calls = s.calls := by
  cases answer with
  | ok o => rfl
  | error e =>
    simp only [dispatchOne]
    split <;> rfl

theorem release_cost (roster : Roster) (answer : Answer) (claimed : Kanban.Task) (t : Times)
    (s : State) (hhead : (pickHead roster claimed.requiredHead).isSome) :
    (release roster answer claimed t s).2.costSoFarUsd = s.costSoFarUsd + counted answer := by
  obtain ⟨head, hhead⟩ := Option.isSome_iff_exists.mp hhead
  simp only [release, hhead]
  cases answer with
  | ok o => rfl
  | error e =>
    simp only
    split
    · exact (add_zero _).symm
    · exact dispatchOne_cost (.error e) claimed t s

theorem release_calls (roster : Roster) (answer : Answer) (claimed : Kanban.Task) (t : Times)
    (s : State) :
    (release roster answer claimed t s).2.calls = s.calls := by
  unfold release
  split
  · rfl
  · cases answer with
    | ok o => rfl
    | error e =>
      simp only
      split
      · rfl
      · exact dispatchOne_calls (.error e) claimed t s

theorem step_cost (cfg : Supervisor.Config) (roster : Roster) (conductor : Conductor)
    (marker : Bool) (t : Times) (s : State) (call : Dispatch)
    (hcall : (step cfg roster conductor marker t s).2.calls = s.calls ++ [call]) :
    (step cfg roster conductor marker t s).2.costSoFarUsd =
      s.costSoFarUsd + counted (conductor s.calls.length call.head call.task) := by
  have hnone : s.calls ≠ s.calls ++ [call] := by simp
  revert hcall
  simp only [step]
  split
  · exact fun h => absurd h hnone
  split
  · exact fun h => absurd h hnone
  · exact fun h => absurd h hnone
  split
  · exact fun h => absurd h hnone
  split
  · exact fun h => absurd h hnone
  · exact fun h => absurd h hnone
  split
  · exact fun h => absurd h hnone
  · intro h
    rw [dispatchOne_calls] at h
    rw [← List.singleton_inj.mp (List.append_cancel_left h)]
    exact dispatchOne_cost _ _ _ _

theorem driveClaimedTask_cost (cfg : Supervisor.Config) (roster : Roster) (answers : Nat → Answer)
    (t : Times) (s : State) (call : Dispatch)
    (hcall : (driveClaimedTask cfg roster answers t s).2.calls = s.calls ++ [call]) :
    (driveClaimedTask cfg roster answers t s).2.costSoFarUsd =
      s.costSoFarUsd + counted (answers s.calls.length) := by
  have hnone : s.calls ≠ s.calls ++ [call] := by simp
  revert hcall
  simp only [driveClaimedTask]
  split
  · exact fun h => absurd h hnone
  · exact fun h => absurd h hnone
  split
  · exact fun h => absurd h hnone
  · exact fun h => absurd h hnone
  · next claimed b hclaim =>
    intro h
    rw [release_calls] at h
    have hhead : (pickHead roster claimed.requiredHead).isSome := by
      have := List.append_cancel_left h
      cases hpick : pickHead roster claimed.requiredHead with
      | none => simp [dispatched, hpick] at this
      | some head => rfl
    exact release_cost roster _ claimed t _ hhead

/-! ## What the dispatch spends -/

variable (c : ApiConductor) (profile : Head → Profile)

/-- Every response that the loop gets to has a price, and a call that raises, if the loop gets to
it, comes after responses that cost nothing. -/
def HandsOver (session : Session) (head : Head) (task : Kanban.Task) : Prop :=
  session.client = .ok () → ∀ k < task.maxTurns.toNat, Reaches c profile session head k →
    (∀ e, session.answers k = .error e →
      priceAll (c.model profile head) (firstResponses session k) = .ok 0) ∧
    ∀ r, session.answers k = .ok r → ∃ cost, turnCost (c.model profile head) r.usage = .ok cost

variable {c profile} {session : Session} {head : Head} {task : Kanban.Task}

theorem counted_of_handsOver (h : HandsOver c profile session head task) :
    priceAll (c.model profile head) (received (dispatch c profile session head task).2) =
      .ok (counted (dispatch c profile session head task).1) := by
  cases hclient : session.client with
  | error e => simp [dispatch, hclient, received, counted]
  | ok u =>
    obtain ⟨k, total, -, hreach, hprice, ⟨-, hexhausted, hreceived⟩ | ⟨hk, hstops, hreceived⟩⟩ :=
      dispatch_spec c profile session head task hclient
    · rw [hexhausted, hreceived, hprice]
      rfl
    · obtain ⟨hraised, hpriced⟩ := h hclient k hk hreach
      rw [hreceived, firstResponses_succ]
      generalize (dispatch c profile session head task).1 = answer at hstops
      cases hstops with
      | raised e he =>
        rw [he]
        simpa [Except.toOption, counted] using hraised e he
      | unpriced r e hr he =>
        obtain ⟨cost, hcost⟩ := hpriced r hr
        simp [he] at hcost
      | done r cost hr _ hcost =>
        rw [hr]
        exact (priceAll_snoc hprice r).trans (by rw [hcost]; rfl)
      | capped r cost hr _ hcost _ =>
        rw [hr]
        exact (priceAll_snoc hprice r).trans (by rw [hcost]; rfl)

section Counted

variable (hsum : priceAll (c.model profile head) (received (dispatch c profile session head task).2) =
    .ok (counted (dispatch c profile session head task).1))
  (hclient : session.client = .ok ()) {k : Nat} (hk : k < task.maxTurns.toNat)
  (hreach : Reaches c profile session head k)
include hsum hclient hk hreach

theorem free_of_counted {e : Raised} (he : session.answers k = .error e) :
    priceAll (c.model profile head) (firstResponses session k) = .ok 0 := by
  obtain ⟨total, -, hstops, hcalls⟩ := stops_at c profile session head task hclient hk hreach
    (not_goesOn_of_raised c profile session head he)
  rw [hcalls, received_firstCalls, firstResponses_succ, he, hstops.of_raised he] at hsum
  simpa [Except.toOption, counted] using hsum

theorem priced_of_counted {r : Response} (hr : session.answers k = .ok r) :
    ∃ cost, turnCost (c.model profile head) r.usage = .ok cost := by
  cases hcost : turnCost (c.model profile head) r.usage with
  | ok cost => exact ⟨cost, rfl⟩
  | error e =>
    obtain ⟨total, htotal⟩ := hreach.price
    have hprice : priceAll (c.model profile head) (firstResponses session (k + 1)) = .error e := by
      rw [firstResponses_succ, hr]
      exact (priceAll_snoc htotal r).trans (by rw [hcost]; rfl)
    have hstop : ¬ GoesOn c profile session head k := by
      rintro ⟨-, total', -, -, htotal', -⟩
      simp [hprice] at htotal'
    obtain ⟨-, -, -, hcalls⟩ := stops_at c profile session head task hclient hk hreach hstop
    simp [hcalls, hprice] at hsum

end Counted

theorem dispatch_conserved_iff :
    priceAll (c.model profile head) (received (dispatch c profile session head task).2) =
        .ok (counted (dispatch c profile session head task).1) ↔
      HandsOver c profile session head task :=
  ⟨fun hsum hclient _ hk hreach => ⟨fun _ he => free_of_counted hsum hclient hk hreach he,
    fun _ hr => priced_of_counted hsum hclient hk hreach hr⟩, counted_of_handsOver⟩

/-! ## The drivers -/

/-- `before` goes to `after` by one of the drivers, with dispatch `n` of `task` to `head`. -/
inductive Drives (conductor : Conductor) : Nat → Head → Kanban.Task → State → State → Prop
  | step (cfg : Supervisor.Config) (roster : Roster) (marker : Bool) (t : Times) (s : State)
      (call : Dispatch) (hcall : (step cfg roster conductor marker t s).2.calls = s.calls ++ [call]) :
      Drives conductor s.calls.length call.head call.task s (step cfg roster conductor marker t s).2
  | dispatchOne (n : Nat) (head : Head) (claimed : Kanban.Task) (t : Times) (s : State) :
      Drives conductor n head claimed s (dispatchOne (conductor n head claimed) claimed t s).2
  | driveClaimedTask (cfg : Supervisor.Config) (roster : Roster) (answers : Nat → Answer) (t : Times)
      (s : State) (call : Dispatch)
      (hcall : (driveClaimedTask cfg roster answers t s).2.calls = s.calls ++ [call])
      (hanswer : answers s.calls.length = conductor s.calls.length call.head call.task) :
      Drives conductor s.calls.length call.head call.task s (driveClaimedTask cfg roster answers t s).2

theorem Drives.cost {conductor : Conductor} {n : Nat} {head : Head} {task : Kanban.Task}
    {before after : State} (h : Drives conductor n head task before after) :
    after.costSoFarUsd - before.costSoFarUsd = counted (conductor n head task) := by
  rw [sub_eq_iff_eq_add, add_comm]
  cases h with
  | step cfg roster marker t s call hcall =>
    exact step_cost cfg roster conductor marker t _ call hcall
  | dispatchOne n head claimed t s => exact dispatchOne_cost _ _ t _
  | driveClaimedTask cfg roster answers t s call hcall hanswer =>
    rw [← hanswer]
    exact driveClaimedTask_cost cfg roster answers t _ call hcall

/-- **What is spent before an error is not counted.** Whichever driver makes the dispatch, the
total grows by the price of all its responses exactly when none of them lacks a price and no
call raises after responses that cost something. -/
theorem cost_conserved_iff (c : ApiConductor) (profile : Head → Profile) (sessions : Nat → Session)
    {n : Nat} {head : Head} {task : Kanban.Task} {before after : State}
    (h : Drives (apiConductor c profile sessions) n head task before after) :
    priceAll (c.model profile head) (received (dispatch c profile (sessions n) head task).2) =
        .ok (after.costSoFarUsd - before.costSoFarUsd) ↔
      HandsOver c profile (sessions n) head task := by
  rw [h.cost]
  exact dispatch_conserved_iff

/-! ## Two dispatches -/

def builder : Head := ⟨"builder"⟩

/-- A task that the supervisor has claimed. -/
def job : Kanban.Task :=
  { Task.new "a" 0 with
    status := .inProgress
    startedAt := some 1
    workerId := some "supervisor:builder" }

def board : Board := ⟨[job.toRow], [], by decide⟩

/-- A session that answers at once. -/
def answered : Session := ⟨.ok (), fun _ => .ok ⟨[⟨some "text", some "42", none, none⟩], usage, some "end_turn"⟩⟩

theorem answered_counted :
    priceAll (plain.model sonnet builder) (received (dispatch plain sonnet answered builder job).2) =
      .ok ((dispatchOne (apiConductor plain sonnet (fun _ => answered) 0 builder job) job ⟨1, 1, 2, 2⟩
        (fresh board)).2.costSoFarUsd - (fresh board).costSoFarUsd) := by
  refine (cost_conserved_iff plain sonnet (fun _ => answered)
    (.dispatchOne 0 builder job ⟨1, 1, 2, 2⟩ (fresh board))).mpr fun _ k _ _ => ⟨fun e he => ?_, fun r hr => ?_⟩
  · cases he
  · cases hr
    exact ⟨21 / 20000, by decide +kernel⟩

/-- A first response that asks for a tool, then a throttled call. -/
def throttledLater : Session where
  client := .ok ()
  answers
    | 0 => .ok ⟨[⟨some "tool_use", none, some "tu_1", some "read_file"⟩], usage, some "tool_use"⟩
    | _ + 1 => .error ⟨.other, some 429, none, none, "too many requests", "RateLimitError()"⟩

theorem throttledLater_not_counted :
    ∃ after, Drives (apiConductor plain sonnet fun _ => throttledLater) 0 builder job (fresh board) after ∧
      priceAll (plain.model sonnet builder)
          (received (dispatch plain sonnet throttledLater builder job).2) = .ok (21 / 20000) ∧
      after.costSoFarUsd - (fresh board).costSoFarUsd = 0 :=
  ⟨_, .dispatchOne 0 builder job ⟨1, 1, 2, 2⟩ (fresh board), by decide +kernel, by decide +kernel⟩

end Swarm.Conductors
