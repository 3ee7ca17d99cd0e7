import Swarm.Kanban.Order
import Swarm.Supervisor.Parallel

/-!
# The parallel loop in the order of the dependencies

The steps of the parallel loop and of its threads are moves of the schedule, too. With the loop
alone on its board and every answer DONE, the tasks it ends with are those it claimed, each once.
-/

namespace Swarm.Supervisor.Parallel

open Kanban Swarm.Lib

variable {cfg : Config} {roster : Roster} {maxParallel : Int}

/-- The task without a head is pending until the loop fails it. -/
def Stuck (s : PState) : Prop :=
  ∀ task, s.pc = .unroutable task → ∃ r ∈ s.sup.board.tasks, r.id = task.id ∧ r.status = "pending"

theorem Stuck.step {s s' : PState} {l : Label} (hi : Inv s) (hs : Stuck s)
    (h : step cfg roster maxParallel l s = some s') : Stuck s' := by
  intro task htask
  cases step_effect l s s' hi h with
  | quiet _ hboard _ _ hpc =>
    rw [hboard]
    rcases hpc task htask with hold | ⟨r, hr, hpending, hid⟩
    · exact hs task hold
    · exact ⟨r, hr, hid, hpending⟩
  | submitted _ r _ hboard _ _ hpc =>
    obtain ⟨x, hx, hx'⟩ := hs task (hpc ▸ htask)
    exact ⟨x, hboard ▸ List.mem_append_left _ hx, hx'⟩
  | failed _ _ _ _ _ _ hpc' => exact absurd htask (hpc' task)
  | took _ _ _ _ _ _ _ _ hpc' => exact absurd htask (hpc' task)
  | finished id _ _ hmoves _ hhand hpc =>
    rw [hpc] at htask
    obtain ⟨x, hx, hid, hpending⟩ := hs task htask
    have hne : x.id ≠ id := by
      rw [hid]
      exact fun heq => (hi.unroutable task htask).1 (heq ▸ hhand.subset List.mem_cons_self)
    exact ⟨x, hmoves.mem_of_ne x hx hne, hid, hpending⟩

/-! ## Moves -/

theorem loop_board {s s' : PState} {reads : Reads} (hstuck : ∀ task, s.pc ≠ .unroutable task)
    (hpeeked : ∀ head task, s.pc ≠ .peeked head task)
    (h : loop cfg roster maxParallel reads s = some s') :
    s'.sup.board = s.sup.board := by
  -- Away from the two writes of the loop thread, it only reads the board.
  unfold loop at h
  split at h
  case h_3 task hpc => exact absurd hpc (hstuck task)
  case h_4 head task hpc => exact absurd hpc (hpeeked head task)
  all_goals
    repeat' split at h
    all_goals
      cases h
      try rfl

theorem move_peeked {s s' : PState} {reads : Reads} {head : Head} {task : Kanban.Task}
    (hpc : s.pc = .peeked head task) (h : loop cfg roster maxParallel reads s = some s') :
    Schedule.Move s.sup.board.schedule s'.sup.board.schedule := by
  simp only [loop, hpc] at h
  rcases claimOne_cases s.sup.board (some task.requiredHead) (workerId cfg head) reads.times.startedAt
    reads.times.claimTs with ⟨-, hboard, hres⟩ | ⟨r, hr, -, hpending, -, hmet, heq⟩
  · split at h
    case h_3 heq => exact absurd (congrArg Prod.fst heq) (hres _)
    all_goals
      next heq =>
        cases h
        exact .idle (congrArg Board.schedule ((congrArg Prod.snd heq).symm.trans hboard))
  · simp only [heq, Option.some.injEq] at h
    subst h
    exact move_taken hr hpending hmet (claimedBoard_moves _ _ _ _ r)

theorem move_unroutable {s s' : PState} {reads : Reads} {task : Kanban.Task} (hs : Stuck s)
    (hpc : s.pc = .unroutable task) (h : loop cfg roster maxParallel reads s = some s') :
    Schedule.Move s.sup.board.schedule s'.sup.board.schedule := by
  obtain ⟨r, hr, hid, hpending⟩ := hs task hpc
  have hsel : s.sup.board.select task.id = some r := (select_eq_some _ _ _).mpr ⟨hr, hid⟩
  obtain ⟨result, b', hwrite, hmoves⟩ := update_moves s.sup.board task.id noHeadFields none
    reads.times.updateTs r .failed hsel rfl rfl rfl noHeadFields_kept
  simp only [loop, hpc, hwrite] at h
  cases h
  refine move_putBack hr (by simp [doneStatus, hpending]) ?_ (hid ▸ hmoves)
  simp [begunStatus, doneStatus, TaskStatus.value]

theorem move_finish {s s' : PState} {k : Nat} {answer : Answer} {t : Times} (hi : Inv s)
    (h : step cfg roster maxParallel (.finish k answer t) s = some s') :
    Schedule.Move s.sup.board.schedule s'.sup.board.schedule := by
  simp only [step] at h
  split at h
  · cases h
  next f hf =>
  have hhand : f.task.id ∈ atHand s :=
    List.mem_append_left _ (List.mem_map_of_mem (List.mem_of_getElem? hf))
  obtain ⟨r, hr, hid, hlive⟩ := hi.live f.task.id hhand
  obtain ⟨-, hmoves, -⟩ := dispatchOne_spec r answer f.task t s.sup
    ((select_eq_some _ _ _).mpr ⟨hr, hid⟩)
  cases h
  exact move_released hr hlive (hid ▸ hmoves)

theorem collect_board {s s' : PState} {k : Nat}
    (h : step cfg roster maxParallel (.collect k) s = some s') :
    s'.sup.board = s.sup.board := by
  simp only [step] at h
  repeat' split at h
  all_goals
    cases h
    try rfl

/-- The others only file pending tasks. -/
def Files : Label → Prop
  | .others task _ => task.status = .pending
  | _ => True

/-- The loop and its threads are a scheduler of their board. -/
theorem move_step {s s' : PState} {l : Label} (hi : Inv s) (hs : Stuck s) (hfiles : Files l)
    (h : step cfg roster maxParallel l s = some s') :
    Schedule.Move s.sup.board.schedule s'.sup.board.schedule := by
  cases l with
  | others task ts =>
    cases h
    exact move_submit hfiles
  | finish k answer t => exact move_finish hi h
  | collect k => exact .idle (congrArg Board.schedule (collect_board h))
  | loop reads =>
    by_cases hstuck : ∃ task, s.pc = .unroutable task
    · obtain ⟨task, hpc⟩ := hstuck
      exact move_unroutable hs hpc h
    · by_cases hpeeked : ∃ head task, s.pc = .peeked head task
      · obtain ⟨head, task, hpc⟩ := hpeeked
        exact move_peeked hpc h
      · simp only [not_exists] at hstuck hpeeked
        exact .idle (congrArg Board.schedule (loop_board hstuck hpeeked h))

theorem start_stuck (b : Board) : Stuck (start b) := by
  simp [Stuck, start]

/-- **The parallel loop never runs ahead.** In every state that it and its threads can reach, with
any tasks that others file, all that a running or finished task depends on is DONE, and nothing
DONE is taken back. -/
theorem parallel_in_order (cfg : Config) (roster : Roster) (maxParallel : Int) (b : Board)
    (hb : Settled b) (labels : List Label) (hfiles : ∀ l ∈ labels, Files l) :
    let s := final (step cfg roster maxParallel) (start b) labels
    InOrder b s.sup.board ∧
      ∀ f ∈ s.running, ∀ id, DependsOn s.sup.board f.task.id id → s.sup.board.isDone id = true := by
  obtain ⟨⟨hi, -⟩, hordered, hkept⟩ := Schedule.run_ordered (fun s => s.sup.board.schedule)
    (fun s => Inv s ∧ Stuck s)
    (fun s l s' hi hl h => ⟨⟨step_inv l s s' hi.1 h, hi.2.step hi.1 h⟩, move_step hi.1 hi.2 hl h⟩)
    (start b) labels ⟨start_inv b, start_stuck b⟩ hb.ordered hfiles
  have horder := inOrder_of hordered hkept
  refine ⟨horder, fun f hf id hdep => ?_⟩
  obtain ⟨r, hr, hid, hlive⟩ := hi.live f.task.id (List.mem_append_left _ (List.mem_map_of_mem hf))
  exact horder.below r hr (.inl hlive) id (hid ▸ hdep)

def raceEnd : PState :=
  final (step ⟨"supervisor", none, none, 10, false⟩ [("builder", ⟨"builder"⟩)] 2) (start race) raceLabels

/-- The task that was claimed instead waits for the one that just ended. -/
theorem race_in_order : ∃ r ∈ raceEnd.sup.board.tasks, r.id = "t2" ∧ r.status = "in_progress" ∧
    ∀ id, DependsOn raceEnd.sup.board r.id id → raceEnd.sup.board.isDone id = true := by
  have hb : Settled race := ⟨by decide, by decide⟩
  have hfiles : ∀ l ∈ raceLabels, Files l := by
    simp [raceLabels, Files]
  obtain ⟨horder, -⟩ :=
    parallel_in_order ⟨"supervisor", none, none, 10, false⟩ [("builder", ⟨"builder"⟩)] 2 race hb
    raceLabels hfiles
  have hlive : ∃ r ∈ raceEnd.sup.board.tasks, r.id = "t2" ∧ r.status = "in_progress" := by
    decide +kernel
  obtain ⟨r, hr, hid, hstatus⟩ := hlive
  exact ⟨r, hr, hid, hstatus, horder.below r hr (.inl hstatus)⟩

end Swarm.Supervisor.Parallel
