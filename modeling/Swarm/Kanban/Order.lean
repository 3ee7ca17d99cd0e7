import Swarm.Kanban.Update
import Swarm.Lib.Schedule

/-!
# The board as a schedule

A task has begun when it is in progress or DONE. The calls that a loop makes on the kanban are moves
of the schedule, so that work never gets ahead of what it waits for.
-/

namespace Swarm.Kanban

open Lib

/-- The ids of the tasks with such a status. -/
def Board.having (b : Board) (P : String → Prop) : Set String :=
  {i | ∃ r ∈ b.tasks, r.id = i ∧ P r.status}

def doneStatus (status : String) : Prop := status = "done"

/-- The task runs or is DONE. -/
def begunStatus (status : String) : Prop := status = "in_progress" ∨ doneStatus status

/-- The board as a schedule of its tasks. -/
def Board.schedule (b : Board) : Schedule String where
  waits i j := ∃ r ∈ b.tasks, r.id = i ∧ j ∈ blockersOf r
  begun := b.having begunStatus
  finished := b.having doneStatus

variable {b b' : Board}

theorem mem_having_of_mem {P : String → Prop} {r : Row} (hr : r ∈ b.tasks) :
    r.id ∈ b.having P ↔ P r.status := by
  constructor
  · rintro ⟨x, hx, hid, hP⟩
    rwa [row_unique b x r hx hr hid] at hP
  · exact fun hP => ⟨r, hr, rfl, hP⟩

theorem BlockersMet.finished {r : Row} (h : BlockersMet b r) :
    ∀ j ∈ blockersOf r, j ∈ b.schedule.finished := by
  -- The claim looks at the blockers that the schedule knows.
  obtain ⟨v, hload, hkeys⟩ := h
  intro j hj
  unfold blockersOf at hj
  cases hids : idsOf r.blockedBy with
  | none => simp [hids] at hj
  | some ids =>
    simp only [hids, Option.getD_some] at hj
    rw [loadList_of_ids _ _ hids] at hload
    cases hload
    have htruthy : (Json.ofStrs ids).truthy = true := by
      rw [Json.truthy_ofStrs, Bool.not_eq_true', List.isEmpty_eq_false_iff]
      exact List.ne_nil_of_mem hj
    obtain ⟨keys, hiter, hdone⟩ := hkeys htruthy
    rw [Json.iter_ofStrs] at hiter
    cases hiter
    obtain ⟨d, hd, hstatus⟩ := hdone (.str j) (List.mem_map_of_mem hj)
    rw [selectKey_str, Except.ok.injEq, select_eq_some] at hd
    exact ⟨d, hd.1, hd.2, hstatus⟩

/-! ## One task moves -/

section Moves

variable {id status : String} (h : Moves b b' id status)
include h

theorem Moves.waits : b'.schedule.waits = b.schedule.waits := by
  funext i j
  apply propext
  constructor
  · rintro ⟨r, hr, hid, hj⟩
    rcases h.row r hr with ⟨-, -, x, hx, hkept⟩ | ⟨-, hold⟩
    · refine ⟨x, hx, (kept_id hkept).symm.trans hid, ?_⟩
      rwa [blockersOf, ← kept_blockedBy hkept]
    · exact ⟨r, hold, hid, hj⟩
  · rintro ⟨r, hr, rfl, hj⟩
    obtain ⟨f, hkept, -, htasks⟩ := h
    have hmem : (if r.id = id then f r else r) ∈ b'.tasks := by
      rw [htasks]
      exact List.mem_map_of_mem (f := fun r => if r.id = id then f r else r) hr
    split at hmem
    · refine ⟨f r, hmem, kept_id (hkept r), ?_⟩
      rwa [blockersOf, kept_blockedBy (hkept r)]
    · exact ⟨r, hmem, rfl, hj⟩

theorem Moves.having_in {P : String → Prop} (hP : P status) {r : Row} (hr : r ∈ b.tasks)
    (hid : r.id = id) :
    b'.having P = insert id (b.having P) := by
  ext i
  rw [Set.mem_insert_iff]
  constructor
  · rintro ⟨x, hx, rfl, hx'⟩
    rcases h.row x hx with ⟨hxid, -⟩ | ⟨-, hold⟩
    · exact .inl hxid
    · exact .inr ⟨x, hold, rfl, hx'⟩
  · rintro (rfl | ⟨x, hx, rfl, hx'⟩)
    · obtain ⟨y, hy, hyid, hy'⟩ := h.moved r hr hid
      exact ⟨y, hy, hyid, hy' ▸ hP⟩
    · by_cases hxid : x.id = id
      · obtain ⟨y, hy, hyid, hy'⟩ := h.moved r hr hid
        exact ⟨y, hy, hyid.trans hxid.symm, hy' ▸ hP⟩
      · exact ⟨x, h.mem_of_ne x hx hxid, rfl, hx'⟩

theorem Moves.having_out {P : String → Prop} (hP : ¬ P status) :
    b'.having P = b.having P \ {id} := by
  ext i
  rw [Set.mem_sdiff, Set.mem_singleton_iff]
  constructor
  · rintro ⟨x, hx, rfl, hx'⟩
    rcases h.row x hx with ⟨-, hstatus, -⟩ | ⟨hne, hold⟩
    · exact absurd (hstatus ▸ hx') hP
    · exact ⟨⟨x, hold, rfl, hx'⟩, hne⟩
  · rintro ⟨⟨x, hx, rfl, hx'⟩, hne⟩
    exact ⟨x, h.mem_of_ne x hx hne, rfl, hx'⟩

end Moves

theorem sdiff_of_mem {P : String → Prop} {r : Row} (hr : r ∈ b.tasks) (hP : ¬ P r.status) :
    b.having P \ {r.id} = b.having P :=
  Set.sdiff_singleton_eq_self fun h => hP ((mem_having_of_mem hr).mp h)

theorem insert_of_mem {P : String → Prop} {r : Row} (hr : r ∈ b.tasks) (hP : P r.status) :
    insert r.id (b.having P) = b.having P :=
  Set.insert_eq_of_mem ((mem_having_of_mem hr).mpr hP)

/-! ## The moves of the loops -/

theorem move_submit {task : Task} {ts : ℚ} (hpending : task.status = .pending) :
    Schedule.Move b.schedule (submit b task ts).2.schedule := by
  rcases submit_cases b task ts with hsame | ⟨hnew, htasks, -⟩
  · exact .idle (by rw [hsame])
  · have hstatus : task.toRow.status = "pending" := congrArg TaskStatus.value hpending
    have hhaving : ∀ P : String → Prop, ¬ P "pending" → (submit b task ts).2.having P = b.having P := by
      intro P hP
      ext i
      have hnot : ¬ (task.toRow.id = i ∧ P task.toRow.status) := fun h => hP (hstatus ▸ h.2)
      simp only [Board.having, htasks, Set.mem_ofPred_eq, List.mem_append, List.mem_singleton, or_and_right,
        exists_or, exists_eq_left, or_iff_left hnot]
    refine .filed (fun i hi j hij => ?_) (hhaving begunStatus ?_) (hhaving doneStatus ?_)
    · obtain ⟨x, hx, rfl, -⟩ := hi
      obtain ⟨r, hr, hid, hj⟩ := hij
      rw [htasks] at hr
      rcases List.mem_append.mp hr with hr | hr
      · exact ⟨r, hr, hid, hj⟩
      · exact absurd (hid.symm.trans (congrArg Fields.id (List.mem_singleton.mp hr))) (hnew x hx)
    · simp [begunStatus, doneStatus]
    · simp [doneStatus]

theorem move_taken {r : Row} (hr : r ∈ b.tasks) (hpending : r.status = "pending")
    (hmet : BlockersMet b r) (h : Moves b b' r.id "in_progress") :
    Schedule.Move b.schedule b'.schedule := by
  refine .taken r.id ?_ h.waits (h.having_in (.inl rfl) hr rfl) ?_
  · rintro j ⟨x, hx, hid, hj⟩
    rw [row_unique b x r hx hr hid] at hj
    exact hmet.finished j hj
  · have hopen : ¬ doneStatus r.status := by simp [doneStatus, hpending]
    exact (h.having_out (P := doneStatus) (by simp [doneStatus])).trans (sdiff_of_mem hr hopen)

theorem move_putBack {r : Row} {status : String} (hr : r ∈ b.tasks) (hopen : ¬ doneStatus r.status)
    (hstatus : ¬ begunStatus status) (h : Moves b b' r.id status) :
    Schedule.Move b.schedule b'.schedule := by
  -- A task that is not DONE goes back, or to one of the other ends.
  refine .putBack r.id (fun hmem => hopen ((mem_having_of_mem hr).mp hmem)) h.waits (h.having_out hstatus) ?_
  exact (h.having_out fun hdone => hstatus (.inr hdone)).trans (sdiff_of_mem hr hopen)

theorem move_released {r : Row} {status : String} (hr : r ∈ b.tasks)
    (hlive : r.status = "in_progress") (h : Moves b b' r.id status) :
    Schedule.Move b.schedule b'.schedule := by
  have hbegun : begunStatus r.status := .inl hlive
  have hopen : ¬ doneStatus r.status := by simp [doneStatus, hlive]
  by_cases hdone : doneStatus status
  · refine .ended r.id ((mem_having_of_mem hr).mpr hbegun) h.waits ?_ (h.having_in hdone hr rfl)
    exact (h.having_in (.inr hdone) hr rfl).trans (insert_of_mem hr hbegun)
  · by_cases hstill : status = "in_progress"
    · refine .filed (fun i _ j hij => h.waits ▸ hij) ?_ ?_
      · exact (h.having_in (.inl hstill) hr rfl).trans (insert_of_mem hr hbegun)
      · exact (h.having_out hdone).trans (sdiff_of_mem hr hopen)
    · exact move_putBack hr hopen (not_or.mpr ⟨hstill, hdone⟩) h

/-! ## Boards to start from -/

/-- Nothing is in progress, and what is DONE came after what it waits for. -/
structure Settled (b : Board) : Prop where
  still : ∀ r ∈ b.tasks, r.status ≠ "in_progress"
  done : ∀ r ∈ b.tasks, r.status = "done" → ∀ id ∈ blockersOf r, b.isDone id = true

theorem mem_finished_iff (b : Board) (id : String) :
    id ∈ b.schedule.finished ↔ b.isDone id = true :=
  (isDone_iff b id).symm

theorem Settled.ordered (h : Settled b) : b.schedule.Ordered where
  met := by
    rintro i ⟨r, hr, rfl, hbegun⟩ j ⟨x, hx, hid, hj⟩
    rw [row_unique b x r hx hr hid] at hj
    rw [mem_finished_iff]
    exact h.done r hr (hbegun.resolve_left (h.still r hr)) j hj
  started := by
    rintro i ⟨r, hr, rfl, hdone⟩
    exact ⟨r, hr, rfl, .inr hdone⟩

/-- The task waits for the other one, directly or through others. -/
def DependsOn (b : Board) : String → String → Prop := Relation.TransGen b.schedule.waits

/-- All that a running or finished task depends on is DONE, and so is what was DONE before. -/
structure InOrder (before b : Board) : Prop where
  below : ∀ r ∈ b.tasks, r.status = "in_progress" ∨ r.status = "done" →
    ∀ id, DependsOn b r.id id → b.isDone id = true
  kept : ∀ id, before.isDone id = true → b.isDone id = true

theorem inOrder_of {before : Board} (hordered : b.schedule.Ordered)
    (hkept : before.schedule.finished ⊆ b.schedule.finished) : InOrder before b where
  below r hr hbegun id hdep := (mem_finished_iff b id).mp (hordered.below ⟨r, hr, rfl, hbegun⟩ hdep)
  kept id hdone := (mem_finished_iff b id).mp (hkept ((mem_finished_iff before id).mpr hdone))

end Swarm.Kanban
