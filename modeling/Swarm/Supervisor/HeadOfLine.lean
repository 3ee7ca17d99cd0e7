import Swarm.Kanban.Edges
import Swarm.Kanban.Limit
import Swarm.Supervisor.Drain

/-! # What keeps a ready task from running -/

namespace Swarm.Supervisor

open Kanban Lib

/-! ## The peek and the claim on any board -/

/-- What the peek finds of a pending row. -/
def rowVerdict (b : Board) (r : Row) : Except PyError Bool := verdict b (r.toTask .pending)

/-- The row has blockers as the peek decodes them. -/
def rowBlocked (r : Row) : Bool := hasBlockers (r.toTask .pending)

/-- The peek returns this row: it is the first ready one, and none that the peek tests on its way
raises. -/
def Peeked (b : Board) (r : Row) : Prop := FindsFirst (rowVerdict b) rowBlocked (pendingRows b) r

theorem load_of_decode {col : Option Text} (h : (decode (.arr []) col).truthy = true) :
    loadList col = .ok (decode (.arr []) col) := by
  cases hload : loadList col with
  | ok v => rw [decode_of_load hload]
  | error e =>
    exfalso
    cases col with
    | none => cases hload
    | some t =>
      unfold loadList at hload
      unfold decode at h
      dsimp only at hload h
      split at hload
      · next ht =>
        rw [if_pos ht, hload] at h
        cases h
      · cases hload

variable (b : Board)

theorem anyOpen_of_done {keys : List Json} {v : Bool} (h : blockersDone b keys = .ok v) :
    anyOpen b keys = .ok (!v) := by
  induction keys with
  | nil =>
    cases h
    rfl
  | cons key rest ih =>
    simp only [blockersDone, anyOpen, bind, Except.bind] at h ⊢
    cases hkey : selectKey b key with
    | error e => simp [hkey] at h
    | ok found =>
      simp only [hkey] at h ⊢
      cases found with
      | none =>
        cases h
        rfl
      | some r =>
        cases hrow : Task.fromRow r with
        | error e => simp [hrow] at h
        | ok task =>
          obtain ⟨hstatus, -⟩ := fromRow_ok r task hrow
          simp only [hrow] at h
          by_cases hdone : task.status = .done
          · rw [if_pos hdone] at h
            simp only [hstatus, hdone, TaskStatus.value, ne_eq, not_true, if_false]
            exact ih h
          · rw [if_neg hdone] at h
            have hne : r.status ≠ "done" := by
              rw [hstatus]
              exact fun hv => hdone ((TaskStatus.value_inj task.status .done).mp hv)
            cases h
            simp only [ne_eq, hne, not_false_eq_true, if_true]
            rfl

theorem claimPick_waiting {r : Row} (h : rowVerdict b r = .ok false) (rh : Option String)
    (rest : List Row) :
    claimPick b rh (r :: rest) = claimPick b rh rest := by
  -- A row that the peek finds waiting is passed over by the claim.
  unfold rowVerdict verdict at h
  split at h
  · next hblockers =>
    have hload := load_of_decode hblockers
    cases hiter : (r.toTask .pending).blockedBy.iter with
    | error e =>
      rw [hiter] at h
      cases h
    | ok keys =>
      rw [hiter] at h
      rw [claimPick, hload]
      split
      · rfl
      · simp only [bind, Except.bind]
        rw [if_pos (show (decode (.arr []) r.blockedBy).truthy = true from hblockers),
          show (decode (.arr []) r.blockedBy).iter = .ok keys from hiter]
        simp only [anyOpen_of_done b h, Bool.not_false, if_true]
  · cases h

theorem claimPick_ready {r : Row} (h : rowVerdict b r = .ok true) (rest : List Row) :
    claimPick b (some r.requiredHead) (r :: rest) = (loadList r.blockedBy).map fun _ => some r := by
  have hhead : (some r.requiredHead).any (· != r.requiredHead) = false := by simp
  rw [claimPick, hhead, if_neg Bool.false_ne_true]
  cases hload : loadList r.blockedBy with
  | error e => rfl
  | ok v =>
    have hv : (r.toTask .pending).blockedBy = v := decode_of_load hload
    unfold rowVerdict verdict at h
    rw [hv] at h
    simp only [bind, Except.bind] at h ⊢
    split at h
    · next hblockers =>
      rw [if_pos hblockers]
      cases hiter : v.iter with
      | error e => simp [hiter] at h
      | ok keys =>
        simp only [hiter] at h ⊢
        simp only [anyOpen_of_done b h]
        rfl
    · next hblockers =>
      rw [if_neg hblockers]
      rfl

theorem claimPick_peeked {r : Row} (h : Peeked b r) :
    claimPick b (some r.requiredHead) (pendingRows b) = (loadList r.blockedBy).map fun _ =>
      some r := by
  obtain ⟨before, after, hsplit, hbefore, hr, -⟩ := h
  rw [hsplit]
  clear hsplit
  induction before with
  | nil => exact claimPick_ready b hr after
  | cons x before ih =>
    rw [List.cons_append, claimPick_waiting b (hbefore x List.mem_cons_self)]
    exact ih fun y hy => hbefore y (List.mem_cons_of_mem _ hy)

theorem peeked_iff (task : Kanban.Task) :
    (∃ rest, unblocked b none (some 1) = .ok (task :: rest)) ↔
      ∃ r, r.toTask .pending = task ∧ Peeked b r := by
  have hcollect := unblocked_collect b none (some 1)
  have hall : pendingFor b none = (pendingRows b).map (·.toTask .pending) := by
    unfold pendingFor
    simp
  rw [hall] at hcollect
  rw [show unblocked b none (some 1) = _ from hcollect, collect_first_iff (verdict_free b), findsFirst_map]
  rfl

theorem Peeked.pending {r : Row} (h : Peeked b r) : r ∈ b.tasks ∧ r.status = "pending" := by
  obtain ⟨before, after, hsplit, -⟩ := h
  rw [← mem_pendingRows, hsplit]
  simp

/-! ## The step -/

variable (cfg : Config) (roster : Roster) (conductor : Conductor) (t : Times) (s : State)

/-- A ready row of the board. -/
def ReadyRow (r : Row) : Prop := r ∈ b.tasks ∧ r.status = "pending" ∧ rowVerdict b r = .ok true

/-- The first ready row has a head, and the peek and the claim can read what they meet. -/
def Served : Prop :=
  ∃ r, Peeked b r ∧ (∃ v, loadList r.blockedBy = .ok v) ∧ (pickHead roster r.requiredHead).isSome = true

/-- The step gives one task to the conductor and returns it. -/
def Dispatches : Prop :=
  ∃ d s', step cfg roster conductor false t s = (.ok (some d.task), s') ∧ s'.calls = s.calls ++ [d]

section Conductor

variable (hconductor : ∀ n head task e, conductor n head task = .error e → e.cls ≠ .abortRequested)
include hconductor

theorem served_dispatches (h : Served s.board roster) : Dispatches cfg roster conductor t s := by
  obtain ⟨r, hr, ⟨v, hload⟩, hhead⟩ := h
  obtain ⟨head, hhead⟩ := Option.isSome_iff_exists.mp hhead
  obtain ⟨rest, hpeek⟩ := (peeked_iff s.board (r.toTask .pending)).mpr ⟨r, rfl, hr⟩
  obtain ⟨hmem, -⟩ := hr.pending
  have hpick := claimPick_peeked s.board hr
  rw [hload] at hpick
  -- The peek and the claim pick the same row.
  have hclaim :=
    claimOne_of_pick s.board (some r.requiredHead) (workerId cfg head) t.startedAt t.claimTs r hmem hpick
  let call := callFor cfg t s head r
  obtain ⟨hresult, -, hcalls⟩ :=
    dispatchOne_spec _ (conductor s.calls.length head call.task) call.task t
    { s with board := call.board, calls := s.calls ++ [call] }
    (select_claimedBoard s.board (workerId cfg head) t.startedAt t.claimTs r hmem)
  have hstep : step cfg roster conductor false t s =
      let out := dispatchOne (conductor s.calls.length head call.task) call.task t
        { s with board := call.board, calls := s.calls ++ [call] }
      (out.1.map some, out.2) := by
    have hsame : ((claimRow (workerId cfg head) t.startedAt r).toTask .inProgress).id =
        (r.toTask .pending).id := rfl
    simp only [step, raiseIfSet_false, hpeek, show (r.toTask .pending).requiredHead = r.requiredHead from rfl, hhead,
      hclaim]
    rw [if_neg (not_not.mpr hsame)]
    rfl
  refine ⟨call, _, ?_, hcalls⟩
  rw [hstep]
  dsimp only
  rw [hresult]
  -- The conductor does not abort, so the step returns a task or raises.
  cases hanswer : conductor s.calls.length head call.task with
  | ok o => rfl
  | error e =>
    simp only [answerResult, if_neg (hconductor _ _ _ _ hanswer)]
    rfl

omit hconductor in
theorem dispatches_served (h : Dispatches cfg roster conductor t s) : Served s.board roster := by
  obtain ⟨d, s', hstep, -⟩ := h
  unfold step at hstep
  rw [raiseIfSet_false] at hstep
  cases hpeek : unblocked s.board none (some 1) with
  | error e => simp [hpeek] at hstep
  | ok L =>
    cases L with
    | nil => simp [hpeek] at hstep
    | cons task rest =>
      obtain ⟨r, rfl, hr⟩ := (peeked_iff s.board task).mp ⟨rest, hpeek⟩
      refine ⟨r, hr, ?_, ?_⟩
      · cases hload : loadList r.blockedBy with
        | ok v => exact ⟨v, rfl⟩
        | error e =>
          -- The claim raises where the peek took the text for an empty list.
          exfalso
          have hpick := claimPick_peeked s.board hr
          rw [hload] at hpick
          cases hhead : pickHead roster r.requiredHead with
          | none => simp [hpeek, show (r.toTask .pending).requiredHead = r.requiredHead from rfl, hhead] at hstep
          | some head =>
            have hclaim : claimOne s.board (workerId cfg head) (some r.requiredHead) t.startedAt t.claimTs =
                (.error e, s.board) := by
              unfold claimOne
              rw [← pendingRows, hpick]
              rfl
            simp [hpeek, hhead, show (r.toTask .pending).requiredHead = r.requiredHead from rfl, hclaim] at hstep
      · cases hhead : pickHead roster r.requiredHead with
        | some head => rfl
        | none => simp [hpeek, show (r.toTask .pending).requiredHead = r.requiredHead from rfl, hhead] at hstep

/-- **When the line moves.** A step dispatches a task whenever some ready task has a head, exactly
when no ready task has one or the first ready task does and can be read on the way. -/
theorem step_dispatches_iff :
    ((∃ r, ReadyRow s.board r ∧ (pickHead roster r.requiredHead).isSome = true) →
        Dispatches cfg roster conductor t s) ↔
      (∀ r, ReadyRow s.board r → pickHead roster r.requiredHead = none) ∨
        Served s.board roster := by
  have hserved : Dispatches cfg roster conductor t s ↔ Served s.board roster :=
    ⟨dispatches_served cfg roster conductor t s, served_dispatches cfg roster conductor t s hconductor⟩
  rw [hserved]
  constructor
  · intro h
    by_cases hsome : ∃ r, ReadyRow s.board r ∧ (pickHead roster r.requiredHead).isSome = true
    · exact .inr (h hsome)
    · left
      intro r hr
      by_contra hne
      exact hsome ⟨r, hr, Option.isSome_iff_ne_none.mpr hne⟩
  · rintro (hnone | hs) ⟨r, hr, hhead⟩
    · rw [hnone r hr] at hhead
      cases hhead
    · exact hs

end Conductor

def stubConductor : Conductor := fun _ _ _ => .ok ⟨.done, 0, none, none, none⟩

def plainConfig : Config := ⟨"supervisor", none, none, 10, false⟩

theorem chain_dispatches :
    Dispatches plainConfig soloRoster stubConductor ⟨0, 0, 0, 0⟩ (fresh chain) := by
  have hmet : rowVerdict chain (Task.toRow (Task.new "a" 1)) = .ok true := rfl
  have hserved : Served chain soloRoster := by
    refine ⟨Task.toRow (Task.new "a" 1), ?_, ⟨_, rfl⟩, rfl⟩
    refine ⟨[Task.toRow { Task.new "b" 0 with blockedBy := .ofStrs ["a"] }], [], rfl, ?_, hmet, .inr ?_⟩
    · intro y hy
      rw [List.mem_singleton.mp hy]
      rfl
    · intro skipped y later h
      simp at h
  refine (step_dispatches_iff plainConfig soloRoster stubConductor ⟨0, 0, 0, 0⟩ (fresh chain)
    (fun n head task e h => by cases h)).mpr (.inr hserved) ?_
  exact ⟨Task.toRow (Task.new "a" 1), ⟨List.mem_pair.mpr (.inr rfl), rfl, hmet⟩, rfl⟩

/-- A task for the builder before one for the reviewer. -/
def mixedBoard : Board where
  tasks := [Task.toRow (Task.new "a" 0), Task.toRow { Task.new "b" 1 with requiredHead := "reviewer" }]
  timeline := []
  primaryKey := by decide

def reviewerOnly : Roster := [("reviewer", ⟨"reviewer"⟩)]

/-- The reviewer's task is ready, and the step does nothing, now and again. -/
theorem headless_task_blocks :
    (∃ r, ReadyRow mixedBoard r ∧ (pickHead reviewerOnly r.requiredHead).isSome = true) ∧
      step plainConfig reviewerOnly stubConductor false ⟨0, 0, 0, 0⟩ (fresh mixedBoard) =
        (.ok none, fresh mixedBoard) := by
  refine ⟨⟨Task.toRow { Task.new "b" 1 with requiredHead := "reviewer" }, ?_, rfl⟩, rfl⟩
  exact ⟨List.mem_pair.mpr (.inr rfl), rfl, rfl⟩

end Swarm.Supervisor
