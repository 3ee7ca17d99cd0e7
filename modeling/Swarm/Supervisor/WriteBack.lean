import Swarm.Supervisor.Code

/-! # What a write-back leaves -/

namespace Swarm.Supervisor

open Kanban

theorem outcomeFields_kept (o : DispatchResult) (completedAt : ℚ) (r : Row) :
    kept (setAll (outcomeFields o completedAt) r) = kept r := by
  simp only [setAll, outcomeFields, List.foldl, Field.set, kept]

theorem failedFields_kept (error : String) (completedAt : ℚ) (r : Row) :
    kept (setAll (failedFields error completedAt) r) = kept r := by
  simp only [setAll, failedFields, List.foldl, Field.set, kept]

theorem status_kept (status : String) (r : Row) : kept (setAll [.status status] r) = kept r := by
  simp only [setAll, List.foldl, Field.set, kept]

variable (b : Board) (id : String) (r : Row) (hr : b.select id = some r) (ts : ℚ)
include hr

theorem outcome_moves (o : DispatchResult) (completedAt : ℚ) :
    ∃ task b', update b id (outcomeFields o completedAt) none ts = (.ok (some task), b') ∧
      Moves b b' id o.status.value :=
  update_moves b id (outcomeFields o completedAt) none ts r o.status hr rfl rfl rfl
    (outcomeFields_kept o completedAt)

theorem failed_moves (error : String) (completedAt : ℚ) :
    ∃ task b', update b id (failedFields error completedAt) none ts = (.ok (some task), b') ∧
      Moves b b' id "failed" :=
  update_moves b id (failedFields error completedAt) none ts r .failed hr rfl rfl rfl
    (failedFields_kept error completedAt)

theorem transition_moves (s : TaskStatus) (reason : Option String) :
    ∃ task b', transition b id s reason ts = (.ok (some task), b') ∧ Moves b b' id s.value :=
  update_moves b id [.status s.value] reason ts r s hr rfl rfl rfl (status_kept s.value)

omit hr

def answerStatus : Answer → TaskStatus
  | .ok o => o.status
  | .error e => if e.cls = .abortRequested then .pending else .failed

def answerResult (claimed : Kanban.Task) : Answer → Except Exn Kanban.Task
  | .ok _ => .ok claimed
  | .error e => if e.cls = .abortRequested then .error (.raised e) else .ok claimed

/-- Whatever the conductor does, the claimed task is released. -/
theorem dispatchOne_spec (answer : Answer) (claimed : Kanban.Task) (t : Times) (s : State)
    (hr : s.board.select claimed.id = some r) :
    (dispatchOne answer claimed t s).1 = answerResult claimed answer ∧
      Moves s.board (dispatchOne answer claimed t s).2.board claimed.id (answerStatus answer).value ∧
      (dispatchOne answer claimed t s).2.calls = s.calls := by
  cases answer with
  | ok o =>
    obtain ⟨task, b', hwrite, hmoves⟩ :=
      outcome_moves s.board claimed.id r hr t.updateTs o t.completedAt
    simp only [dispatchOne, hwrite, after]
    exact ⟨rfl, hmoves, trivial⟩
  | error e =>
    simp only [dispatchOne, answerResult, answerStatus]
    split
    · obtain ⟨task, b', hwrite, hmoves⟩ :=
        transition_moves s.board claimed.id r hr t.updateTs .pending (some "aborted")
      simp only [hwrite, after]
      exact ⟨trivial, hmoves, trivial⟩
    · obtain ⟨task, b', hwrite, hmoves⟩ :=
        failed_moves s.board claimed.id r hr t.updateTs e.repr t.completedAt
      simp only [hwrite, after]
      exact ⟨trivial, hmoves, trivial⟩

end Swarm.Supervisor
