import Swarm.Perpetual.Code
import Swarm.Supervisor.WriteBack

/-! # What the driver leaves -/

namespace Swarm.Perpetual

open Kanban Supervisor Resilience

/-- The status in which the driver leaves the task. -/
def releaseStatus (roster : Roster) (answer : Answer) (claimed : Kanban.Task) : TaskStatus :=
  match pickHead roster claimed.requiredHead with
  | none => .failed
  | some _ =>
    match answer with
    | .ok o => o.status
    | .error e =>
      if e.cls = .abortRequested ∨ (classifyError e).isSome then .pending else .failed

def releaseResult (roster : Roster) (answer : Answer) (claimed : Kanban.Task) :
    Except Exn Kanban.Task :=
  match pickHead roster claimed.requiredHead with
  | none => .ok claimed
  | some _ =>
    match answer with
    | .ok _ => .ok claimed
    | .error e =>
      if e.cls = .abortRequested ∨ (classifyError e).isSome then .error (.raised e) else .ok claimed

theorem releaseStatus_ne_inProgress (roster : Roster) (answer : Answer) (claimed : Kanban.Task)
    (h : ∀ o, answer = .ok o → o.status ≠ .inProgress) :
    releaseStatus roster answer claimed ≠ .inProgress := by
  unfold releaseStatus
  split
  · simp
  split
  · next o => exact h o rfl
  · split <;> simp

/-- **Every exit of the driver releases its claim.** -/
theorem release_spec (roster : Roster) (answer : Answer) (claimed : Kanban.Task) (t : Times)
    (s : State) (r : Row) (hr : s.board.select claimed.id = some r) :
    (release roster answer claimed t s).1 = releaseResult roster answer claimed ∧
      Moves s.board (release roster answer claimed t s).2.board claimed.id
        (releaseStatus roster answer claimed).value ∧
      (release roster answer claimed t s).2.calls = s.calls := by
  cases hhead : pickHead roster claimed.requiredHead with
  | none =>
    obtain ⟨task, b', hwrite, hmoves⟩ :=
      failed_moves s.board claimed.id r hr t.updateTs "no matching head" t.completedAt
    simp only [release, releaseResult, releaseStatus, hhead, hwrite, after]
    exact ⟨trivial, hmoves, trivial⟩
  | some head =>
    simp only [release, releaseResult, releaseStatus, hhead]
    cases answer with
    | ok o => exact dispatchOne_spec r (.ok o) claimed t s hr
    | error e =>
      have hplain := dispatchOne_spec r (.error e) claimed t s hr
      simp only [answerResult, answerStatus] at hplain
      by_cases habort : e.cls = .abortRequested
      · simpa [habort] using hplain
      by_cases htransient : (classifyError e).isSome
      · obtain ⟨task, b', hwrite, hmoves⟩ := transition_moves s.board claimed.id r hr t.updateTs
          .pending (some "transient; will retry")
        simp only [hwrite, after]
        simpa [habort, htransient] using hmoves
      · simpa [habort, htransient] using hplain

end Swarm.Perpetual
