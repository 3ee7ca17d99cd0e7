import Swarm.Kanban.Claim
import Swarm.Lib.Collect

/-! # The limit of the peek -/

namespace Swarm.Kanban

open Lib

/-- What the peek finds of a pending task: whether all that it waits for is DONE. -/
def verdict (b : Board) (t : Task) : Except PyError Bool :=
  if t.blockedBy.truthy then t.blockedBy.iter >>= blockersDone b else .ok true

def hasBlockers (t : Task) : Bool := t.blockedBy.truthy

/-- The pending tasks of the head, in the order of the peek. -/
def pendingFor (b : Board) (requiredHead : Option String) : List Task :=
  ((pendingRows b).map (·.toTask .pending)).filter fun t => !requiredHead.any (· != t.requiredHead)

def readyTasks (b : Board) (tasks : List Task) : List Task := tasks.filter (good (verdict b))

theorem verdict_free (b : Board) (t : Task) (h : hasBlockers t = false) :
    verdict b t = .ok true := by
  unfold verdict hasBlockers at *
  rw [h]
  rfl

theorem unblockedLoop_eq (b : Board) (rh : Option String) (limit : Option Nat)
    (ts out : List Task) :
    unblockedLoop b rh (limit.map fun n : Nat => (n : Int)) ts out =
      collect (verdict b) hasBlockers limit (ts.filter fun t => !rh.any (· != t.requiredHead)) out := by
  induction ts generalizing out with
  | nil => rfl
  | cons t rest ih =>
    have hlimit : ∀ out' : List Task, (limit.map fun n : Nat => (n : Int)).any (· ≤ (out'.length : Int)) =
        limit.any (· ≤ out'.length) := by
      intro out'
      cases limit <;> simp
    rw [unblockedLoop]
    split
    · next hhead => rw [List.filter_cons_of_neg (by simp [hhead]), ih]
    next hhead =>
    rw [List.filter_cons_of_pos (by simpa using hhead)]
    cases hblockers : t.blockedBy.truthy with
    | false =>
      -- A task without blockers is good, and the early `continue` passes over the limit.
      have hv : verdict b t = .ok true := verdict_free b t hblockers
      have hgood : good (verdict b) t = true := by simp [good, hv, Except.toOption]
      rw [collect_step hv, show hasBlockers t = false from hblockers]
      simp [ih, hgood]
    | true =>
      -- Only a task with blockers gets to the test of the limit.
      have hv : verdict b t = t.blockedBy.iter >>= blockersDone b := if_pos hblockers
      simp only [Bool.not_true, Bool.false_eq_true, if_false, bind, Except.bind] at hv ⊢
      cases hiter : t.blockedBy.iter with
      | error e =>
        rw [hiter] at hv
        rw [collect_error hv]
      | ok keys =>
        simp only [hiter] at hv ⊢
        cases hdone : blockersDone b keys with
        | error e => rw [collect_error (hv.trans hdone)]
        | ok ok =>
          have hgood : good (verdict b) t = ok := by cases ok <;> simp [good, hv, hdone, Except.toOption]
          rw [collect_step (hv.trans hdone), show hasBlockers t = true from hblockers]
          simp only [hlimit, Bool.true_and, ih, List.filter_singleton, hgood]
          cases ok <;> simp [pure, Except.pure]

theorem unblocked_collect (b : Board) (rh : Option String) (limit : Option Nat) :
    unblocked b rh (limit.map fun n : Nat => (n : Int)) =
      collect (verdict b) hasBlockers limit (pendingFor b rh) [] := by
  rw [unblocked_eq, unblockedLoop_eq]
  rfl

/-- Either every task has a verdict, and no more than `n` are ready or a task with blockers stands
where exactly `n` are; or one has none, and no task with blockers before it stands where `n`
are. -/
def LimitKept (b : Board) (rh : Option String) (n : Nat) : Prop :=
  (∀ t ∈ pendingFor b rh, ∃ v, verdict b t = .ok v) ∧
      ((readyTasks b (pendingFor b rh)).length ≤ n ∨
        ∃ before y after, pendingFor b rh = before ++ y :: after ∧ hasBlockers y = true ∧
          (readyTasks b (before ++ [y])).length = n) ∨
    (∃ t ∈ pendingFor b rh, ∃ e, verdict b t = .error e) ∧
      ∀ before y after, pendingFor b rh = before ++ y :: after → (∀ t ∈ before ++ [y], ∃ v, verdict b t = .ok v) →
        hasBlockers y = true → (readyTasks b (before ++ [y])).length < n

/-- **When the limit is kept.** What `unblocked(limit=n)` gives is the first `n` of what
`unblocked()` does, or what that raises. -/
theorem limit_take_iff (b : Board) (rh : Option String) (n : Nat) :
    unblocked b rh (some (n : Int)) = (unblocked b rh none).map (·.take n) ↔ LimitKept b rh n := by
  have hall := unblocked_collect b rh none
  have hsome := unblocked_collect b rh (some n)
  rw [Option.map_none] at hall
  rw [Option.map_some] at hsome
  rw [hall, hsome]
  unfold LimitKept
  cases hcollect : collect (verdict b) hasBlockers none (pendingFor b rh) [] with
  | ok L =>
    have hverdicts := (collect_none hcollect).2
    have hnone : ¬ ∃ t ∈ pendingFor b rh, ∃ e, verdict b t = .error e := by
      rintro ⟨t, ht, e, he⟩
      obtain ⟨v, hv⟩ := hverdicts t ht
      rw [he] at hv
      cases hv
    rw [and_iff_right hverdicts, iff_false_intro hnone, false_and, or_false]
    exact collect_take_iff hcollect
  | error e =>
    have hraises := collect_none_error hcollect
    have hnone : ¬ ∀ t ∈ pendingFor b rh, ∃ v, verdict b t = .ok v := by
      intro hverdicts
      obtain ⟨t, ht, e', he⟩ := hraises
      obtain ⟨v, hv⟩ := hverdicts t ht
      rw [he] at hv
      cases hv
    rw [and_iff_right hraises, iff_false_intro hnone, false_and, false_or]
    exact collect_error_iff hcollect

/-- Two pending tasks that wait for nothing. -/
def twoFree : Board where
  tasks := [Task.toRow (Task.new "a" 0), Task.toRow (Task.new "b" 1)]
  timeline := []
  primaryKey := by decide

theorem free_tasks_unlimited :
    ∃ L, unblocked twoFree none none = .ok L ∧ unblocked twoFree none (some 1) = .ok L ∧
      L.length = 2 :=
  ⟨_, rfl, rfl, rfl⟩

end Swarm.Kanban
