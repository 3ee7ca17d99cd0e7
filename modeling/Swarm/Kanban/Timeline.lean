import Swarm.Kanban.Update
import Swarm.Lib.Journal

/-!
# The timeline is the journal of every status

Restart recovery reads the timeline. Whatever calls made the board, a task's timeline rows
lead from nothing to the status on its row.
-/

namespace Swarm.Kanban

open Swarm.Lib

/-- The calls of a history. -/
inductive Call
  | submit (task : Task) (ts : ℚ)
  | update (taskId : String) (fields : List Field) (reason : Option String) (ts : ℚ)
  | transition (taskId : String) (toStatus : TaskStatus) (reason : Option String) (ts : ℚ)
  | addBlockedBy (taskId : String) (blockerIds : List String)
  | addBlocks (taskId : String) (blockedIds : List String)
  | claimOne (workerId : String) (requiredHead : Option String) (now ts : ℚ)

/-- The board after the call, also when it raises. -/
def Call.apply (b : Board) : Call → Board
  | .submit task ts => (Kanban.submit b task ts).2
  | .update taskId fields reason ts => (Kanban.update b taskId fields reason ts).2
  | .transition taskId toStatus reason ts => (Kanban.transition b taskId toStatus reason ts).2
  | .addBlockedBy taskId blockerIds => (Kanban.addBlockedBy b taskId blockerIds).2
  | .addBlocks taskId blockedIds => (Kanban.addBlocks b taskId blockedIds).2
  | .claimOne workerId rh now ts => (Kanban.claimOne b workerId rh now ts).2

def runCalls (calls : List Call) : Board := calls.foldl Call.apply .empty

/-- The changes of a task, as the timeline has them. -/
def history (b : Board) (taskId : String) : List (Option String × String) :=
  (b.timeline.filter (·.taskId == taskId)).map fun e => (e.fromStatus, e.toStatus)

def statuses (b : Board) : List (String × String) := b.tasks.map fun r => (r.id, r.status)

/-- The timeline is of tasks on the board, and each task's part of it leads to its status. -/
structure Faithful (b : Board) : Prop where
  known : ∀ e ∈ b.timeline, ∃ s, (e.taskId, s) ∈ statuses b
  journal : ∀ id s, (id, s) ∈ statuses b → Journal (history b id) s

theorem mem_statuses (b : Board) (id s : String) :
    (id, s) ∈ statuses b ↔ ∃ r ∈ b.tasks, r.id = id ∧ r.status = s := by
  simp [statuses]

/-! ## The ways a board can change -/

theorem faithful_same (b b' : Board) (hs : statuses b' = statuses b)
    (ht : b'.timeline = b.timeline) (h : Faithful b) : Faithful b' := by
  constructor
  · rw [hs, ht]; exact h.known
  · intro id s hmem
    rw [hs] at hmem
    have := h.journal id s hmem
    rwa [history, ← ht] at this

theorem faithful_changed (b b' : Board) (id old new : String) (reason : Option String) (ts : ℚ)
    (hmem : (id, old) ∈ statuses b) (hne : new ≠ old)
    (hs : statuses b' = (statuses b).map fun p => if p.1 = id then (id, new) else p)
    (ht : b'.timeline = b.timeline ++ [⟨id, some old, new, reason, ts⟩]) (h : Faithful b) :
    Faithful b' := by
  have hkept : ∀ i s, (i, s) ∈ statuses b → ∃ s', (i, s') ∈ statuses b' := by
    intro i s hi
    rw [hs]
    by_cases heq : i = id
    · exact ⟨new, List.mem_map.mpr ⟨(i, s), hi, by simp [heq]⟩⟩
    · exact ⟨s, List.mem_map.mpr ⟨(i, s), hi, by simp [heq]⟩⟩
  constructor
  · intro e he
    rw [ht, List.mem_append, List.mem_singleton] at he
    rcases he with he | rfl
    · obtain ⟨s, hmem'⟩ := h.known e he
      exact hkept _ _ hmem'
    · exact hkept _ _ hmem
  · intro i s hi
    rw [hs] at hi
    obtain ⟨⟨j, s'⟩, hj, hj'⟩ := List.mem_map.mp hi
    by_cases heq : j = id
    · simp only [heq, if_true, Prod.mk.injEq] at hj'
      obtain ⟨rfl, rfl⟩ := hj'
      have hlog : history b' id = history b id ++ [(some old, new)] := by simp [history, ht]
      rw [hlog]
      exact (h.journal id old hmem).next hne
    · simp only [heq, if_false, Prod.mk.injEq] at hj'
      obtain ⟨rfl, rfl⟩ := hj'
      have hlog : history b' j = history b j := by
        have : (id == j) = false := by simpa using fun h => heq h.symm
        simp [history, ht, this]
      rw [hlog]
      exact h.journal j s' hj

theorem faithful_submitted (b b' : Board) (id s : String) (reason : Option String) (ts : ℚ)
    (hnew : ∀ s', (id, s') ∉ statuses b) (hs : statuses b' = statuses b ++ [(id, s)])
    (ht : b'.timeline = b.timeline ++ [⟨id, none, s, reason, ts⟩]) (h : Faithful b) :
    Faithful b' := by
  constructor
  · intro e he
    rw [ht, List.mem_append, List.mem_singleton] at he
    rw [hs]
    rcases he with he | rfl
    · obtain ⟨s', hmem⟩ := h.known e he
      exact ⟨s', List.mem_append_left _ hmem⟩
    · exact ⟨s, by simp⟩
  · intro i s' hi
    rw [hs, List.mem_append, List.mem_singleton] at hi
    rcases hi with hi | hi
    · have hne : (id == i) = false := by
        simp only [beq_eq_false_iff_ne, ne_eq]
        rintro rfl
        exact hnew s' hi
      have hlog : history b' i = history b i := by simp [history, ht, hne]
      rw [hlog]
      exact h.journal i s' hi
    · simp only [Prod.mk.injEq] at hi
      obtain ⟨rfl, rfl⟩ := hi
      have hempty : b.timeline.filter (·.taskId == i) = [] := by
        rw [List.filter_eq_nil_iff]
        intro e he
        obtain ⟨s'', hmem⟩ := h.known e he
        simp only [beq_iff_eq]
        rintro rfl
        exact hnew s'' hmem
      have hlog : history b' i = [(none, s')] := by simp [history, ht, hempty]
      rw [hlog]
      exact Journal.first s'

/-! ## The calls -/

theorem statuses_modify (b : Board) (id : String) (f : Row → Row) (hf : ∀ r, (f r).id = r.id)
    (hs : ∀ r, (f r).status = r.status) : statuses (b.modify id f hf) = statuses b := by
  simp only [statuses, Board.modify, List.map_map]
  apply List.map_congr_left
  intro r _
  simp only [Function.comp_apply]
  split
  · rw [hf, hs]
  · rfl

theorem mirrorLoop_frame (taskId : String) (ids : List String) (b : Board) :
    statuses (mirrorLoop taskId b ids).2 = statuses b ∧
      (mirrorLoop taskId b ids).2.timeline = b.timeline := by
  induction ids generalizing b with
  | nil => exact ⟨rfl, rfl⟩
  | cons blocker rest ih =>
    simp only [mirrorLoop]
    split
    · exact ih b
    · split
      · exact ⟨rfl, rfl⟩
      · exact ih b
      · next brow _ _ blist _ =>
        let f : Row → Row := fun r => { r with blocks := some (Text.json (.ofStrs blist)) }
        obtain ⟨h1, h2⟩ := ih (b.modify blocker f fun _ => rfl)
        exact ⟨h1.trans (statuses_modify b blocker f (fun _ => rfl) fun _ => rfl), h2⟩

theorem addBlockedBy_frame (b : Board) (taskId : String) (ids : List String) :
    statuses (addBlockedBy b taskId ids).2 = statuses b ∧
      (addBlockedBy b taskId ids).2.timeline = b.timeline := by
  simp only [addBlockedBy]
  split
  · exact ⟨rfl, rfl⟩
  · split
    · exact ⟨rfl, rfl⟩
    · split
      · exact ⟨rfl, rfl⟩
      · next row _ _ current _ =>
        let col := dumps (.ofStrs (sortedSet (current ++ ids.filter (· != ""))))
        let f : Row → Row := fun r => { r with blockedBy := col }
        obtain ⟨h1, h2⟩ :=
          mirrorLoop_frame taskId (ids.filter (· != "")) (b.modify taskId f fun _ => rfl)
        exact ⟨h1.trans (statuses_modify b taskId f (fun _ => rfl) fun _ => rfl), h2⟩

theorem addBlocksLoop_frame (taskId : String) (ids : List String) (b : Board) :
    statuses (addBlocksLoop b taskId ids).2 = statuses b ∧
      (addBlocksLoop b taskId ids).2.timeline = b.timeline := by
  induction ids generalizing b with
  | nil => exact ⟨rfl, rfl⟩
  | cons blocked rest ih =>
    have hframe := addBlockedBy_frame b blocked [taskId]
    simp only [addBlocksLoop]
    split
    · next h => rw [h] at hframe; exact hframe
    · next h =>
      rw [h] at hframe
      obtain ⟨h1, h2⟩ := ih _
      exact ⟨h1.trans hframe.1, h2.trans hframe.2⟩

theorem faithful_submit (b : Board) (task : Task) (ts : ℚ) (h : Faithful b) :
    Faithful (submit b task ts).2 := by
  rcases submit_cases b task ts with heq | ⟨hnew, htasks, htimeline⟩
  · rw [heq]; exact h
  refine faithful_submitted b _ task.id task.status.value (some "submit") ts ?_ ?_ htimeline h
  · intro s' hmem
    obtain ⟨r, hr, hid, -⟩ := (mem_statuses b _ _).mp hmem
    exact hnew r hr hid
  · simp [statuses, htasks, Task.toRow]

theorem updateRow_faithful (b b' : Board) (taskId : String) (fields : List Field) (r : Row)
    (hr : b.select taskId = some r) (hrow : updateRow b taskId fields = .ok b')
    (h : Faithful b) : b' = written b taskId fields := by
  -- A task on a faithful board has timeline rows, so its id cannot be changed.
  obtain ⟨hmem, rfl⟩ := select_mem b taskId r hr
  have hlog := (h.journal r.id r.status ((mem_statuses b _ _).mpr ⟨r, hmem, rfl, rfl⟩)).ne_nil
  have hany : b.timeline.any (·.taskId == r.id) = true := by
    rw [history, ne_eq, List.map_eq_nil_iff, List.filter_eq_nil_iff] at hlog
    simpa using hlog
  simp only [updateRow] at hrow
  split at hrow
  · cases hrow
  split at hrow
  · cases hrow; rfl
  · simp only [rename] at hrow
    split at hrow
    · cases hrow; rfl
    · have hany' : (b.modify r.id (setAll fields) (setAll_id fields)).timeline.any
          (·.taskId == r.id) = true := hany
      -- Either constraint refuses it.
      simp only [if_pos hany'] at hrow
      split at hrow
      · cases hrow
      · cases hrow

theorem statuses_written (b : Board) (taskId : String) (fields : List Field) (r : Row)
    (hr : b.select taskId = some r) :
    statuses (written b taskId fields) =
      (statuses b).map fun p =>
        if p.1 = taskId then (taskId, (given Field.status? fields).getD r.status) else p := by
  obtain ⟨hmem, rfl⟩ := select_mem b taskId r hr
  simp only [statuses, written, Board.modify, List.map_map]
  apply List.map_congr_left
  intro x hx
  simp only [Function.comp_apply]
  split
  · next hid =>
    rw [row_unique b x r hx hmem hid, setAll_id, setAll_status]
  · rfl

theorem faithful_update (b : Board) (taskId : String) (fields : List Field)
    (reason : Option String) (ts : ℚ) (h : Faithful b) :
    Faithful (update b taskId fields reason ts).2 := by
  rcases update_cases b taskId fields reason ts with heq | ⟨r, b', hr, hrow, hcase⟩
  · rw [heq]; exact h
  obtain ⟨hmem, hid⟩ := select_mem b taskId r hr
  have hold : (taskId, r.status) ∈ statuses b := (mem_statuses b _ _).mpr ⟨r, hmem, hid, rfl⟩
  have hwritten := updateRow_faithful b b' taskId fields r hr hrow h
  have hstat := statuses_written b taskId fields r hr
  subst hwritten
  rcases hcase with ⟨hsame, heq⟩ | ⟨s, hs, hne, ⟨-, hgone⟩ | heq⟩
  · rw [heq]
    refine faithful_same b (written b taskId fields) ?_ rfl h
    rw [hstat, hsame]
    conv_rhs => rw [← List.map_id (statuses b)]
    apply List.map_congr_left
    rintro ⟨i, s⟩ hp
    split
    · next hi =>
      obtain ⟨x, hx, hxi, rfl⟩ := (mem_statuses b i s).mp hp
      obtain rfl := row_unique b x r hx hmem ((hxi.trans hi).trans hid.symm)
      exact congrArg (·, x.status) hi.symm
    · rfl
  · rw [written, modify_ids, List.any_eq_false] at hgone
    exact absurd (by simpa using hid) (hgone r hmem)
  · rw [heq]
    apply faithful_changed b _ taskId r.status s reason ts hold hne _ rfl h
    rw [hs] at hstat
    exact hstat

theorem faithful_claim (b : Board) (workerId : String) (rh : Option String) (now ts : ℚ)
    (h : Faithful b) : Faithful (claimOne b workerId rh now ts).2 := by
  rcases claimOne_cases b rh workerId now ts with ⟨-, heq, -⟩ | ⟨r, hr, -, hpending, -, -, heq⟩
  · rw [heq]; exact h
  have hold : (r.id, "pending") ∈ statuses b := (mem_statuses b _ _).mpr ⟨r, hr, rfl, hpending⟩
  rw [heq]
  refine faithful_changed b _ r.id "pending" "in_progress" (some ("claim:" ++ workerId)) ts
    hold (by decide) ?_ (by rw [← hpending]; rfl) h
  simp only [statuses, claimedBoard, Board.modify, List.map_map]
  apply List.map_congr_left
  intro x _
  simp only [Function.comp_apply]
  split
  · next hid => rw [← hid]; rfl
  · rfl

/-! ## Every run -/

theorem faithful_empty : Faithful .empty := ⟨by simp [Board.empty], by simp [statuses, Board.empty]⟩

theorem faithful_apply (b : Board) (call : Call) (h : Faithful b) : Faithful (call.apply b) := by
  cases call with
  | submit task ts => exact faithful_submit b task ts h
  | update taskId fields reason ts => exact faithful_update b taskId fields reason ts h
  | transition taskId toStatus reason ts => exact faithful_update b taskId _ reason ts h
  | addBlockedBy taskId ids =>
    obtain ⟨hs, ht⟩ := addBlockedBy_frame b taskId ids
    exact faithful_same b _ hs ht h
  | addBlocks taskId ids =>
    obtain ⟨hs, ht⟩ := addBlocksLoop_frame taskId (ids.filter (· != "")) b
    exact faithful_same b _ hs ht h
  | claimOne workerId rh now ts => exact faithful_claim b workerId rh now ts h

theorem faithful_runCalls (calls : List Call) : Faithful (runCalls calls) := by
  rw [runCalls]
  generalize hb : Board.empty = b
  have h : Faithful b := hb ▸ faithful_empty
  clear hb
  induction calls generalizing b with
  | nil => exact h
  | cons call rest ih => exact ih (call.apply b) (faithful_apply b call h)

/-- Submitted, claimed, handed back, and claimed again. -/
def secondClaim : List Call :=
  [.submit (Task.new "a" 0) 1, .claimOne "w1" none 2 2, .transition "a" .pending (some "retry") 3,
    .claimOne "w2" none 4 4]

end Swarm.Kanban
