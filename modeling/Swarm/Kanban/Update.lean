import Mathlib.Data.List.Induction
import Swarm.Kanban.Claim

/-! # What `submit`, `update` and the claim leave on the board -/

namespace Swarm.Kanban

/-! ## Submit -/

theorem insert_new (b : Board) (task : Task) (hnew : ∀ r ∈ b.tasks, r.id ≠ task.id) :
    ∃ b', b.insert task.toRow = .ok b' ∧ b'.tasks = b.tasks ++ [task.toRow] ∧
      b'.timeline = b.timeline := by
  have hkeys : ((b.tasks ++ [task.toRow]).map (·.id)).Nodup := by
    rw [List.map_append, List.nodup_append]
    refine ⟨b.primaryKey, by simp, fun i hi j hj => ?_⟩
    obtain ⟨r, hr, rfl⟩ := List.mem_map.mp hi
    obtain rfl : j = task.id := by simpa [Task.toRow] using hj
    exact hnew r hr
  rw [Board.insert, dif_pos hkeys]
  exact ⟨_, rfl, rfl, rfl⟩

theorem insert_old (b : Board) (task : Task) (hold : ¬ ∀ r ∈ b.tasks, r.id ≠ task.id) :
    ∃ e, b.insert task.toRow = .error e := by
  have hkeys : ¬ ((b.tasks ++ [task.toRow]).map (·.id)).Nodup := by
    intro hkeys
    rw [List.map_append, List.nodup_append] at hkeys
    exact hold fun r hr =>
      hkeys.2.2 r.id (List.mem_map_of_mem hr) task.id (by simp [Task.toRow])
  rw [Board.insert, dif_neg hkeys]
  exact ⟨_, rfl⟩

theorem submit_filed (b : Board) (task : Task) (ts : ℚ) (hnew : ∀ r ∈ b.tasks, r.id ≠ task.id) :
    ∃ b', submit b task ts = (.ok task, b') ∧ b'.tasks = b.tasks ++ [task.toRow] ∧
      b'.timeline = b.timeline ++ [⟨task.id, none, task.status.value, some "submit", ts⟩] := by
  obtain ⟨b', hinsert, htasks, htimeline⟩ := insert_new b task hnew
  have hany : b'.tasks.any (·.id == task.id) = true := by simp [htasks, Task.toRow]
  simp only [submit, hinsert, Board.addTimeline, hany, if_true]
  exact ⟨_, rfl, htasks, by rw [htimeline]⟩

theorem submit_refused (b : Board) (task : Task) (ts : ℚ) (hold : ¬ ∀ r ∈ b.tasks, r.id ≠ task.id) :
    ∃ e, submit b task ts = (.error e, b) := by
  obtain ⟨e, hinsert⟩ := insert_old b task hold
  exact ⟨e, by simp only [submit, hinsert]⟩

theorem submit_fresh (b : Board) (task : Task) (ts : ℚ) (hnew : ∀ r ∈ b.tasks, r.id ≠ task.id) :
    (submit b task ts).2.tasks = b.tasks ++ [task.toRow] ∧
      (submit b task ts).2.timeline =
        b.timeline ++ [⟨task.id, none, task.status.value, some "submit", ts⟩] := by
  obtain ⟨b', hsubmit, hrows⟩ := submit_filed b task ts hnew
  rw [hsubmit]
  exact hrows

/-- A submit is refused, or adds one task with one timeline row. -/
theorem submit_cases (b : Board) (task : Task) (ts : ℚ) :
    (submit b task ts).2 = b ∨
      (∀ r ∈ b.tasks, r.id ≠ task.id) ∧ (submit b task ts).2.tasks = b.tasks ++ [task.toRow] ∧
        (submit b task ts).2.timeline =
          b.timeline ++ [⟨task.id, none, task.status.value, some "submit", ts⟩] := by
  by_cases hnew : ∀ r ∈ b.tasks, r.id ≠ task.id
  · exact Or.inr ⟨hnew, submit_fresh b task ts hnew⟩
  · obtain ⟨e, hsubmit⟩ := submit_refused b task ts hnew
    exact Or.inl (by rw [hsubmit])

/-! ## Setting columns -/

theorem given_snoc {α : Type} (column : Field → Option α) (fields : List Field) (f : Field) :
    given column (fields ++ [f]) = (column f).or (given column fields) := by
  simp [given, List.findSome?_cons]
  cases column f <;> rfl

theorem setAll_snoc (fields : List Field) (f : Field) (r : Row) :
    setAll (fields ++ [f]) r = Field.set (setAll fields r) f := by
  simp [setAll]

theorem setAll_column {α : Type} (col : Row → α) (column : Field → Option α)
    (hset : ∀ r f, col (Field.set r f) = (column f).getD (col r)) (fields : List Field) (r : Row) :
    col (setAll fields r) = (given column fields).getD (col r) := by
  induction fields using List.reverseRecOn with
  | nil => rfl
  | append_singleton fields f ih =>
    rw [setAll_snoc, hset, given_snoc, ih]
    cases column f <;> rfl

theorem setAll_status (fields : List Field) (r : Row) :
    (setAll fields r).status = (given Field.status? fields).getD r.status :=
  setAll_column (·.status) Field.status? (fun r f => by cases f <;> rfl) fields r

/-! ## Update -/

variable (b : Board) (taskId : String) (fields : List Field) (reason : Option String) (ts : ℚ)

/-- The UPDATE of `update`, for keywords that SQLite takes and that leave the id alone. -/
def written : Board := b.modify taskId (setAll fields) (setAll_id fields)

def updated (r : Row) (s : String) : Board :=
  { written b taskId fields with
    timeline := b.timeline ++
      if s = r.status then [] else [⟨taskId, some r.status, s, reason, ts⟩] }

theorem get_of_select (id : String) (r : Row) (s : TaskStatus) (hr : b.select id = some r)
    (hs : r.status = s.value) : get b id = .ok (some (r.toTask s)) := by
  simp only [get, hr, fromRow_of_status r s hs]
  rfl

theorem update_spec (r : Row) (s : TaskStatus) (hr : b.select taskId = some r)
    (hrefused : given Field.refused? fields = none) (hid : given Field.id? fields = none)
    (hs : given Field.status? fields = some s.value) :
    update b taskId fields reason ts =
      (.ok (some ((setAll fields r).toTask s)), updated b taskId fields reason ts r s.value) := by
  obtain ⟨hmem, rfl⟩ := select_mem b taskId r hr
  have hstatus : (setAll fields r).status = s.value := by rw [setAll_status, hs]; rfl
  have hsel : (written b r.id fields).select r.id = some (setAll fields r) :=
    select_modify_self b r.id _ _ r hr
  have hrow : updateRow b r.id fields = .ok (written b r.id fields) := by
    simp only [updateRow, hrefused, hid]
    rfl
  simp only [update, hr, hrow, hs]
  by_cases heq : s.value = r.status
  · rw [if_pos heq, get_of_select _ _ _ s hsel hstatus]
    simp [updated, heq, written, Board.modify]
  · have hadd : (written b r.id fields).addTimeline ⟨r.id, some r.status, s.value, reason, ts⟩ =
        .ok (updated b r.id fields reason ts r s.value) := by
      have hany : (written b r.id fields).tasks.any (·.id == r.id) = true :=
        (modify_ids b r.id _ _ r.id).trans (any_id_of_mem b r hmem)
      simp only [Board.addTimeline, hany, if_true, updated, if_neg heq]
      rfl
    have hget : get (updated b r.id fields reason ts r s.value) r.id =
        .ok (some ((setAll fields r).toTask s)) :=
      get_of_select (updated b r.id fields reason ts r s.value) r.id _ s hsel hstatus
    rw [if_neg heq, hadd]
    simp only [hget]

/-! ## Moving one task -/

/-- What the scheduler reads of a row, the status apart. -/
structure Kept where
  id : String
  requiredHead : String
  priority : Int
  createdAt : ℚ
  blockedBy : Option Text

def kept (r : Row) : Kept := ⟨r.id, r.requiredHead, r.priority, r.createdAt, r.blockedBy⟩

/-- `b'` is `b` with task `id` moved to `status`. -/
def Moves (b b' : Board) (id status : String) : Prop :=
  ∃ f : Row → Row, (∀ r, kept (f r) = kept r) ∧ (∀ r, (f r).status = status) ∧
    b'.tasks = b.tasks.map fun r => if r.id = id then f r else r

def scheduled (r : Row) : Kept × String := (kept r, r.status)

theorem kept_id {r r' : Row} (h : kept r' = kept r) : r'.id = r.id := congrArg Kept.id h

theorem kept_blockedBy {r r' : Row} (h : kept r' = kept r) : r'.blockedBy = r.blockedBy :=
  congrArg Kept.blockedBy h

theorem update_moves (r : Row) (s : TaskStatus) (hr : b.select taskId = some r)
    (hrefused : given Field.refused? fields = none) (hid : given Field.id? fields = none)
    (hs : given Field.status? fields = some s.value)
    (hkept : ∀ x, kept (setAll fields x) = kept x) :
    ∃ task b', update b taskId fields reason ts = (.ok (some task), b') ∧
      Moves b b' taskId s.value := by
  refine ⟨_, _, update_spec b taskId fields reason ts r s hr hrefused hid hs,
    setAll fields, hkept, fun x => ?_, rfl⟩
  rw [setAll_status, hs]
  rfl

theorem claimedBoard_moves (workerId : String) (now : ℚ) (r : Row) :
    Moves b (claimedBoard b workerId now ts r) r.id "in_progress" :=
  ⟨claimRow workerId now, fun _ => rfl, fun _ => rfl, rfl⟩

section Moves

variable {b} {b' : Board} {id status : String}

theorem Moves.ids (h : Moves b b' id status) : b'.tasks.map (·.id) = b.tasks.map (·.id) := by
  obtain ⟨f, hkept, -, htasks⟩ := h
  rw [htasks, List.map_map]
  apply List.map_congr_left
  intro r _
  exact modifyRow_id id f (fun x => kept_id (hkept x)) r

theorem Moves.row (h : Moves b b' id status) (r : Row) (hr : r ∈ b'.tasks) :
    (r.id = id ∧ r.status = status ∧ ∃ x ∈ b.tasks, kept r = kept x) ∨
      r.id ≠ id ∧ r ∈ b.tasks := by
  obtain ⟨f, hkept, hstatus, htasks⟩ := h
  rw [htasks] at hr
  obtain ⟨x, hx, rfl⟩ := List.mem_map.mp hr
  split
  · next heq => exact Or.inl ⟨(kept_id (hkept x)).trans heq, hstatus x, x, hx, hkept x⟩
  · next hne => exact Or.inr ⟨hne, hx⟩

theorem Moves.mem_of_ne (h : Moves b b' id status) (r : Row) (hr : r ∈ b.tasks)
    (hne : r.id ≠ id) : r ∈ b'.tasks := by
  obtain ⟨f, -, -, htasks⟩ := h
  rw [htasks]
  exact List.mem_map.mpr ⟨r, hr, if_neg hne⟩

theorem Moves.moved (h : Moves b b' id status) (r : Row) (hr : r ∈ b.tasks) (hid : r.id = id) :
    ∃ x ∈ b'.tasks, x.id = id ∧ x.status = status := by
  obtain ⟨f, hkept, hstatus, htasks⟩ := h
  rw [htasks]
  exact ⟨f r, List.mem_map.mpr ⟨r, hr, if_pos hid⟩, (kept_id (hkept r)).trans hid, hstatus r⟩

theorem Moves.mem_id (h : Moves b b' id status) (i : String) (hi : ∃ d ∈ b.tasks, d.id = i) :
    ∃ d ∈ b'.tasks, d.id = i := by
  have hmem : i ∈ b.tasks.map (·.id) := by simpa using hi
  rw [← h.ids] at hmem
  simpa using hmem

theorem Moves.trans {b'' : Board} {status' : String} (h : Moves b b' id status)
    (h' : Moves b' b'' id status') : Moves b b'' id status' := by
  obtain ⟨f, hf, -, htasks⟩ := h
  obtain ⟨g, hg, hstatus, htasks'⟩ := h'
  refine ⟨g ∘ f, fun r => (hg (f r)).trans (hf r), fun r => hstatus (f r), ?_⟩
  rw [htasks', htasks, List.map_map]
  apply List.map_congr_left
  intro r _
  simp only [Function.comp_apply]
  by_cases hid : r.id = id
  · rw [if_pos hid, if_pos ((kept_id (hf r)).trans hid), if_pos hid]
  · rw [if_neg hid, if_neg hid, if_neg hid]

theorem Moves.same (h : Moves b b' id status) (r : Row) (hr : r ∈ b.tasks) (hid : r.id = id)
    (hstatus : r.status = status) : b'.tasks.map scheduled = b.tasks.map scheduled := by
  obtain ⟨f, hkept, hmoved, htasks⟩ := h
  rw [htasks, List.map_map]
  apply List.map_congr_left
  intro x hx
  simp only [Function.comp_apply]
  split
  · next hxid =>
    rw [row_unique b x r hx hr (hxid.trans hid.symm), scheduled, hkept, hmoved, hstatus.symm]
    rfl
  · rfl

end Moves

/-! ## What the order of the ready rows depends on -/

section Scheduled

variable {b} {b' : Board} (h : b'.tasks.map scheduled = b.tasks.map scheduled)
include h

theorem isDone_scheduled (id : String) : b'.isDone id = b.isDone id := by
  have hread : ∀ c : Board, c.isDone id =
      ((c.tasks.map scheduled).find? (·.1.id == id)).any (·.2 == "done") := by
    intro c
    rw [List.find?_map, Option.any_map]
    rfl
  rw [hread, hread, h]

theorem pendingRows_scheduled : (pendingRows b').map kept = (pendingRows b).map kept := by
  let le : Kept → Kept → Prop := fun k l =>
    k.priority < l.priority ∨ k.priority = l.priority ∧ k.createdAt ≤ l.createdAt
  have : DecidableRel le := fun k l => by unfold le; infer_instance
  have hread : ∀ c : Board, (pendingRows c).map kept =
      (((c.tasks.map scheduled).filter (·.2 == "pending")).map (·.1)).insertionSort le := by
    intro c
    rw [pendingRows, orderBy, List.map_insertionSort rowLe le kept _ fun _ _ _ _ => Iff.rfl,
      List.filter_map, List.map_map]
    rfl
  rw [hread, hread, h]

theorem readyRows_scheduled (requiredHead : Option String) :
    (readyRows b' requiredHead).map kept = (readyRows b requiredHead).map kept := by
  let isReady : Kept → Bool := fun k =>
    requiredHead.all (· == k.requiredHead) && ((idsOf k.blockedBy).getD []).all b.isDone
  have hread : ∀ c : Board, (∀ id, c.isDone id = b.isDone id) →
      (readyRows c requiredHead).map kept = ((pendingRows c).map kept).filter isReady := by
    intro c hc
    rw [readyRows, List.filter_map]
    congr 2
    funext r
    simp only [Function.comp_apply, isReady, wants, unblockedRow, blockersOf, kept, funext hc]
  rw [hread b' (isDone_scheduled h), hread b fun _ => rfl, pendingRows_scheduled h]

end Scheduled

theorem update_cases :
    (update b taskId fields reason ts).2 = b ∨
    ∃ r b', b.select taskId = some r ∧ updateRow b taskId fields = .ok b' ∧
      ((given Field.status? fields).getD r.status = r.status ∧
          (update b taskId fields reason ts).2 = b' ∨
        ∃ s, given Field.status? fields = some s ∧ s ≠ r.status ∧
          ((update b taskId fields reason ts).2 = b' ∧ b'.tasks.any (·.id == taskId) = false ∨
            (update b taskId fields reason ts).2 =
              { b' with timeline := b'.timeline ++ [⟨taskId, some r.status, s, reason,
                ts⟩] })) := by
  simp only [update]
  cases hr : b.select taskId with
  | none => exact Or.inl rfl
  | some r =>
    cases hrow : updateRow b taskId fields with
    | error e => exact Or.inl rfl
    | ok b' =>
      refine Or.inr ⟨r, b', rfl, rfl, ?_⟩
      cases hs : given Field.status? fields with
      | none => exact Or.inl ⟨rfl, rfl⟩
      | some s =>
        by_cases heq : s = r.status
        · exact Or.inl ⟨heq, by simp [heq]⟩
        · refine Or.inr ⟨s, rfl, heq, ?_⟩
          simp only [if_neg heq, Board.addTimeline]
          cases hany : b'.tasks.any (·.id == taskId) with
          | true => exact Or.inr (by simp)
          | false => exact Or.inl ⟨by simp, rfl⟩

end Swarm.Kanban
