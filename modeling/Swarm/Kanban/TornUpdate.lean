import Swarm.Kanban.Update

/-!
# What an `update` that raises leaves on the board

Every statement commits by itself, so the call may raise after the UPDATE.
-/

namespace Swarm.Kanban

/-- A `reason` that SQLite takes, or what it raises when it is bound. -/
abbrev Reason := Except PyError (Option String)

/-- `update` with a `reason` of any type, which is bound after the UPDATE. -/
def updateWith (b : Board) (taskId : String) (fields : List Field) (reason : Reason) (ts : ℚ) :
    Except PyError (Option Task) × Board :=
  match b.select taskId with
  | none => (.ok none, b)
  | some existing =>
    match updateRow b taskId fields with
    | .error e => (.error e, b)
    | .ok b' =>
      match given Field.status? fields with
      | none => (get b' taskId, b')
      | some status =>
        if status = existing.status then (get b' taskId, b')
        else
          match reason >>= fun reason => b'.addTimeline ⟨taskId, some existing.status, status, reason, ts⟩ with
          | .error e => (.error e, b')
          | .ok b'' => (get b'' taskId, b'')

theorem updateWith_ok (b : Board) (taskId : String) (fields : List Field) (reason : Option String)
    (ts : ℚ) :
    updateWith b taskId fields (.ok reason) ts = update b taskId fields reason ts := rfl

/-- A call that raises leaves the board as it was. -/
def UnchangedOnError {α : Type} (b : Board) (out : Except PyError α × Board) : Prop :=
  (∃ e, out.1 = .error e) → out.2 = b

/-- The status is none of `TaskStatus`. -/
def Unknown (status : String) : Prop := ∀ s : TaskStatus, s.value ≠ status

/-- The keywords give the task another id. -/
def Renamed (taskId : String) (fields : List Field) : Prop :=
  ∃ newId, given Field.id? fields = some newId ∧ newId ≠ taskId

/-- SQLite takes the UPDATE: a task with a timeline keeps its id, and no other has it. -/
def Accepted (b : Board) (taskId : String) (fields : List Field) : Prop :=
  given Field.refused? fields = none ∧
    ∀ newId, given Field.id? fields = some newId → newId ≠ taskId →
      (∀ e ∈ b.timeline, e.taskId ≠ taskId) ∧ ∀ r ∈ b.tasks, r.id ≠ newId

/-- A new status needs a timeline row, which a renamed task and a bad `reason` refuse; the row that
the call returns must have a status that is known. -/
def TearsRow (taskId : String) (fields : List Field) (reason : Reason) (r : Row) : Prop :=
  let status := (given Field.status? fields).getD r.status
  status ≠ r.status ∧ (Renamed taskId fields ∨ (∃ e, reason = .error e) ∨ Unknown status) ∨
    status = r.status ∧ ¬ Renamed taskId fields ∧ Unknown status ∧ setAll fields r ≠ r

/-- The UPDATE goes through, and the call raises after it. -/
def TornUpdate (b : Board) (taskId : String) (fields : List Field) (reason : Reason) : Prop :=
  Accepted b taskId fields ∧ ∃ r, b.select taskId = some r ∧ TearsRow taskId fields reason r

section Update

variable {b : Board} {taskId : String} {fields : List Field} {r : Row}

theorem board_eq {b c : Board} (htasks : b.tasks = c.tasks)
    (htimeline : b.timeline = c.timeline) : b = c := by
  cases b
  cases c
  cases htasks
  cases htimeline
  rfl

theorem modify_same {id : String} {f : Row → Row} (hf : ∀ r, (f r).id = r.id)
    (hr : b.select id = some r) (hsame : f r = r) : b.modify id f hf = b := by
  obtain ⟨hmem, hid⟩ := select_mem b id r hr
  refine board_eq ?_ rfl
  refine (List.map_congr_left fun x hx => ?_).trans (List.map_id _)
  split
  · next hxid =>
    rw [row_unique b x r hx hmem (hxid.trans hid.symm)]
    exact hsame
  · rfl

theorem select_written (fields : List Field) (hr : b.select taskId = some r) :
    (written b taskId fields).select taskId = some (setAll fields r) :=
  select_modify_self b taskId (setAll fields) (setAll_id fields) r hr

theorem get_raises_iff (hr : b.select taskId = some r) :
    (∃ e, get b taskId = .error e) ↔ Unknown r.status := by
  unfold get
  rw [hr]
  dsimp only
  constructor
  · rintro ⟨e, he⟩ s hs
    rw [fromRow_of_status r s hs.symm] at he
    cases he
  · intro hunknown
    cases hrow : Task.fromRow r with
    | error e => exact ⟨e, rfl⟩
    | ok t => exact absurd (fromRow_ok r t hrow).1.symm (hunknown t.status)

theorem updateRow_written (haccepted : Accepted b taskId fields) (hsame : ¬ Renamed taskId fields) :
    updateRow b taskId fields = .ok (written b taskId fields) := by
  unfold updateRow
  rw [haccepted.1]
  dsimp only
  cases hid : given Field.id? fields with
  | none => rfl
  | some newId =>
    have heq : newId = taskId := by
      by_contra hne
      exact hsame ⟨newId, hid, hne⟩
    unfold rename
    dsimp only
    rw [if_pos heq]
    rfl

theorem renamed_ids (fields : List Field) {newId : String} (hr : b.select taskId = some r)
    (hne : newId ≠ taskId) :
    (((written b taskId fields).tasks.map fun r => if r.id =
      taskId then { r with id := newId } else r).map
        (·.id)).Nodup ↔ ∀ x ∈ b.tasks, x.id ≠ newId := by
  obtain ⟨hmem, hid⟩ := select_mem b taskId r hr
  let sub : String → String := fun i => if i = taskId then newId else i
  have hids : ((written b taskId fields).tasks.map fun r => if r.id = taskId then { r with id := newId } else r).map
      (·.id) = (b.tasks.map (·.id)).map sub := by
    simp only [written, Board.modify, List.map_map]
    apply List.map_congr_left
    intro x _
    simp only [Function.comp_apply, sub]
    by_cases hx : x.id = taskId
    · simp [hx, setAll_id]
    · simp [hx]
  rw [hids, List.nodup_map_iff_inj_on b.primaryKey]
  simp only [List.mem_map, forall_exists_index, and_imp, forall_apply_eq_imp_iff₂, sub]
  constructor
  · intro hinj x hx hxnew
    have heq := hinj x hx r hmem
    rw [hxnew, if_neg hne, hid, if_pos rfl] at heq
    exact hne (heq rfl)
  · intro hfree x hx y hy heq
    split at heq
    · next hxid =>
      split at heq
      · next hyid => rw [hxid, hyid]
      · exact absurd heq.symm (hfree y hy)
    · split at heq
      · exact absurd heq (hfree x hx)
      · exact heq

theorem rename_ok_iff (fields : List Field) {newId : String} (hr : b.select taskId = some r)
    (hne : newId ≠ taskId) :
    (∃ b', rename (written b taskId fields) taskId newId = .ok b') ↔
      (∀ e ∈ b.timeline, e.taskId ≠ taskId) ∧ ∀ x ∈ b.tasks, x.id ≠ newId := by
  have htimeline : (written b taskId fields).timeline.any (·.taskId == taskId) = false ↔
      ∀ e ∈ b.timeline, e.taskId ≠ taskId := by
    simp [written, Board.modify]
  unfold rename
  rw [if_neg hne, ← htimeline, ← renamed_ids fields hr hne]
  dsimp only
  split
  · next hkeys =>
    split
    · next hany => simp [hany]
    · next hany => exact iff_of_true ⟨_, rfl⟩ ⟨Bool.not_eq_true _ ▸ hany, hkeys⟩
  · next hkeys => exact iff_of_false (by rintro ⟨b', hb'⟩; cases hb') fun hboth => hkeys hboth.2

theorem rename_leaves {newId : String} (hne : newId ≠ taskId) {c b' : Board}
    (h : rename c taskId newId = .ok b') :
    b'.select taskId = none := by
  unfold rename at h
  rw [if_neg hne] at h
  dsimp only at h
  split at h
  · split at h
    · cases h
    · cases h
      apply List.find?_eq_none.mpr
      intro x hx
      obtain ⟨y, -, rfl⟩ := List.mem_map.mp hx
      split
      · simpa using hne
      · next hy => simpa using hy
  · cases h

theorem updateRow_renamed (hr : b.select taskId = some r) (haccepted : Accepted b taskId fields)
    (hrenamed : Renamed taskId fields) :
    ∃ b', updateRow b taskId fields = .ok b' ∧ b'.select taskId = none := by
  obtain ⟨newId, hid, hne⟩ := hrenamed
  obtain ⟨b', hb'⟩ := (rename_ok_iff fields hr hne).mpr (haccepted.2 newId hid hne)
  refine ⟨b', ?_, rename_leaves hne hb'⟩
  unfold updateRow
  rw [haccepted.1]
  dsimp only
  rw [hid]
  exact hb'

theorem updateRow_refused (hr : b.select taskId = some r) (hrefused : ¬ Accepted b taskId fields) :
    ∃ e, updateRow b taskId fields = .error e := by
  cases hrow : updateRow b taskId fields with
  | error e => exact ⟨e, rfl⟩
  | ok b' =>
    exfalso
    unfold updateRow at hrow
    cases hgiven : given Field.refused? fields with
    | some e => simp [hgiven] at hrow
    | none =>
      refine hrefused ⟨hgiven, fun newId hid hne => (rename_ok_iff fields hr hne).mp ⟨b', ?_⟩⟩
      rw [hgiven] at hrow
      dsimp only at hrow
      rw [hid] at hrow
      exact hrow

/-! ### The call -/

variable {reason : Reason} {ts : ℚ}

variable (reason ts) in
theorem updateWith_refused (hr : b.select taskId = some r) (hrefused : ¬ Accepted b taskId fields) :
    ∃ e, updateWith b taskId fields reason ts = (.error e, b) := by
  obtain ⟨e, hrow⟩ := updateRow_refused hr hrefused
  refine ⟨e, ?_⟩
  unfold updateWith
  rw [hr]
  dsimp only
  rw [hrow]

theorem updateWith_same {b' : Board} (hr : b.select taskId = some r)
    (hrow : updateRow b taskId fields = .ok b')
    (hstatus : (given Field.status? fields).getD r.status = r.status) :
    updateWith b taskId fields reason ts = (get b' taskId, b') := by
  -- No status is written: the call returns the row.
  unfold updateWith
  rw [hr]
  dsimp only
  rw [hrow]
  dsimp only
  cases hgiven : given Field.status? fields with
  | none => rfl
  | some status =>
    rw [hgiven] at hstatus
    exact if_pos hstatus

/-- What the timeline makes of a new status. -/
def filed (b' : Board) (taskId : String) (old new : String) (reason : Reason) (ts : ℚ) :
    Except PyError Board :=
  reason >>= fun reason => b'.addTimeline ⟨taskId, some old, new, reason, ts⟩

theorem filed_missing {b' : Board} (h : b'.select taskId = none) (old new : String)
    (reason : Reason) (ts : ℚ) :
    ∃ e, filed b' taskId old new reason ts = .error e := by
  have hany : b'.tasks.any (·.id == taskId) = false := by
    simpa [Board.select] using h
  unfold filed Board.addTimeline
  cases reason with
  | error e => exact ⟨e, rfl⟩
  | ok reason => exact ⟨_, if_neg (by simp [hany])⟩

theorem filed_on_board {c : Board} (h : c.select taskId = some r) (old new : String)
    (reason : Option String) (ts : ℚ) : ∃ b'', filed c taskId old new (.ok reason) ts = .ok b'' ∧
      b''.select taskId = some r := by
  obtain ⟨hmem, rfl⟩ := select_mem c taskId r h
  exact ⟨_, if_pos (any_id_of_mem c r hmem), h⟩

section Status

variable {b' : Board} {status : String} (hr : b.select taskId = some r)
  (hrow : updateRow b taskId fields = .ok b') (hstatus : given Field.status? fields = some status)
  (hne : status ≠ r.status)
include hr hrow hstatus hne

theorem updateWith_unfiled {e : PyError}
    (h : filed b' taskId r.status status reason ts = .error e) :
    updateWith b taskId fields reason ts = (.error e, b') := by
  unfold updateWith
  unfold filed at h
  rw [hr]
  dsimp only
  rw [hrow]
  dsimp only
  rw [hstatus]
  dsimp only
  rw [if_neg hne, h]

theorem updateWith_filed {b'' : Board} (h : filed b' taskId r.status status reason ts = .ok b'') :
    updateWith b taskId fields reason ts = (get b'' taskId, b'') := by
  unfold updateWith
  unfold filed at h
  rw [hr]
  dsimp only
  rw [hrow]
  dsimp only
  rw [hstatus]
  dsimp only
  rw [if_neg hne, h]

end Status

variable (reason ts) in
theorem update_same_iff (hr : b.select taskId = some r) (haccepted : Accepted b taskId fields)
    (hstatus : (given Field.status? fields).getD r.status = r.status) :
    UnchangedOnError b (updateWith b taskId fields reason ts) ↔
      ¬ TearsRow taskId fields reason r := by
  have htears : TearsRow taskId fields reason r ↔
      ¬ Renamed taskId fields ∧ Unknown r.status ∧ setAll fields r ≠ r := by
    simp [TearsRow, hstatus]
  rw [htears]
  by_cases hrenamed : Renamed taskId fields
  · obtain ⟨b', hrow, hnone⟩ := updateRow_renamed hr haccepted hrenamed
    have hget : get b' taskId = .ok none := by simp [get, hnone]
    rw [updateWith_same hr hrow hstatus, hget]
    refine iff_of_true ?_ fun h => h.1 hrenamed
    rintro ⟨e, he⟩
    cases he
  · have hselect := select_written fields hr
    have hraises := get_raises_iff hselect
    rw [setAll_status, hstatus] at hraises
    have hkept : written b taskId fields = b ↔ setAll fields r = r := by
      refine ⟨fun h => ?_, modify_same (setAll_id fields) hr⟩
      rw [h, hr] at hselect
      exact (Option.some.inj hselect).symm
    rw [updateWith_same hr (updateRow_written haccepted hrenamed) hstatus]
    unfold UnchangedOnError
    rw [hraises, hkept]
    tauto

theorem restatused_ne {c : Board} {status : String} (hr : b.select taskId = some r)
    (hgiven : given Field.status? fields = some status) (hne : status ≠ r.status)
    (hc : c.select taskId = some (setAll fields r)) : c ≠ b := by
  rintro rfl
  rw [hr] at hc
  have hsame : r = setAll fields r := Option.some.inj hc
  apply hne
  rw [hsame, setAll_status, hgiven, Option.getD_some]

variable (reason ts) in
theorem renamed_torn {status : String} (hr : b.select taskId = some r)
    (haccepted : Accepted b taskId fields) (hrenamed : Renamed taskId fields)
    (hgiven : given Field.status? fields = some status) (hne : status ≠ r.status) :
    ¬ UnchangedOnError b (updateWith b taskId fields reason ts) := by
  -- The timeline refuses an entry for the id that is gone, and the new one is on the board.
  obtain ⟨b', hrow, hnone⟩ := updateRow_renamed hr haccepted hrenamed
  obtain ⟨e, hfiled⟩ := filed_missing hnone r.status status reason ts
  rw [updateWith_unfiled hr hrow hgiven hne hfiled]
  intro h
  have hsame : b' = b := h ⟨e, rfl⟩
  rw [hsame, hr] at hnone
  cases hnone

variable (reason ts) in
theorem update_status_iff (hr : b.select taskId = some r) (haccepted : Accepted b taskId fields)
    (hstatus : (given Field.status? fields).getD r.status ≠ r.status) :
    UnchangedOnError b (updateWith b taskId fields reason ts) ↔
      ¬ TearsRow taskId fields reason r := by
  obtain ⟨status, hgiven⟩ : ∃ status, given Field.status? fields = some status := by
    rw [← Option.isSome_iff_exists, ← Option.ne_none_iff_isSome]
    intro hnone
    rw [hnone] at hstatus
    exact hstatus rfl
  rw [hgiven] at hstatus
  have hne : status ≠ r.status := hstatus
  have htears : TearsRow taskId fields reason r ↔
      Renamed taskId fields ∨ (∃ e, reason = .error e) ∨ Unknown status := by
    simp [TearsRow, hgiven, hne]
  rw [htears]
  -- After a rename the timeline row names no task, so it is refused.
  by_cases hrenamed : Renamed taskId fields
  · exact iff_of_false (renamed_torn reason ts hr haccepted hrenamed hgiven hne) fun h => h (.inl hrenamed)
  · have hrow := updateRow_written haccepted hrenamed
    have hselect := select_written fields hr
    cases reason with
    | error e =>
      rw [updateWith_unfiled hr hrow hgiven hne (show filed _ _ _ _ (.error e) ts = .error e from rfl)]
      refine iff_of_false (fun h => ?_) fun h => h (.inr (.inl ⟨e, rfl⟩))
      exact restatused_ne hr hgiven hne hselect (h ⟨e, rfl⟩)
    | ok reason =>
      obtain ⟨b'', hfiled, hselect'⟩ := filed_on_board hselect r.status status reason ts
      have hraises := get_raises_iff hselect'
      rw [setAll_status, hgiven, Option.getD_some] at hraises
      rw [updateWith_filed hr hrow hgiven hne hfiled]
      unfold UnchangedOnError
      -- Row and timeline are written, and the answer raises just for a status of no name.
      rw [hraises]
      constructor
      · rintro h (hren | ⟨e, he⟩ | hunknown)
        · exact hrenamed hren
        · cases he
        · exact restatused_ne hr hgiven hne hselect' (h hunknown)
      · intro h hunknown
        exact absurd (.inr (.inr hunknown)) h

/-- **What an update that raises leaves.** -/
theorem update_atomic_iff :
    UnchangedOnError b (updateWith b taskId fields reason ts) ↔
      ¬ TornUpdate b taskId fields reason := by
  cases hr : b.select taskId with
  | none =>
    refine iff_of_true (fun _ => by simp [updateWith, hr]) ?_
    rintro ⟨-, r, hrow, -⟩
    rw [hr] at hrow
    cases hrow
  | some r =>
    have htorn : TornUpdate b taskId fields reason ↔ Accepted b taskId fields ∧ TearsRow taskId fields reason r := by
      simp [TornUpdate, hr]
    rw [htorn]
    by_cases haccepted : Accepted b taskId fields
    · rw [and_iff_right haccepted]
      by_cases hstatus : (given Field.status? fields).getD r.status = r.status
      · exact update_same_iff reason ts hr haccepted hstatus
      · exact update_status_iff reason ts hr haccepted hstatus
    · obtain ⟨e, hcall⟩ := updateWith_refused reason ts hr haccepted
      exact iff_of_true (fun _ => by rw [hcall]) fun h => haccepted h.1

end Update

end Swarm.Kanban
