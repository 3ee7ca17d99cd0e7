import Swarm.Kanban.Edges
import Swarm.Kanban.Update

/-! # What `get` gives back of what `submit` and `update` were given -/

namespace Swarm.Kanban

/-! ## Values of the declared types -/

/-- The columns stored as JSON hold what the dataclass declares. -/
structure WellTyped (t : Task) : Prop where
  blockedBy : ∃ ids, t.blockedBy = .ofStrs ids
  blocks : ∃ ids, t.blocks = .ofStrs ids
  filesOwned : ∃ paths, t.filesOwned = .ofStrs paths
  tags : ∃ tags, t.tags = .ofStrs tags
  metadata : ∃ entries, t.metadata = .obj entries

/-- One keyword of `update` with a value of the type that the task declares for it. -/
inductive Patch
  | type (v : String)
  | title (v : String)
  | prompt (v : String)
  | priority (v : Int)
  | role (v : String)
  | requiredHead (v : String)
  | maxTurns (v : Int)
  | maxTokens (v : Int)
  | status (v : TaskStatus)
  | createdAt (v : ℚ)
  | startedAt (v : Option ℚ)
  | completedAt (v : Option ℚ)
  | parentTaskId (v : Option String)
  | workerId (v : Option String)
  | costUsd (v : ℚ)
  | result (v : Option String)
  | error (v : Option String)
  | worktreePath (v : Option String)
  | prPath (v : Option String)
  | blockedBy (v : List String)
  | blocks (v : List String)
  | delegationDepth (v : Int)
  | filesOwned (v : List String)
  | tags (v : List String)
  | metadata (v : List (String × Json))

namespace Patch

def field : Patch → Field
  | .type v => .type v
  | .title v => .title v
  | .prompt v => .prompt v
  | .priority v => .priority v
  | .role v => .role v
  | .requiredHead v => .requiredHead v
  | .maxTurns v => .maxTurns v
  | .maxTokens v => .maxTokens v
  | .status v => .status v.value
  | .createdAt v => .createdAt v
  | .startedAt v => .startedAt v
  | .completedAt v => .completedAt v
  | .parentTaskId v => .parentTaskId v
  | .workerId v => .workerId v
  | .costUsd v => .costUsd v
  | .result v => .result v
  | .error v => .error v
  | .worktreePath v => .worktreePath v
  | .prPath v => .prPath v
  | .blockedBy v => .blockedBy (.value (.ofStrs v))
  | .blocks v => .blocks (.value (.ofStrs v))
  | .delegationDepth v => .delegationDepth v
  | .filesOwned v => .filesOwned (.value (.ofStrs v))
  | .tags v => .tags (.value (.ofStrs v))
  | .metadata v => .metadata (.value (.obj v))

/-- The task with that field replaced. -/
def put (t : Task) : Patch → Task
  | .type v => { t with type := v }
  | .title v => { t with title := v }
  | .prompt v => { t with prompt := v }
  | .priority v => { t with priority := v }
  | .role v => { t with role := v }
  | .requiredHead v => { t with requiredHead := v }
  | .maxTurns v => { t with maxTurns := v }
  | .maxTokens v => { t with maxTokens := v }
  | .status v => { t with status := v }
  | .createdAt v => { t with createdAt := v }
  | .startedAt v => { t with startedAt := v }
  | .completedAt v => { t with completedAt := v }
  | .parentTaskId v => { t with parentTaskId := v }
  | .workerId v => { t with workerId := v }
  | .costUsd v => { t with costUsd := v }
  | .result v => { t with result := v }
  | .error v => { t with error := v }
  | .worktreePath v => { t with worktreePath := v }
  | .prPath v => { t with prPath := v }
  | .blockedBy v => { t with blockedBy := .ofStrs v }
  | .blocks v => { t with blocks := .ofStrs v }
  | .delegationDepth v => { t with delegationDepth := v }
  | .filesOwned v => { t with filesOwned := .ofStrs v }
  | .tags v => { t with tags := .ofStrs v }
  | .metadata v => { t with metadata := .obj v }

end Patch

/-- The later value of a field wins. -/
def putAll (t : Task) (patches : List Patch) : Task := patches.foldl Patch.put t

/-! ## Rows and tasks -/

theorem decode_dumps_strs (ids : List String) :
    decode (.arr []) (dumps (.ofStrs ids)) = .ofStrs ids :=
  decode_of_ids _ ids (idsOf_dumps ids)

theorem decode_dumps_obj (entries : List (String × Json)) :
    decode (.obj []) (dumps (.obj entries)) = .obj entries := by
  cases entries with
  | nil => rfl
  | cons e rest => simp [dumps, Json.truthy, decode, Text.truthy, Text.loads]

theorem fromRow_toRow {t : Task} (h : WellTyped t) : Task.fromRow t.toRow = .ok t := by
  obtain ⟨⟨bids, hby⟩, ⟨kids, hblocks⟩, ⟨paths, hfiles⟩, ⟨tags, htags⟩, entries, hmeta⟩ := h
  rw [fromRow_of_status t.toRow t.status rfl]
  unfold Row.toTask Task.toRow
  simp only [hby, hblocks, hfiles, htags, hmeta, decode_dumps_strs, decode_dumps_obj]
  rw [← hby, ← hblocks, ← hfiles, ← htags, ← hmeta]

theorem fromRow_set {r : Row} {t : Task} (h : Task.fromRow r = .ok t) (p : Patch) :
    Task.fromRow (Field.set r p.field) = .ok (p.put t) := by
  obtain ⟨hstatus, ht⟩ := fromRow_ok r t h
  have hput : (Field.set r p.field).status = (p.put t).status.value := by
    cases p <;> first | exact hstatus | rfl
  rw [fromRow_of_status _ _ hput, ht]
  cases p <;> simp only [Patch.put, Patch.field, Field.set, Row.toTask, JsonArg.column,
    decode_dumps_strs, decode_dumps_obj]

theorem fromRow_setAll {r : Row} {t : Task} (h : Task.fromRow r = .ok t) (patches : List Patch) :
    Task.fromRow (setAll (patches.map Patch.field) r) = .ok (putAll t patches) := by
  induction patches generalizing r t with
  | nil => exact h
  | cons p rest ih => exact ih (fromRow_set h p)

/-! ## One update -/

theorem given_patches {α : Type} (column : Field → Option α)
    (h : ∀ p : Patch, column p.field = none) (patches : List Patch) :
    given column (patches.map Patch.field) = none := by
  unfold given
  rw [List.findSome?_eq_none_iff]
  intro f hf
  obtain ⟨p, -, rfl⟩ := List.mem_map.mp (List.mem_reverse.mp hf)
  exact h p

theorem updateRow_patches (b : Board) (taskId : String) (patches : List Patch) :
    updateRow b taskId (patches.map Patch.field) =
      .ok (written b taskId (patches.map Patch.field)) := by
  have hrefused := given_patches Field.refused? (fun p => by cases p <;> rfl) patches
  have hid := given_patches Field.id? (fun p => by cases p <;> rfl) patches
  simp only [updateRow, hrefused, hid]
  rfl

theorem update_patches (b : Board) (taskId : String) (patches : List Patch) (reason : Option String)
    (ts : ℚ) {r : Row} (hr : b.select taskId = some r) :
    (update b taskId (patches.map Patch.field) reason ts).2.tasks =
      (written b taskId (patches.map Patch.field)).tasks := by
  have hany : (written b taskId (patches.map Patch.field)).tasks.any (·.id == taskId) = true := by
    obtain ⟨hmem, rfl⟩ := select_mem b taskId r hr
    exact (modify_ids b r.id _ _ r.id).trans (any_id_of_mem b r hmem)
  simp only [update, hr, updateRow_patches]
  split
  · rfl
  · split
    · rfl
    · simp only [Board.addTimeline, hany, if_true]

theorem update_absent (b : Board) (taskId : String) (fields : List Field) (reason : Option String)
    (ts : ℚ) (hr : b.select taskId = none) : update b taskId fields reason ts = (.ok none, b) := by
  simp only [update, hr]

/-! ## Any updates -/

/-- One call of `update`. -/
structure Edit where
  taskId : String
  patches : List Patch
  reason : Option String
  ts : ℚ

/-- An update, whatever it returns. -/
def Edit.run (b : Board) (e : Edit) : Board :=
  (update b e.taskId (e.patches.map Patch.field) e.reason e.ts).2

def runEdits (b : Board) (edits : List Edit) : Board := edits.foldl Edit.run b

/-- The fields that the calls give for one task. -/
def patchesFor (id : String) (edits : List Edit) : List Patch :=
  (edits.filter (·.taskId == id)).flatMap Edit.patches

theorem select_run (b : Board) (e : Edit) (id : String) :
    (e.run b).select id =
      (b.select id).map fun r => if id =
        e.taskId then setAll (e.patches.map Patch.field) r else r := by
  unfold Edit.run
  cases hr : b.select e.taskId with
  | none =>
    rw [update_absent _ _ _ _ _ hr]
    by_cases hid : id = e.taskId
    · simp [hid, hr]
    · simp [hid]
  | some r =>
    have hrows := update_patches b e.taskId e.patches e.reason e.ts hr
    rw [Board.select, hrows, ← Board.select, written, select_modify]
    cases hx : b.select id with
    | none => rfl
    | some x => simp [(select_mem b id x hx).2]

theorem get_run {b : Board} {e : Edit} {id : String} {t : Task} (h : get b id = .ok (some t)) :
    get (e.run b) id = .ok (some (if id = e.taskId then putAll t e.patches else t)) := by
  unfold get at h ⊢
  rw [select_run]
  cases hr : b.select id with
  | none => simp [hr] at h
  | some r =>
    have hrow : Task.fromRow r = .ok t := by
      cases hf : Task.fromRow r with
      | error err => simp [hr, hf, Except.map] at h
      | ok t' => simpa [hr, hf, Except.map] using h
    simp only [Option.map_some]
    split
    · rw [fromRow_setAll hrow]
      rfl
    · rw [hrow]
      rfl

theorem get_run_other {b : Board} {e : Edit} {id : String} (h : id ≠ e.taskId) :
    get (e.run b) id = get b id := by
  unfold get
  rw [select_run]
  simp [h]

theorem get_runEdits {b : Board} {id : String} {t : Task} (h : get b id = .ok (some t))
    (edits : List Edit) :
    get (runEdits b edits) id = .ok (some (putAll t (patchesFor id edits))) := by
  induction edits generalizing b t with
  | nil => exact h
  | cons e rest ih =>
    have hstep := ih (get_run (e := e) h)
    refine hstep.trans ?_
    by_cases hid : id = e.taskId
    · simp [patchesFor, putAll, hid]
    · simp [patchesFor, hid, Ne.symm hid]

theorem get_runEdits_other {b : Board} {id : String} {edits : List Edit}
    (h : ∀ e ∈ edits, id ≠ e.taskId) :
    get (runEdits b edits) id = get b id := by
  induction edits generalizing b with
  | nil => rfl
  | cons e rest ih =>
    obtain ⟨he, hrest⟩ := List.forall_mem_cons.mp h
    exact (ih hrest).trans (get_run_other he)

/-! ## The lens -/

theorem get_submit {b : Board} {task : Task} (htyped : WellTyped task)
    (hnew : ∀ r ∈ b.tasks, r.id ≠ task.id) (ts : ℚ) :
    get (submit b task ts).2 task.id = .ok (some task) := by
  have htasks := (submit_fresh b task ts hnew).1
  have hrow : (submit b task ts).2.select task.id = some task.toRow :=
    (select_eq_some _ _ _).mpr ⟨by rw [htasks]; simp, rfl⟩
  unfold get
  rw [hrow]
  exact congrArg (Except.map some) (fromRow_toRow htyped)

theorem get_submit_other {b : Board} {task : Task} {id : String} (hne : id ≠ task.id) (ts : ℚ) :
    get (submit b task ts).2 id = get b id := by
  rcases submit_cases b task ts with heq | ⟨-, htasks, -⟩
  · rw [heq]
  · have hne' : (task.toRow.id == id) = false := by simpa [Task.toRow] using hne.symm
    unfold get Board.select
    rw [htasks, List.find?_append, List.find?_singleton, hne', Option.or_eq_left_of_none]
    rfl

/-- **Persisted tasks form a lens.** A task that is submitted comes back as it was, updates replace
exactly the fields that they give, and no call touches a task that it does not name. -/
theorem persisted_lens (b : Board) (task : Task) (ts : ℚ) (htyped : WellTyped task)
    (hnew : ∀ r ∈ b.tasks, r.id ≠ task.id) :
    let stored := (submit b task ts).2
    get stored task.id = .ok (some task) ∧ (∀ id ≠ task.id, get stored id = get b id) ∧
      ∀ edits, get (runEdits stored edits) task.id = .ok (some (putAll task (patchesFor task.id edits))) ∧
        (∀ id other, get stored id = .ok (some other) →
          get (runEdits stored edits) id = .ok (some (putAll other (patchesFor id edits)))) ∧
        ∀ id, (∀ e ∈ edits, id ≠ e.taskId) → get (runEdits stored edits) id = get stored id := by
  intro stored
  have hstored : get stored task.id = .ok (some task) := get_submit htyped hnew ts
  refine ⟨hstored, fun id hne => get_submit_other hne ts, fun edits => ⟨?_, fun id other h => ?_, fun id h => ?_⟩⟩
  · exact get_runEdits hstored edits
  · exact get_runEdits h edits
  · exact get_runEdits_other h

/-- A task with a tag and metadata. -/
def tagged : Task :=
  { Task.new "a" 0 with tags := .ofStrs ["ui"], metadata := .obj [("size", .int 3)] }

/-- The tags go, the status moves, and the title is given twice. -/
def taggedEdits : List Edit :=
  [⟨"a", [.tags [], .title "draft"], none, 1⟩, ⟨"b", [.title "other"], none, 2⟩,
    ⟨"a", [.status .done, .title "final"], some "reviewed", 3⟩]

theorem tagged_comes_back :
    get (submit .empty tagged 0).2 "a" = .ok (some tagged) ∧
      get (runEdits (submit .empty tagged 0).2 taggedEdits) "a" =
        .ok (some { tagged with tags := .ofStrs [], title := "final", status := .done }) := by
  have htyped : WellTyped tagged := ⟨⟨[], rfl⟩, ⟨[], rfl⟩, ⟨[], rfl⟩, ⟨["ui"], rfl⟩, ⟨_, rfl⟩⟩
  obtain ⟨hstored, -, hedits⟩ := persisted_lens .empty tagged 0 htyped (by simp [Board.empty])
  refine ⟨hstored, ?_⟩
  exact (hedits taggedEdits).1

end Swarm.Kanban
