import Swarm.Kanban.Code

/-!
# What the kanban computes

Readiness and the ready rows of a board, without the loops, and one spec for each
method that the supervisors call.
-/

namespace Swarm.Kanban

/-! ## List columns -/

/-- The ids of a list column, when it is a JSON array of strings or empty. -/
def idsOf : Option Text → Option (List String)
  | none => some []
  | some (.raw s) => if s = "" then some [] else none
  | some (.json (.arr l)) => l.mapM Json.str?
  | some (.json _) => none

/-- The column holds a list of ids. -/
def HoldsIds (col : Option Text) : Prop := ∃ ids, idsOf col = some ids

theorem str_injective : Function.Injective Json.str := fun _ _ h => Json.str.inj h

theorem mapM_str?_eq (l : List Json) (ids : List String) :
    l.mapM Json.str? = some ids ↔ l = ids.map .str := by
  induction l generalizing ids with
  | nil => cases ids <;> simp
  | cons v rest ih =>
    rw [List.mapM_cons]
    cases v with
    | str s =>
      cases hrest : rest.mapM Json.str? with
      | none =>
        have hne : ∀ tail : List String, rest ≠ tail.map Json.str := fun tail ht => by
          simpa [hrest] using (ih tail).mpr ht
        cases ids <;> simp [Json.str?, hne]
      | some tail =>
        have htail : rest = tail.map Json.str := (ih tail).mp hrest
        cases ids <;> simp [Json.str?, htail, (List.map_injective_iff.mpr str_injective).eq_iff]
    | _ => cases ids <;> simp [Json.str?]

theorem mapM_str?_strs (ids : List String) : (ids.map Json.str).mapM Json.str? = some ids :=
  (mapM_str?_eq _ _).mpr rfl

@[simp] theorem idsOf_dumps (ids : List String) : idsOf (dumps (.ofStrs ids)) = some ids := by
  cases ids with
  | nil => rfl
  | cons x rest =>
    simp only [dumps, Json.truthy_ofStrs, List.isEmpty_cons, Bool.not_false, if_true]
    exact mapM_str?_strs _

theorem loadList_of_ids (col : Option Text) (ids : List String) (h : idsOf col = some ids) :
    loadList col = .ok (.ofStrs ids) := by
  match col with
  | none => cases h; rfl
  | some (.raw s) =>
    simp only [idsOf] at h
    split at h
    · next hs => cases h; simp [loadList, Text.truthy, hs, Json.ofStrs]
    · cases h
  | some (.json (.arr l)) =>
    rw [(mapM_str?_eq l ids).mp h]
    rfl

theorem decode_of_ids (col : Option Text) (ids : List String) (h : idsOf col = some ids) :
    decode (.arr []) col = .ofStrs ids := by
  have hload := loadList_of_ids col ids h
  match col with
  | none => simpa [loadList, decode] using hload
  | some t =>
    simp only [loadList] at hload
    simp only [decode]
    split at hload
    · next ht => rw [if_pos ht, hload]
    · next ht => rw [if_neg ht]; simpa using hload

/-! ## Readiness -/

/-- The ids of the task's blockers. -/
def blockersOf (r : Row) : List String := (idsOf r.blockedBy).getD []

def Board.isDone (b : Board) (id : String) : Bool :=
  (b.select id).any (·.status == "done")

/-- The head that is asked for, if any, is that of the row. -/
def wants (requiredHead : Option String) (r : Row) : Bool := requiredHead.all (· == r.requiredHead)

def unblockedRow (b : Board) (r : Row) : Bool := (blockersOf r).all b.isDone

/-- The task is pending, and every blocker of it is DONE. -/
def ready (b : Board) (r : Row) : Bool := r.status == "pending" && unblockedRow b r

/-- The pending rows, in the order in which they are served. -/
def pendingRows (b : Board) : List Row := orderBy (b.tasks.filter (·.status == "pending"))

/-- The ready rows that are wanted, in that order. -/
def readyRows (b : Board) (requiredHead : Option String) : List Row :=
  (pendingRows b).filter fun r => wants requiredHead r && unblockedRow b r

/-- The pending rows say what they wait for in JSON arrays of ids. -/
def Board.ColumnsOk (b : Board) : Prop :=
  ∀ r ∈ b.tasks, r.status = "pending" → HoldsIds r.blockedBy

def Board.StatusesOk (b : Board) : Prop := ∀ r ∈ b.tasks, ∃ s : TaskStatus, r.status = s.value

theorem mem_orderBy (rows : List Row) (r : Row) : r ∈ orderBy rows ↔ r ∈ rows :=
  List.mem_insertionSort _

theorem mem_pendingRows (b : Board) (r : Row) :
    r ∈ pendingRows b ↔ r ∈ b.tasks ∧ r.status = "pending" := by
  simp [pendingRows, mem_orderBy]

theorem mem_readyRows (b : Board) (rh : Option String) (r : Row) :
    r ∈ readyRows b rh ↔ r ∈ b.tasks ∧ ready b r ∧ wants rh r := by
  simp only [readyRows, List.mem_filter, mem_pendingRows, ready, Bool.and_eq_true, beq_iff_eq]
  tauto

instance : Std.Total rowLe where
  total r s := by
    unfold rowLe
    rcases lt_trichotomy r.priority s.priority with h | h | h
    · exact Or.inl (Or.inl h)
    · rcases le_total r.createdAt s.createdAt with h' | h'
      · exact Or.inl (Or.inr ⟨h, h'⟩)
      · exact Or.inr (Or.inr ⟨h.symm, h'⟩)
    · exact Or.inr (Or.inl h)

instance : IsTrans Row rowLe where
  trans r s t h1 h2 := by
    unfold rowLe at *
    rcases h1 with h1 | ⟨h1, h1'⟩ <;> rcases h2 with h2 | ⟨h2, h2'⟩
    · exact Or.inl (h1.trans h2)
    · exact Or.inl (h2 ▸ h1)
    · exact Or.inl (h1 ▸ h2)
    · exact Or.inr ⟨h1.trans h2, h1'.trans h2'⟩

theorem orderBy_sorted (rows : List Row) : (orderBy rows).Pairwise rowLe :=
  List.pairwise_insertionSort _ _

theorem readyRows_head_le (b : Board) (rh : Option String) (r s : Row)
    (hr : (readyRows b rh).head? = some r) (hs : s ∈ readyRows b rh) : rowLe r s := by
  have hsorted : (readyRows b rh).Pairwise rowLe := (orderBy_sorted _).sublist List.filter_sublist
  obtain ⟨rest, hrest⟩ := List.head?_eq_some_iff.mp hr
  rw [hrest] at hsorted hs
  rcases List.mem_cons.mp hs with rfl | hs
  · exact (Std.Total.total (r := rowLe) s s).elim id id
  · exact (List.pairwise_cons.mp hsorted).1 s hs

/-! ## Rows by id -/

theorem select_mem (b : Board) (id : String) (r : Row) (h : b.select id = some r) :
    r ∈ b.tasks ∧ r.id = id := by
  refine ⟨List.mem_of_find?_eq_some h, ?_⟩
  simpa using List.find?_some h

theorem row_unique (b : Board) (r s : Row) (hr : r ∈ b.tasks) (hs : s ∈ b.tasks)
    (h : r.id = s.id) : r = s :=
  List.inj_on_of_nodup_map b.primaryKey hr hs h

theorem select_of_mem (b : Board) (r : Row) (h : r ∈ b.tasks) : b.select r.id = some r := by
  cases hs : b.select r.id with
  | none =>
    have := List.find?_eq_none.mp hs r h
    simp at this
  | some s =>
    obtain ⟨hmem, hid⟩ := select_mem b r.id s hs
    rw [row_unique b s r hmem h hid]

theorem select_eq_some (b : Board) (id : String) (r : Row) :
    b.select id = some r ↔ r ∈ b.tasks ∧ r.id = id := by
  constructor
  · exact select_mem b id r
  · rintro ⟨hr, rfl⟩; exact select_of_mem b r hr

theorem any_id_of_mem (b : Board) (r : Row) (h : r ∈ b.tasks) :
    b.tasks.any (·.id == r.id) = true :=
  List.any_eq_true.mpr ⟨r, h, by simp⟩

theorem isDone_iff (b : Board) (id : String) :
    b.isDone id = true ↔ ∃ r ∈ b.tasks, r.id = id ∧ r.status = "done" := by
  simp only [Board.isDone, Option.any_eq_true, beq_iff_eq, select_eq_some]
  tauto

@[simp] theorem selectKey_str (b : Board) (id : String) :
    selectKey b (.str id) = .ok (b.select id) := rfl

/-! ## The reads -/

theorem fromRow_of_status (r : Row) (s : TaskStatus) (h : r.status = s.value) :
    Task.fromRow r = .ok (r.toTask s) := by
  simp only [Task.fromRow, h, TaskStatus.ofValue_value]
  rfl

theorem fromRow_ok (r : Row) (t : Task) (h : Task.fromRow r = .ok t) :
    r.status = t.status.value ∧ t = r.toTask t.status := by
  simp only [Task.fromRow, TaskStatus.ofValue] at h
  cases hf : TaskStatus.all.find? (·.value == r.status) with
  | none => simp [hf, bind, Except.bind] at h
  | some s =>
    have hs : s.value = r.status := by simpa using List.find?_some hf
    simp only [hf, bind, Except.bind, pure, Except.pure, Except.ok.injEq] at h
    subst h
    exact ⟨hs.symm, rfl⟩

theorem mapM_fromRow (rows : List Row) (s : TaskStatus) (h : ∀ r ∈ rows, r.status = s.value) :
    rows.mapM Task.fromRow = .ok (rows.map (·.toTask s)) := by
  induction rows with
  | nil => rfl
  | cons r rest ih =>
    have hr := fromRow_of_status r s (h r List.mem_cons_self)
    have hrest := ih fun x hx => h x (List.mem_cons_of_mem _ hx)
    simp [List.mapM_cons, hr, hrest, bind, Except.bind, pure, Except.pure]

theorem listTasks_status (b : Board) (s : TaskStatus) :
    listTasks b (some s) none none =
      .ok ((orderBy (b.tasks.filter (·.status == s.value))).map (·.toTask s)) := by
  have hrows : ∀ r ∈ orderBy (b.tasks.filter (·.status == s.value)), r.status = s.value := by
    intro r hr
    have := (mem_orderBy _ _).mp hr
    simpa using (List.mem_filter.mp this).2
  simp [listTasks, mapM_fromRow _ s hrows, bind, Except.bind, pure, Except.pure]

theorem anyOpen_strs (b : Board) (ids : List String) :
    anyOpen b (ids.map .str) = .ok !(ids.all b.isDone) := by
  induction ids with
  | nil => rfl
  | cons id rest ih =>
    simp only [List.map_cons, anyOpen, selectKey_str, List.all_cons, Board.isDone]
    cases b.select id with
    | none => rfl
    | some r =>
      by_cases h : r.status = "done"
      · simp [h, ih, bind, Except.bind]
      · simp [h, bind, Except.bind, pure, Except.pure]

theorem blockersDone_strs (b : Board) (ids : List String) (v : Bool)
    (h : blockersDone b (ids.map .str) = .ok v) : v = ids.all b.isDone := by
  induction ids with
  | nil => cases h; rfl
  | cons id rest ih =>
    simp only [List.map_cons, blockersDone, selectKey_str, bind, Except.bind] at h
    simp only [List.all_cons, Board.isDone]
    cases hs : b.select id with
    | none => simp only [hs] at h; cases h; rfl
    | some r =>
      simp only [hs] at h
      cases hr : Task.fromRow r with
      | error e => simp [hr] at h
      | ok t =>
        obtain ⟨hstatus, -⟩ := fromRow_ok r t hr
        simp only [hr] at h
        by_cases hd : t.status = .done
        · rw [if_pos hd] at h
          simp [hstatus, hd, TaskStatus.value, ih h]
        · rw [if_neg hd] at h
          have hne : r.status ≠ "done" := by
            rw [hstatus]
            exact fun hv => hd ((TaskStatus.value_inj t.status .done).mp hv)
          cases h
          simp [hne]

theorem blockersDone_total (b : Board) (hb : b.StatusesOk) (ids : List String) :
    ∃ v, blockersDone b (ids.map .str) = .ok v := by
  induction ids with
  | nil => exact ⟨true, rfl⟩
  | cons id rest ih =>
    simp only [List.map_cons, blockersDone, selectKey_str, bind, Except.bind]
    cases hs : b.select id with
    | none => exact ⟨false, rfl⟩
    | some r =>
      obtain ⟨s, hr⟩ := hb r (select_mem b id r hs).1
      simp only [fromRow_of_status r s hr]
      split
      · exact ih
      · exact ⟨false, rfl⟩

end Swarm.Kanban
