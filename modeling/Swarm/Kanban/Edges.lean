import Mathlib.Data.List.Dedup
import Swarm.Kanban.Claim

/-! # The edges that the columns `blocked_by` and `blocks` hold -/

namespace Swarm.Kanban

theorem blockedBy_keeps_id (col : Option Text) (r : Row) :
    ({ r with blockedBy := col } : Row).id = r.id := rfl

theorem blocks_keeps_id (col : Option Text) (r : Row) :
    ({ r with blocks := col } : Row).id = r.id := rfl

/-! ## Entries -/

/-- `x in` the list that a task has from the column. -/
def Names (col : Option Text) (x : String) : Prop := (decode (.arr []) col).contains x = .ok true

instance (col : Option Text) (x : String) : Decidable (Names col x) := by
  unfold Names; infer_instance

theorem not_names_none (x : String) : ¬ Names none x := by simp [Names, decode, Json.contains]

theorem decode_of_load {col : Option Text} {v : Json} (h : loadList col = .ok v) :
    decode (.arr []) col = v := by
  cases col with
  | none => simpa [loadList, decode] using h
  | some t =>
    simp only [loadList] at h
    simp only [decode]
    split at h
    · rename_i ht
      rw [if_pos ht, h]
    · rename_i ht
      rw [if_neg ht]
      simpa using h

theorem contains_ofStrs (l : List String) (x : String) :
    (Json.ofStrs l).contains x = .ok (decide (x ∈ l)) := by
  simp only [Json.ofStrs, Json.contains, List.any_map]
  refine congrArg Except.ok (Bool.eq_iff_iff.mpr ?_)
  simp

theorem names_text (l : List String) (x : String) : Names (some (.json (.ofStrs l))) x ↔ x ∈ l := by
  simp [Names, decode, Text.truthy, Text.loads, contains_ofStrs]

theorem names_dumps (l : List String) (x : String) : Names (dumps (.ofStrs l)) x ↔ x ∈ l := by
  cases l with
  | nil => simp [Names, dumps, decode, Json.contains]
  | cons y l =>
    simp only [dumps, Json.truthy_ofStrs, List.isEmpty_cons, Bool.not_false, if_true]
    exact names_text (y :: l) x

theorem mem_sortedSet (l : List String) (x : String) : x ∈ sortedSet l ↔ x ∈ l := by
  simp [sortedSet]

/-! ## The mirror -/

theorem mirrored_none {taskId : String} {v : Json} (h : mirrored taskId v = .ok none) :
    v.contains taskId = .ok true := by
  simp only [mirrored] at h
  cases hc : v.contains taskId with
  | error e => simp [hc, bind, Except.bind] at h
  | ok found =>
    cases found with
    | true => rfl
    | false =>
      simp only [hc, bind, Except.bind, Bool.false_eq_true, if_false] at h
      cases v with
      | arr items => cases hs : asStrs (.arr items) <;> simp [hs, pure, Except.pure] at h
      | _ => simp [throw, throwThe, MonadExceptOf.throw] at h

theorem strs_of_asStrs {items : List Json} {ids : List String} (h : asStrs (.arr items) = .ok ids) :
    Json.arr items = .ofStrs ids := by
  unfold asStrs at h
  simp only [Json.iter, bind, Except.bind] at h
  cases hm : items.mapM Json.str? with
  | none => simp [hm, throw, throwThe, MonadExceptOf.throw] at h
  | some strs =>
    simp only [hm, pure, Except.pure, Except.ok.injEq] at h
    rw [(mapM_str?_eq items strs).mp hm, h]
    rfl

theorem mirrored_writes {taskId : String} {v : Json} {l : List String}
    (h : mirrored taskId v = .ok (some l)) :
    ∃ ids, v = .ofStrs ids ∧ l = (ids ++ [taskId]).insertionSort (· ≤ ·) := by
  unfold mirrored at h
  cases hc : v.contains taskId with
  | error e => simp [hc, bind, Except.bind] at h
  | ok found =>
    cases found with
    | true => simp [hc, bind, Except.bind, pure, Except.pure] at h
    | false =>
      simp only [hc, bind, Except.bind, Bool.false_eq_true, if_false] at h
      cases v with
      | arr items =>
        cases hs : asStrs (.arr items) with
        | error e => simp [hs] at h
        | ok strs =>
          simp only [hs, pure, Except.pure, Except.ok.injEq, Option.some.injEq] at h
          exact ⟨strs, strs_of_asStrs hs, h.symm⟩
      | _ => simp [throw, throwThe, MonadExceptOf.throw] at h

theorem mirrored_some {taskId : String} {v : Json} {l : List String}
    (h : mirrored taskId v = .ok (some l)) : taskId ∈ l := by
  obtain ⟨ids, -, rfl⟩ := mirrored_writes h
  simp [List.mem_insertionSort]

theorem names_of_mirrored {taskId : String} {col : Option Text}
    (h : (loadList col >>= mirrored taskId) = .ok none) : Names col taskId := by
  cases hload : loadList col with
  | error e => simp [hload, bind, Except.bind] at h
  | ok v =>
    rw [Names, decode_of_load hload]
    exact mirrored_none (by simpa [hload, bind, Except.bind] using h)

theorem mem_of_mirrored {taskId : String} {col : Option Text} {l : List String}
    (h : (loadList col >>= mirrored taskId) = .ok (some l)) : taskId ∈ l := by
  cases hload : loadList col with
  | error e => simp [hload, bind, Except.bind] at h
  | ok v => exact mirrored_some (by simpa [hload, bind, Except.bind] using h)

/-! ## Edges of a board -/

/-- The task's own column names the blocker. -/
def BlockedBy (b : Board) (taskId blocker : String) : Prop :=
  ∃ r, b.select taskId = some r ∧ Names r.blockedBy blocker

/-- The blocker's column names the task. -/
def Blocks (b : Board) (blocker taskId : String) : Prop :=
  ∃ r, b.select blocker = some r ∧ Names r.blocks taskId

instance (b : Board) (taskId blocker : String) : Decidable (BlockedBy b taskId blocker) :=
  decidable_of_iff ((b.select taskId).any fun r => decide (Names r.blockedBy blocker)) (by
    simp [BlockedBy, Option.any_eq_true])

instance (b : Board) (blocker taskId : String) : Decidable (Blocks b blocker taskId) :=
  decidable_of_iff ((b.select blocker).any fun r => decide (Names r.blocks taskId)) (by
    simp [Blocks, Option.any_eq_true])

theorem select_modify (b : Board) (id : String) (f : Row → Row) (hf : ∀ r, (f r).id = r.id)
    (i : String) :
    (b.modify id f hf).select i = (b.select i).map fun r => if r.id = id then f r else r := by
  simp only [Board.select, Board.modify, List.find?_map]
  congr 2
  funext r
  simp only [Function.comp_apply, modifyRow_id id f hf]

theorem select_modify_other (b : Board) {id i : String} (f : Row → Row) (hf : ∀ r, (f r).id = r.id)
    (h : i ≠ id) :
    (b.modify id f hf).select i = b.select i := by
  rw [select_modify]
  cases hr : b.select i with
  | none => rfl
  | some r =>
    obtain ⟨-, rfl⟩ := select_mem b i r hr
    rw [Option.map_some, if_neg h]

theorem select_modify_column {α : Type} (b : Board) (id : String) {f : Row → Row}
    (hf : ∀ r, (f r).id = r.id) {column : Row → α} (hcolumn : ∀ r, column (f r) = column r)
    (i : String) :
    ((b.modify id f hf).select i).map column = (b.select i).map column := by
  rw [select_modify, Option.map_map]
  congr 1
  funext r
  simp only [Function.comp_apply]
  split
  · exact hcolumn r
  · rfl

theorem addBlockedBy_filter (b : Board) (taskId : String) (ids : List String) :
    addBlockedBy b taskId (ids.filter (· != "")) = addBlockedBy b taskId ids := by
  simp only [addBlockedBy, List.filter_filter, Bool.and_self]

end Swarm.Kanban
