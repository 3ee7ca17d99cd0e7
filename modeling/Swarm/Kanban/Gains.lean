import Swarm.Kanban.Edges

/-! # What the edge columns gain -/

namespace Swarm.Kanban

/-- The board has a task with the id. -/
def OnBoard (b : Board) (id : String) : Prop := (b.select id).isSome

/-- Every edge column is a JSON array of ids. -/
def EdgesTyped (b : Board) : Prop := ∀ r ∈ b.tasks, HoldsIds r.blockedBy ∧ HoldsIds r.blocks

/-! ## Columns of ids -/

theorem names_of_ids {col : Option Text} {ids : List String} (h : idsOf col = some ids)
    (x : String) :
    Names col x ↔ x ∈ ids := by
  rw [Names, decode_of_ids col ids h, contains_ofStrs]
  simp

theorem asStrs_ofStrs (ids : List String) : asStrs (.ofStrs ids) = .ok ids := by
  simp only [asStrs, Json.iter_ofStrs, bind, Except.bind, mapM_str?_strs]
  rfl

theorem idsOf_text (ids : List String) : idsOf (some (.json (.ofStrs ids))) = some ids :=
  mapM_str?_strs ids

theorem mirrored_ids {col : Option Text} {ids : List String} (h : idsOf col = some ids)
    (taskId : String) :
    (loadList col >>= mirrored taskId) =
      .ok (if taskId ∈ ids then none else some ((ids ++ [taskId]).insertionSort (· ≤ ·))) := by
  have hstrs := asStrs_ofStrs ids
  simp only [loadList_of_ids col ids h, mirrored, contains_ofStrs, bind, Except.bind, decide_eq_true_eq]
  split
  · rfl
  · simp only [Json.ofStrs] at hstrs ⊢
    simp [hstrs, pure, Except.pure]

/-! ## What a list of ids gains -/

/-- The ids of the column grow by those of `added`. A list that grows is sorted anew. -/
structure ListGains (added : String → Prop) (old new : List String) : Prop where
  mem : ∀ x, x ∈ new ↔ x ∈ old ∨ added x
  nodup : old.Nodup → new.Nodup
  sorted : (∃ x, added x ∧ x ∉ old) ∨ old.SortedLE → new.SortedLE

/-- The column has the ids that it had and those that were added. -/
def Gains (added : String → Prop) (old new : Option Text) : Prop :=
  (∀ ids, idsOf old = some ids → ∃ ids', idsOf new = some ids' ∧ ListGains added ids ids') ∧
    ((∀ x, ¬ added x) → new = old)

theorem ListGains.refl {added : String → Prop} {ids : List String} (h : ∀ x, added x → x ∈ ids) :
    ListGains added ids ids where
  mem x := ⟨.inl, fun hx => hx.elim id (h x)⟩
  nodup := id
  sorted := by
    rintro (⟨x, hx, hnot⟩ | hs)
    · exact absurd (h x hx) hnot
    · exact hs

theorem ListGains.trans {A B : String → Prop} {l m n : List String} (h : ListGains A l m)
    (h' : ListGains B m n) : ListGains (fun x => A x ∨ B x) l n where
  mem x := by rw [h'.mem, h.mem, or_assoc]
  nodup hl := h'.nodup (h.nodup hl)
  sorted := by
    rintro (⟨x, hx | hx, hnot⟩ | hl)
    · exact h'.sorted (.inr (h.sorted (.inl ⟨x, hx, hnot⟩)))
    · by_cases hm : x ∈ m
      · -- The first step added it.
        have hA : A x := ((h.mem x).mp hm).resolve_left hnot
        exact h'.sorted (.inr (h.sorted (.inl ⟨x, hA, hnot⟩)))
      · exact h'.sorted (.inl ⟨x, hx, hm⟩)
    · exact h'.sorted (.inr (h.sorted (.inr hl)))

theorem Gains.refl (added : String → Prop) {col : Option Text}
    (h : ∀ ids, idsOf col = some ids → ∀ x, added x → x ∈ ids) : Gains added col col :=
  ⟨fun ids hids => ⟨ids, hids, .refl (h ids hids)⟩, fun _ => rfl⟩

theorem Gains.trans {A B : String → Prop} {l m n : Option Text} (h : Gains A l m)
    (h' : Gains B m n) :
    Gains (fun x => A x ∨ B x) l n := by
  constructor
  · intro ids hids
    obtain ⟨ids', hids', hgain⟩ := h.1 ids hids
    obtain ⟨ids'', hids'', hgain'⟩ := h'.1 ids' hids'
    exact ⟨ids'', hids'', hgain.trans hgain'⟩
  · intro hnone
    exact (h'.2 fun x hx => hnone x (.inr hx)).trans (h.2 fun x hx => hnone x (.inl hx))

theorem Gains.names_iff {added : String → Prop} {old new : Option Text} (h : Gains added old new)
    (hold : HoldsIds old) (x : String) : Names new x ↔ Names old x ∨ added x := by
  obtain ⟨ids, hids⟩ := hold
  obtain ⟨ids', hids', hlist⟩ := h.1 ids hids
  rw [names_of_ids hids, names_of_ids hids', hlist.mem]

/-! ## What a board gains -/

/-- `blocker x t` and `blocked t x` say which ids the columns of the rows `x` and `t` gain; nothing
else of a row changes. -/
structure RowGains (blocked blocker : String → String → Prop) (r r' : Row) : Prop where
  others : { r' with blockedBy := r.blockedBy, blocks := r.blocks } = r
  blockedBy : Gains (blocked r.id) r.blockedBy r'.blockedBy
  blocks : Gains (blocker r.id) r.blocks r'.blocks

/-- The board has the edges that it had, and the ones that were added at either end. -/
structure Edged (blocked blocker : String → String → Prop) (b b' : Board) : Prop where
  timeline : b'.timeline = b.timeline
  rows : ∃ g : Row → Row, b'.tasks = b.tasks.map g ∧ ∀ r ∈ b.tasks, RowGains blocked blocker r (g r)

section Edged

variable {blocked blocker blocked' blocker' : String → String → Prop} {b b' b'' : Board}

theorem RowGains.id_eq {r r' : Row} (h : RowGains blocked blocker r r') : r'.id = r.id := by
  have hid := congrArg Fields.id h.others
  exact hid

theorem RowGains.trans {r r' r'' : Row} (h : RowGains blocked blocker r r')
    (h' : RowGains blocked' blocker' r' r'') :
    RowGains (fun t x => blocked t x ∨ blocked' t x) (fun x t => blocker x t ∨
      blocker' x t) r r'' := by
  obtain ⟨hothers', hby', hblocks'⟩ := h'
  rw [h.id_eq] at hby' hblocks'
  refine ⟨?_, h.blockedBy.trans hby', h.blocks.trans hblocks'⟩
  have hkept := congrArg (fun x : Row => { x with blockedBy := r.blockedBy, blocks := r.blocks }) hothers'
  exact hkept.trans h.others

theorem Edged.trans (h : Edged blocked blocker b b') (h' : Edged blocked' blocker' b' b'') :
    Edged (fun t x => blocked t x ∨ blocked' t x) (fun x t => blocker x t ∨
      blocker' x t) b b'' := by
  obtain ⟨ht, g, htasks, hrows⟩ := h
  obtain ⟨ht', g', htasks', hrows'⟩ := h'
  refine ⟨ht'.trans ht, g' ∘ g, by rw [htasks', htasks, List.map_map], fun r hr => ?_⟩
  exact (hrows r hr).trans (hrows' (g r) (htasks ▸ List.mem_map_of_mem hr))

theorem Edged.congr (h : Edged blocked blocker b b') (hby : ∀ t x, blocked t x ↔ blocked' t x)
    (hblocks : ∀ x t, blocker x t ↔ blocker' x t) : Edged blocked' blocker' b b' := by
  obtain rfl : blocked = blocked' := funext₂ fun t x => propext (hby t x)
  obtain rfl : blocker = blocker' := funext₂ fun x t => propext (hblocks x t)
  exact h

theorem Edged.refl (b : Board)
    (hby : ∀ r ∈ b.tasks, ∀ ids, idsOf r.blockedBy = some ids → ∀ x, blocked r.id x → x ∈ ids)
    (hblocks : ∀ r ∈ b.tasks, ∀ ids, idsOf r.blocks = some ids → ∀ t, blocker r.id t → t ∈ ids) :
    Edged blocked blocker b b :=
  ⟨rfl, id, (List.map_id _).symm, fun r hr => ⟨rfl, .refl _ (hby r hr), .refl _ (hblocks r hr)⟩⟩

theorem Edged.typed (h : Edged blocked blocker b b') (htyped : EdgesTyped b) : EdgesTyped b' := by
  obtain ⟨-, g, htasks, hrows⟩ := h
  intro r' hr'
  rw [htasks] at hr'
  obtain ⟨r, hr, rfl⟩ := List.mem_map.mp hr'
  obtain ⟨⟨ids, hids⟩, ids', hids'⟩ := htyped r hr
  obtain ⟨new, hnew, -⟩ := (hrows r hr).blockedBy.1 ids hids
  obtain ⟨new', hnew', -⟩ := (hrows r hr).blocks.1 ids' hids'
  exact ⟨⟨new, hnew⟩, new', hnew'⟩

theorem Edged.select_isSome (h : Edged blocked blocker b b') (id : String) :
    OnBoard b' id ↔ OnBoard b id := by
  obtain ⟨-, g, htasks, hrows⟩ := h
  simp only [OnBoard, Option.isSome_iff_exists, select_eq_some, htasks, List.mem_map]
  constructor
  · rintro ⟨_, ⟨r, hr, rfl⟩, hid⟩
    exact ⟨r, hr, (hrows r hr).id_eq.symm.trans hid⟩
  · rintro ⟨r, hr, hid⟩
    exact ⟨g r, ⟨r, hr, rfl⟩, (hrows r hr).id_eq.trans hid⟩

theorem Edged.row (h : Edged blocked blocker b b') {r : Row} (hr : r ∈ b.tasks) :
    ∃ r', b'.select r.id = some r' ∧ RowGains blocked blocker r r' := by
  obtain ⟨-, g, htasks, hrows⟩ := h
  have hmem : g r ∈ b'.tasks := by
    rw [htasks]
    exact List.mem_map_of_mem hr
  refine ⟨g r, ?_, hrows r hr⟩
  rw [← (hrows r hr).id_eq]
  exact select_of_mem b' (g r) hmem

theorem Edged.blockedBy_iff (h : Edged blocked blocker b b') (htyped : EdgesTyped b) {t : String}
    (hon : OnBoard b t) (x : String) : BlockedBy b' t x ↔ BlockedBy b t x ∨ blocked t x := by
  obtain ⟨r, hrow⟩ := Option.isSome_iff_exists.mp hon
  obtain ⟨hmem, rfl⟩ := select_mem b t r hrow
  obtain ⟨r', hrow', hgains⟩ := h.row hmem
  have hnames := hgains.blockedBy.names_iff (htyped r hmem).1 x
  simp [BlockedBy, hrow, hrow', hnames]

theorem Edged.blocks_iff (h : Edged blocked blocker b b') (htyped : EdgesTyped b) {a : String}
    (hon : OnBoard b a) (x : String) : Blocks b' a x ↔ Blocks b a x ∨ blocker a x := by
  obtain ⟨r, hrow⟩ := Option.isSome_iff_exists.mp hon
  obtain ⟨hmem, rfl⟩ := select_mem b a r hrow
  obtain ⟨r', hrow', hgains⟩ := h.row hmem
  have hnames := hgains.blocks.names_iff (htyped r hmem).2 x
  simp [Blocks, hrow, hrow', hnames]

theorem edged_modify {id : String} {row : Row} {f : Row → Row} (hf : ∀ r, (f r).id = r.id)
    (hrow : b.select id = some row) (hgain : RowGains blocked blocker row (f row))
    (hother : ∀ r ∈ b.tasks, r.id ≠ id → RowGains blocked blocker r r) :
    Edged blocked blocker b (b.modify id f hf) := by
  obtain ⟨hmem, hid⟩ := select_mem b id row hrow
  refine ⟨rfl, fun r => if r.id = id then f r else r, rfl, fun r hr => ?_⟩
  dsimp only
  split
  · next heq =>
    rw [row_unique b r row hr hmem (heq.trans hid.symm)]
    exact hgain
  · next hne => exact hother r hr hne

end Edged

/-! ## The calls -/

theorem sortedLE_snoc (ids : List String) (x : String) :
    ((ids ++ [x]).insertionSort (· ≤ ·)).SortedLE := List.sortedLE_insertionSort

theorem appended_gains {ids : List String} {taskId : String} {added : String → Prop}
    (hnew : taskId ∉ ids) (hadded : ∀ x, added x ↔ x = taskId) :
    ListGains added ids ((ids ++ [taskId]).insertionSort (· ≤ ·)) where
  mem x := by simp [List.mem_insertionSort, hadded]
  nodup hids := by
    rw [(List.perm_insertionSort _ _).nodup_iff, List.nodup_append]
    refine ⟨hids, List.nodup_singleton _, fun x hx y hy => ?_⟩
    obtain rfl := List.mem_singleton.mp hy
    rintro rfl
    exact hnew hx
  sorted _ := sortedLE_snoc ids taskId

theorem merged_gains {current ids : List String} {added : String → Prop}
    (hadded : ∀ x, added x ↔ x ∈ ids) :
    ListGains added current (sortedSet (current ++ ids)) where
  mem x := by simp [mem_sortedSet, hadded]
  nodup _ := (List.perm_insertionSort _ _).nodup_iff.mpr (List.nodup_dedup _)
  sorted _ := List.sortedLE_insertionSort

theorem mirrorLoop_edged {b : Board} (htyped : EdgesTyped b) (taskId : String) (ids : List String) :
    (mirrorLoop taskId b ids).1 = .ok () ∧
      Edged (fun _ _ => False) (fun x t => t = taskId ∧ x ∈ ids) b (mirrorLoop taskId b ids).2 := by
  induction ids generalizing b with
  | nil => exact ⟨rfl, .refl b (by simp) (by simp)⟩
  | cons blocker rest ih =>
    -- One blocker first, then the loop over the rest.
    have hcons : ∀ {b'}, Edged (fun _ _ => False) (fun x t => t = taskId ∧ x = blocker) b b' →
        (mirrorLoop taskId b' rest).1 = .ok () ∧
          Edged (fun _ _ => False) (fun x t => t = taskId ∧ x ∈ blocker :: rest) b
            (mirrorLoop taskId b' rest).2 := by
      intro b' hfirst
      obtain ⟨hok, hrest⟩ := ih (hfirst.typed htyped)
      refine ⟨hok, (hfirst.trans hrest).congr (by simp) fun x t => ?_⟩
      rw [← and_or_left, List.mem_cons]
    cases hrow : b.select blocker with
    | none =>
      simp only [mirrorLoop, hrow]
      refine hcons (.refl b (by simp) fun r hr _ _ t ht => ?_)
      have hthere := select_of_mem b r hr
      rw [ht.2, hrow] at hthere
      cases hthere
    | some brow =>
      obtain ⟨hmem, hid⟩ := select_mem b blocker brow hrow
      obtain ⟨bids, hbids⟩ := (htyped brow hmem).2
      have hmirrored := mirrored_ids hbids taskId
      by_cases hin : taskId ∈ bids
      · rw [if_pos hin] at hmirrored
        simp only [mirrorLoop, hrow, hmirrored]
        refine hcons (.refl b (by simp) fun r hr ids hids t ht => ?_)
        obtain rfl := row_unique b r brow hr hmem (ht.2.trans hid.symm)
        rw [hbids, Option.some.injEq] at hids
        rwa [ht.1, ← hids]
      · rw [if_neg hin] at hmirrored
        simp only [mirrorLoop, hrow, hmirrored]
        have hfirst : Edged (fun _ _ => False) (fun x t => t = taskId ∧ x = blocker) b
            (b.modify blocker
              (fun r => { r with blocks := some (.json (.ofStrs ((bids ++ [taskId]).insertionSort (· ≤ ·)))) })
              (blocks_keeps_id _)) := by
          refine edged_modify _ hrow ⟨rfl, .refl _ (by simp), ?_, ?_⟩ fun r _ hne => ?_
          · intro ids hids
            rw [hbids, Option.some.injEq] at hids
            subst hids
            exact ⟨_, idsOf_text _, appended_gains hin (by simp [hid])⟩
          · intro hnone
            exact absurd ⟨rfl, hid⟩ (hnone taskId)
          · exact ⟨rfl, .refl _ (by simp), .refl _ fun _ _ t ht => absurd ht.2 hne⟩
        exact hcons hfirst

/-- `add_blocked_by` with ids, on a task of the board, adds the edges at both ends. -/
theorem addBlockedBy_edged {b : Board} (htyped : EdgesTyped b) {taskId : String} (ids : List String)
    (hids : ∀ x ∈ ids, x ≠ "") (hon : ids ≠ [] → OnBoard b taskId) :
    (addBlockedBy b taskId ids).1 = .ok () ∧
      Edged (fun t x => t = taskId ∧ x ∈ ids) (fun x t => t = taskId ∧ x ∈ ids) b
        (addBlockedBy b taskId ids).2 := by
  have hfilter : ids.filter (· != "") = ids := by
    rw [List.filter_eq_self]
    exact fun x hx => bne_iff_ne.mpr (hids x hx)
  simp only [addBlockedBy, hfilter]
  split
  · next hempty =>
    rw [List.isEmpty_iff.mp hempty]
    exact ⟨rfl, .refl b (by simp) (by simp)⟩
  next hsome =>
    have hne : ids ≠ [] := by simpa using hsome
    obtain ⟨row, hrow⟩ := Option.isSome_iff_exists.mp (hon hne)
    obtain ⟨hmem, hid⟩ := select_mem b taskId row hrow
    obtain ⟨current, hcurrent⟩ := (htyped row hmem).1
    have hload : (loadList row.blockedBy >>= asStrs) = .ok current := by
      rw [loadList_of_ids _ _ hcurrent]
      exact asStrs_ofStrs current
    simp only [hrow, hload]
    -- The row of the task gains the ids; then each blocker gains the task.
    have hfirst : Edged (fun t x => t = taskId ∧ x ∈ ids) (fun _ _ => False) b
        (b.modify taskId (fun r => { r with blockedBy := dumps (.ofStrs (sortedSet (current ++ ids))) })
          (blockedBy_keeps_id _)) := by
      refine edged_modify _ hrow ⟨rfl, ⟨?_, ?_⟩, .refl _ (by simp)⟩ fun r _ hne' => ?_
      · intro l hl
        rw [hcurrent, Option.some.injEq] at hl
        subst hl
        exact ⟨_, idsOf_dumps _, merged_gains (by simp [hid])⟩
      · intro hnone
        obtain ⟨x, hx⟩ := List.exists_mem_of_ne_nil ids hne
        exact absurd ⟨hid, hx⟩ (hnone x)
      · exact ⟨rfl, .refl _ fun _ _ x hx => absurd hx.1 hne', .refl _ (by simp)⟩
    obtain ⟨hok, hloop⟩ := mirrorLoop_edged (hfirst.typed htyped) taskId ids
    exact ⟨hok, (hfirst.trans hloop).congr (by simp) (by simp)⟩

theorem addBlocksLoop_edged {b : Board} (htyped : EdgesTyped b) {taskId : String}
    (htask : taskId ≠ "") {ids : List String} (hon : ∀ t ∈ ids, OnBoard b t) :
    (addBlocksLoop b taskId ids).1 = .ok () ∧
      Edged (fun t x => x = taskId ∧ t ∈ ids) (fun x t => x = taskId ∧ t ∈ ids) b
        (addBlocksLoop b taskId ids).2 := by
  induction ids generalizing b with
  | nil => exact ⟨rfl, .refl b (by simp) (by simp)⟩
  | cons blocked rest ih =>
    obtain ⟨hblocked, hrest⟩ := List.forall_mem_cons.mp hon
    obtain ⟨hok, hfirst⟩ :=
      addBlockedBy_edged htyped [taskId] (by simpa using htask) fun _ => hblocked
    rw [addBlocksLoop]
    generalize addBlockedBy b blocked [taskId] = out at hok hfirst
    obtain ⟨result, b'⟩ := out
    subst hok
    obtain ⟨hok', hloop⟩ :=
      ih (hfirst.typed htyped) fun t ht => (hfirst.select_isSome t).mpr (hrest t ht)
    refine ⟨hok', (hfirst.trans hloop).congr (fun t x => ?_) fun x t => ?_⟩
    all_goals
      rw [List.mem_singleton, and_comm, ← and_or_left, List.mem_cons]

end Swarm.Kanban
