import Swarm.Kanban.Gains
import Swarm.Kanban.Timeline
import Swarm.Lib.Runs

/-! # Whether `blocked_by` and `blocks` mirror each other -/

namespace Swarm.Kanban

open Swarm.Lib

/-- Each edge is in the columns of both its ends. -/
def Mirror (b : Board) : Prop :=
  ∀ a t, OnBoard b a → OnBoard b t → (BlockedBy b t a ↔ Blocks b a t)

/-! ## What an edge changes -/

/-- `b'` is `b` with edges from the task to the blockers, in both directions where it can. -/
structure Adds (b b' : Board) (taskId : String) (ids : List String) : Prop where
  typed : EdgesTyped b'
  onBoard : ∀ i, OnBoard b' i ↔ OnBoard b i
  blockedBy : ∀ t x, OnBoard b t → (BlockedBy b' t x ↔ BlockedBy b t x ∨ t = taskId ∧ x ∈ ids)
  blocks : ∀ a x, OnBoard b a → (Blocks b' a x ↔ Blocks b a x ∨ x = taskId ∧ a ∈ ids)

theorem Adds.mirror {b b' : Board} {taskId : String} {ids : List String} (h : Adds b b' taskId ids)
    (hmirror : Mirror b) : Mirror b' := by
  intro a t ha ht
  rw [h.onBoard] at ha ht
  rw [h.blockedBy t a ht, h.blocks a t ha, hmirror a t ha ht]

theorem Edged.adds {b b' : Board} {taskId : String} {ids : List String}
    (h : Edged (fun t x => t = taskId ∧ x ∈ ids) (fun x t => t = taskId ∧ x ∈ ids) b b')
    (htyped : EdgesTyped b) :
    Adds b b' taskId ids where
  typed := h.typed htyped
  onBoard := h.select_isSome
  blockedBy _ x ht := h.blockedBy_iff htyped ht x
  blocks _ x ha := h.blocks_iff htyped ha x

theorem addBlockedBy_adds {b : Board} (htyped : EdgesTyped b) (taskId : String)
    (ids : List String) :
    (addBlockedBy b taskId ids).2 = b ∨
      Adds b (addBlockedBy b taskId ids).2 taskId (ids.filter (· != "")) := by
  by_cases hon : OnBoard b taskId
  · right
    have hne : ∀ x ∈ ids.filter (· != ""), x ≠ "" :=
      fun x hx => bne_iff_ne.mp (List.mem_filter.mp hx).2
    obtain ⟨-, hedged⟩ := addBlockedBy_edged htyped _ hne fun _ => hon
    rw [addBlockedBy_filter] at hedged
    exact hedged.adds htyped
  · left
    have hnone : b.select taskId = none := Option.not_isSome_iff_eq_none.mp hon
    simp only [addBlockedBy, hnone]
    split <;> rfl

theorem addBlockedBy_mirror {b : Board} (htyped : EdgesTyped b) (taskId : String)
    (ids : List String) :
    EdgesTyped (addBlockedBy b taskId ids).2 ∧
      (Mirror b → Mirror (addBlockedBy b taskId ids).2) := by
  rcases addBlockedBy_adds htyped taskId ids with heq | hadds
  · rw [heq]
    exact ⟨htyped, id⟩
  · exact ⟨hadds.typed, hadds.mirror⟩

theorem addBlocksLoop_mirror {b : Board} (htyped : EdgesTyped b) (taskId : String)
    (ids : List String) :
    EdgesTyped (addBlocksLoop b taskId ids).2 ∧
      (Mirror b → Mirror (addBlocksLoop b taskId ids).2) := by
  induction ids generalizing b with
  | nil => exact ⟨htyped, id⟩
  | cons blocked rest ih =>
    obtain ⟨htyped', hmirror⟩ := addBlockedBy_mirror htyped blocked [taskId]
    simp only [addBlocksLoop]
    split
    · rename_i heq
      rw [heq] at htyped' hmirror
      exact ⟨htyped', hmirror⟩
    · rename_i heq
      rw [heq] at htyped' hmirror
      obtain ⟨htyped'', hmirror'⟩ := ih htyped'
      exact ⟨htyped'', fun h => hmirror' (hmirror h)⟩

/-! ## Calls that leave the edges alone -/

/-- All that the edges depend on. -/
def edgeColumns (b : Board) : List (String × Option Text × Option Text) :=
  b.tasks.map fun r => (r.id, r.blockedBy, r.blocks)

theorem blockedBy_iff (b : Board) (taskId x : String) :
    BlockedBy b taskId x ↔ ∃ e ∈ edgeColumns b, e.1 = taskId ∧ Names e.2.1 x := by
  simp only [BlockedBy, select_eq_some, edgeColumns, List.mem_map, and_assoc, exists_exists_and_eq_and]

theorem blocks_iff (b : Board) (blocker x : String) :
    Blocks b blocker x ↔ ∃ e ∈ edgeColumns b, e.1 = blocker ∧ Names e.2.2 x := by
  simp only [Blocks, select_eq_some, edgeColumns, List.mem_map, and_assoc, exists_exists_and_eq_and]

theorem onBoard_iff (b : Board) (id : String) : OnBoard b id ↔ ∃ e ∈ edgeColumns b, e.1 = id := by
  simp only [OnBoard, Option.isSome_iff_exists, select_eq_some, edgeColumns, List.mem_map,
    exists_exists_and_eq_and]

theorem edgesTyped_iff (b : Board) :
    EdgesTyped b ↔ ∀ e ∈ edgeColumns b, HoldsIds e.2.1 ∧ HoldsIds e.2.2 := by
  simp [EdgesTyped, edgeColumns]

theorem same_edges {b b' : Board} (h : edgeColumns b' = edgeColumns b) :
    (EdgesTyped b' ↔ EdgesTyped b) ∧ (Mirror b' ↔ Mirror b) := by
  simp only [edgesTyped_iff, Mirror, onBoard_iff, blockedBy_iff, blocks_iff, h, and_self]

theorem edgeColumns_modify (b : Board) (id : String) (f : Row → Row) (hf : ∀ r, (f r).id = r.id)
    (hedges : ∀ r, (f r).blockedBy = r.blockedBy ∧ (f r).blocks = r.blocks) :
    edgeColumns (b.modify id f hf) = edgeColumns b := by
  simp only [edgeColumns, Board.modify, List.map_map]
  refine List.map_congr_left fun r _ => ?_
  simp only [Function.comp_apply]
  split
  · rw [hf, (hedges r).1, (hedges r).2]
  · rfl

def Field.isEdge : Field → Bool
  | .blockedBy _ | .blocks _ => true
  | _ => false

theorem setAll_edges {fields : List Field} (h : ∀ f ∈ fields, f.isEdge = false) (r : Row) :
    (setAll fields r).blockedBy = r.blockedBy ∧ (setAll fields r).blocks = r.blocks := by
  induction fields generalizing r with
  | nil => exact ⟨rfl, rfl⟩
  | cons f rest ih =>
    obtain ⟨hf, hrest⟩ := List.forall_mem_cons.mp h
    have hset : (Field.set r f).blockedBy = r.blockedBy ∧ (Field.set r f).blocks = r.blocks := by
      cases f <;> first | exact ⟨rfl, rfl⟩ | simp [Field.isEdge] at hf
    obtain ⟨hby, hblocks⟩ := ih hrest (Field.set r f)
    exact ⟨hby.trans hset.1, hblocks.trans hset.2⟩

theorem update_edges {b : Board} (hb : Faithful b) (taskId : String) {fields : List Field}
    (h : ∀ f ∈ fields, f.isEdge = false) (reason : Option String) (ts : ℚ) :
    edgeColumns (update b taskId fields reason ts).2 = edgeColumns b := by
  have hkept : edgeColumns (written b taskId fields) = edgeColumns b :=
    edgeColumns_modify b taskId _ _ (setAll_edges h)
  rcases update_cases b taskId fields reason ts with heq | ⟨r, b', hr, hrow, hcase⟩
  · rw [heq]
  obtain rfl := updateRow_faithful b b' taskId fields r hr hrow hb
  rcases hcase with ⟨-, heq⟩ | ⟨s, -, -, ⟨heq, -⟩ | heq⟩
  all_goals
    rw [heq]
    exact hkept

theorem claimOne_edges (b : Board) (workerId : String) (rh : Option String) (now ts : ℚ) :
    edgeColumns (claimOne b workerId rh now ts).2 = edgeColumns b := by
  rcases claimOne_cases b rh workerId now ts with ⟨-, heq, -⟩ | ⟨r, -, -, -, -, -, heq⟩
  · rw [heq]
  · rw [heq]
    exact edgeColumns_modify b r.id _ (claimRow_id workerId now) fun _ => ⟨rfl, rfl⟩

/-! ## Submit -/

/-- The task names as blockers the tasks that name it, and the other way round. -/
def Matches (b : Board) (task : Task) : Prop :=
  (∀ a, OnBoard b a → (Names task.toRow.blockedBy a ↔ Blocks b a task.id)) ∧
    (∀ t, OnBoard b t → (BlockedBy b t task.id ↔ Names task.toRow.blocks t)) ∧
    (Names task.toRow.blockedBy task.id ↔ Names task.toRow.blocks task.id)

theorem submit_known {b : Board} {task : Task} (h : OnBoard b task.id) (ts : ℚ) :
    (submit b task ts).2 = b := by
  rcases submit_cases b task ts with heq | ⟨hnew, -⟩
  · exact heq
  · obtain ⟨r, hr⟩ := Option.isSome_iff_exists.mp h
    obtain ⟨hmem, hid⟩ := select_mem b _ r hr
    exact absurd hid (hnew r hmem)

theorem submit_new {b : Board} {task : Task} (h : ¬ OnBoard b task.id) (ts : ℚ) :
    edgeColumns (submit b task ts).2 =
      edgeColumns b ++ [(task.id, task.toRow.blockedBy, task.toRow.blocks)] := by
  have hnew : ∀ r ∈ b.tasks, r.id ≠ task.id := fun r hr hid =>
    h (by rw [OnBoard, ← hid, select_of_mem b r hr]; rfl)
  simp [edgeColumns, (submit_fresh b task ts hnew).1, Task.toRow]

theorem mirror_submitted {b b' : Board} {task : Task} (hmirror : Mirror b)
    (hnew : ¬ OnBoard b task.id)
    (h : edgeColumns b' = edgeColumns b ++ [(task.id, task.toRow.blockedBy, task.toRow.blocks)]) :
    Mirror b' ↔ Matches b task := by
  have hon : ∀ i, OnBoard b' i ↔ OnBoard b i ∨ i = task.id := fun i => by
    simp [onBoard_iff, h, or_and_right, exists_or, eq_comm]
  have hby : ∀ t x, BlockedBy b' t x ↔ BlockedBy b t x ∨ t = task.id ∧ Names task.toRow.blockedBy x :=
    fun t x => by simp [blockedBy_iff, h, or_and_right, exists_or, eq_comm]
  have hblocks : ∀ a x, Blocks b' a x ↔ Blocks b a x ∨ a = task.id ∧ Names task.toRow.blocks x :=
    fun a x => by simp [blocks_iff, h, or_and_right, exists_or, eq_comm]
  have hnoBy : ∀ x, ¬ BlockedBy b task.id x := by
    rintro x ⟨r, hr, -⟩
    exact hnew (by simp [OnBoard, hr])
  have hnoBlocks : ∀ x, ¬ Blocks b task.id x := by
    rintro x ⟨r, hr, -⟩
    exact hnew (by simp [OnBoard, hr])
  have hne : ∀ i, OnBoard b i → i ≠ task.id := by
    rintro i hi rfl
    exact hnew hi
  -- Each pair with the new task is a condition of its own, and old pairs are as they were.
  constructor
  · intro hm
    refine ⟨fun a ha => ?_, fun t ht => ?_, ?_⟩
    · have hiff := hm a task.id ((hon a).mpr (.inl ha)) ((hon _).mpr (.inr rfl))
      simpa [hby, hblocks, hnoBy, hne a ha] using hiff
    · have hiff := hm task.id t ((hon _).mpr (.inr rfl)) ((hon t).mpr (.inl ht))
      simpa [hby, hblocks, hnoBlocks, hne t ht] using hiff
    · have hiff := hm task.id task.id ((hon _).mpr (.inr rfl)) ((hon _).mpr (.inr rfl))
      simpa [hby, hblocks, hnoBy, hnoBlocks] using hiff
  · rintro ⟨hold, hold', hself⟩ a t ha ht
    rw [hon] at ha ht
    rcases ha with ha | rfl <;> rcases ht with ht | rfl
    · simpa [hby, hblocks, hne a ha, hne t ht] using hmirror a t ha ht
    · simpa [hby, hblocks, hnoBy, hne a ha] using hold a ha
    · simpa [hby, hblocks, hnoBlocks, hne t ht] using hold' t ht
    · simpa [hby, hblocks, hnoBy, hnoBlocks] using hself

/-! ## Any calls -/

/-- Tasks come with lists of ids, and updates leave the two columns alone. -/
def Call.Plain : Call → Prop
  | .submit task _ =>
    (∃ ids, task.blockedBy = .ofStrs ids) ∧ ∃ ids, task.blocks = .ofStrs ids
  | .update _ fields _ _ => ∀ f ∈ fields, f.isEdge = false
  | _ => True

def call (c : Call) (b : Board) : Option Board := some (c.apply b)

/-- A submitted task that is new to the board matches it. -/
def SubmitMatches (b : Board) : Call → Prop
  | .submit task _ => ¬ OnBoard b task.id → Matches b task
  | _ => True

theorem typed_submitted {b : Board} (h : EdgesTyped b) (task : Task) (ts : ℚ)
    (hplain : (Call.submit task ts).Plain) : EdgesTyped (submit b task ts).2 := by
  by_cases hon : OnBoard b task.id
  · rwa [submit_known hon]
  · obtain ⟨⟨ids, hids⟩, ids', hids'⟩ := hplain
    rw [edgesTyped_iff] at h ⊢
    rw [submit_new hon]
    intro e he
    rcases List.mem_append.mp he with he | he
    · exact h e he
    · obtain rfl := List.mem_singleton.mp he
      exact ⟨⟨ids, by simp [Task.toRow, hids]⟩, ⟨ids', by simp [Task.toRow, hids']⟩⟩

theorem plain_step {b : Board} (hb : Faithful b) (htyped : EdgesTyped b) {c : Call}
    (hplain : c.Plain) :
    EdgesTyped (c.apply b) ∧ (Mirror b → (Mirror (c.apply b) ↔ SubmitMatches b c)) := by
  have hsame : ∀ {b'}, edgeColumns b' = edgeColumns b → EdgesTyped b' ∧ (Mirror b → (Mirror b' ↔ True)) :=
    fun h => ⟨(same_edges h).1.mpr htyped, fun hm => iff_of_true ((same_edges h).2.mpr hm) trivial⟩
  cases c with
  | submit task ts =>
    refine ⟨typed_submitted htyped task ts hplain, fun hm => ?_⟩
    simp only [Call.apply, SubmitMatches]
    by_cases hon : OnBoard b task.id
    · simp [submit_known hon, hm, hon]
    · rw [mirror_submitted hm hon (submit_new hon ts)]
      simp [hon]
  | update taskId fields reason ts => exact hsame (update_edges hb taskId hplain reason ts)
  | transition taskId toStatus reason ts =>
    exact hsame (update_edges hb taskId (by simp [Field.isEdge]) reason ts)
  | addBlockedBy taskId ids =>
    obtain ⟨htyped', hmirror⟩ := addBlockedBy_mirror htyped taskId ids
    exact ⟨htyped', fun hm => iff_of_true (hmirror hm) trivial⟩
  | addBlocks taskId ids =>
    obtain ⟨htyped', hmirror⟩ := addBlocksLoop_mirror htyped taskId (ids.filter (· != ""))
    exact ⟨htyped', fun hm => iff_of_true (hmirror hm) trivial⟩
  | claimOne workerId rh now ts => exact hsame (claimOne_edges b workerId rh now ts)

/-- **When the two columns mirror each other, on every board of a run.** -/
theorem mirror_iff (calls : List Call) (hplain : ∀ c ∈ calls, c.Plain) :
    (∀ taken ∈ path call .empty calls, Mirror taken.after) ↔
      ∀ taken ∈ path call .empty calls, SubmitMatches taken.before taken.label := by
  refine @path_good_iff_of_allowed Board Call call (fun b => Faithful b ∧ EdgesTyped b) Mirror
    SubmitMatches (fun taken => taken.label.Plain) ?_ ?_ .empty calls ?_ ?_ ?_
  · rintro b c b' ⟨hb, htyped⟩ hp hstep
    obtain rfl := Option.some.inj hstep
    exact ⟨faithful_apply b c hb, (plain_step hb htyped hp).1⟩
  · rintro b c b' ⟨hb, htyped⟩ hm hp hstep
    obtain rfl := Option.some.inj hstep
    exact (plain_step hb htyped hp).2 hm
  · exact ⟨faithful_empty, by simp [EdgesTyped, Board.empty]⟩
  · intro a t ha
    simp [OnBoard, Board.select, Board.empty] at ha
  · exact fun taken htaken => hplain _ (label_mem_of_path htaken)

/-! ## An edge that is submitted -/

/-- The edge is added when both tasks are there. -/
def addedEdge : List Call :=
  [.submit (Task.new "a" 0) 0, .submit (Task.new "b" 1) 1, .addBlockedBy "b" ["a"],
    .claimOne "w1" none 2 2]

def noEdges (b : Board) : Bool := b.tasks.all fun r => r.blockedBy.isNone && r.blocks.isNone

theorem matches_of_noEdges {b : Board} (h : noEdges b = true) (id : String) (createdAt : ℚ) :
    Matches b (Task.new id createdAt) := by
  have hnull : ∀ r ∈ b.tasks, r.blockedBy = none ∧ r.blocks = none := by
    simpa [noEdges, List.all_eq_true] using h
  have hby : ∀ t x, ¬ BlockedBy b t x := by
    rintro t x ⟨r, hr, hnames⟩
    rw [(hnull r (select_mem b t r hr).1).1] at hnames
    exact not_names_none x hnames
  have hblocks : ∀ a x, ¬ Blocks b a x := by
    rintro a x ⟨r, hr, hnames⟩
    rw [(hnull r (select_mem b a r hr).1).2] at hnames
    exact not_names_none x hnames
  have hnew : (Task.new id createdAt).toRow.blockedBy = none ∧ (Task.new id createdAt).toRow.blocks = none :=
    ⟨rfl, rfl⟩
  simp [Matches, hby, hblocks, hnew, not_names_none]

theorem addedEdge_mirrors :
    ∃ taken ∈ path call .empty addedEdge, BlockedBy taken.after "b" "a" ∧ Mirror taken.after := by
  have hplain : ∀ c ∈ addedEdge, c.Plain := by
    simp only [addedEdge, List.forall_mem_cons, List.not_mem_nil, false_implies, implies_true, and_true]
    exact ⟨⟨⟨[], rfl⟩, ⟨[], rfl⟩⟩, ⟨⟨[], rfl⟩, ⟨[], rfl⟩⟩, trivial, trivial⟩
  have hmatches : ∀ taken ∈ path call .empty addedEdge, SubmitMatches taken.before taken.label := by
    simp only [addedEdge]
    have hcons :=
      @forall_path_cons Board Call call fun taken => SubmitMatches taken.before taken.label
    refine (hcons rfl).mpr ⟨fun _ => matches_of_noEdges rfl "a" 0, ?_⟩
    refine (hcons rfl).mpr ⟨fun _ => matches_of_noEdges (by decide +kernel) "b" 1, ?_⟩
    exact (hcons rfl).mpr ⟨trivial, (hcons rfl).mpr ⟨trivial, by simp [path]⟩⟩
  have hthere : ∃ taken ∈ path call .empty addedEdge, BlockedBy taken.after "b" "a" := by
    decide +kernel
  obtain ⟨taken, htaken, hedge⟩ := hthere
  exact ⟨taken, htaken, hedge, (mirror_iff addedEdge hplain).mpr hmatches taken htaken⟩

/-- The second task comes with its blocker. -/
def submittedEdge : List Call :=
  [.submit (Task.new "a" 0) 0, .submit { Task.new "b" 1 with blockedBy := .ofStrs ["a"] } 1]

theorem submittedEdge_not_mirrored :
    (∀ c ∈ submittedEdge, c.Plain) ∧
      ∃ taken ∈ path call .empty submittedEdge, ¬ Mirror taken.after := by
  constructor
  · simp only [submittedEdge, List.forall_mem_cons, List.not_mem_nil, false_implies, implies_true, and_true]
    exact ⟨⟨⟨[], rfl⟩, ⟨[], rfl⟩⟩, ⟨["a"], rfl⟩, ⟨[], rfl⟩⟩
  · have hone : ∃ taken ∈ path call .empty submittedEdge, (taken.after.select "a").isSome ∧
        (taken.after.select "b").isSome ∧ BlockedBy taken.after "b" "a" ∧ ¬ Blocks taken.after "a" "b" := by
      decide +kernel
    obtain ⟨taken, htaken, ha, hb, hby, hblocks⟩ := hone
    exact ⟨taken, htaken, fun hm => hblocks ((hm "a" "b" ha hb).mp hby)⟩

end Swarm.Kanban
