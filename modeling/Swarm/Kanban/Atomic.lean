import Swarm.Kanban.Gains
import Swarm.Kanban.Statements
import Swarm.Kanban.TornUpdate
import Swarm.Lib.Attempt

/-!
# Which calls may raise after they have written

The edges are written one statement at a time, and so is a list of them.
-/

namespace Swarm.Kanban

open Lib

/-! ## The edge columns -/

/-- The `blocked_by` column of a task. -/
def blockedByAt (b : Board) (id : String) : Option (Option Text) := (b.select id).map (·.blockedBy)

def blocksAt (b : Board) (id : String) : Option (Option Text) := (b.select id).map (·.blocks)

def withBlockedBy (b : Board) (id : String) (col : Option Text) : Board :=
  b.modify id (fun r => { r with blockedBy := col }) (blockedBy_keeps_id col)

def withBlocks (b : Board) (id : String) (col : Option Text) : Board :=
  b.modify id (fun r => { r with blocks := col }) (blocks_keeps_id col)

/-- What `add_blocked_by` reads of the task. -/
def currentAt (b : Board) (taskId : String) : Except PyError (List String) :=
  match blockedByAt b taskId with
  | none => .error (.keyError taskId)
  | some col => loadList col >>= asStrs

/-- What it writes there. -/
def merged (current ids : List String) : Option Text := dumps (.ofStrs (sortedSet (current ++ ids)))

/-- What the mirror loop finds at one blocker: nothing to do, or the ids to write. -/
def mirrorAt (b : Board) (taskId blocker : String) : Except PyError (Option (List String)) :=
  match blocksAt b blocker with
  | none => .ok none
  | some col => loadList col >>= mirrored taskId

section Columns

variable (b : Board) (id : String) (col : Option Text) (x : String)

theorem blockedByAt_withBlocks : blockedByAt (withBlocks b id col) x = blockedByAt b x :=
  select_modify_column b id (blocks_keeps_id col) (fun _ => rfl) x

theorem blocksAt_withBlockedBy : blocksAt (withBlockedBy b id col) x = blocksAt b x :=
  select_modify_column b id (blockedBy_keeps_id col) (fun _ => rfl) x

theorem blockedByAt_other (h : x ≠ id) : blockedByAt (withBlockedBy b id col) x = blockedByAt b x :=
  congrArg (Option.map _) (select_modify_other b _ (blockedBy_keeps_id col) h)

theorem blocksAt_other (h : x ≠ id) : blocksAt (withBlocks b id col) x = blocksAt b x :=
  congrArg (Option.map _) (select_modify_other b _ (blocks_keeps_id col) h)

variable {b id}

theorem blockedByAt_self (h : (blockedByAt b id).isSome) :
    blockedByAt (withBlockedBy b id col) id = some col := by
  obtain ⟨r, hr⟩ := Option.isSome_iff_exists.mp (by simpa [blockedByAt] using h)
  unfold blockedByAt withBlockedBy
  rw [select_modify_self b id _ _ r hr]
  rfl

theorem blocksAt_self (h : (blocksAt b id).isSome) :
    blocksAt (withBlocks b id col) id = some col := by
  obtain ⟨r, hr⟩ := Option.isSome_iff_exists.mp (by simpa [blocksAt] using h)
  unfold blocksAt withBlocks
  rw [select_modify_self b id _ _ r hr]
  rfl

theorem withBlockedBy_same {col : Option Text} (h : blockedByAt b id = some col) :
    withBlockedBy b id col = b := by
  obtain ⟨r, hr, rfl⟩ := Option.map_eq_some_iff.mp h
  exact modify_same (blockedBy_keeps_id _) hr rfl

end Columns

/-! ## The mirror loop -/

/-- One round of the mirror loop. -/
def mirrorStep (taskId : String) (b : Board) (blocker : String) : Except PyError Unit × Board :=
  match mirrorAt b taskId blocker with
  | .error e => (.error e, b)
  | .ok none => (.ok (), b)
  | .ok (some blist) => (.ok (), withBlocks b blocker (some (.json (.ofStrs blist))))

/-- The round of a blocker raises. -/
def MirrorFails (taskId : String) (b : Board) (blocker : String) : Prop :=
  ∃ e, mirrorAt b taskId blocker = .error e

/-- The blocker has the task already. -/
def Mirrored (taskId : String) (b : Board) (blocker : String) : Prop :=
  mirrorAt b taskId blocker = .ok none

theorem mirrorLoop_eq (taskId : String) (b : Board) (ids : List String) :
    mirrorLoop taskId b ids = attempt (mirrorStep taskId) b ids := by
  induction ids generalizing b with
  | nil => rfl
  | cons blocker rest ih =>
    unfold mirrorLoop attempt mirrorStep mirrorAt blocksAt
    cases b.select blocker with
    | none => exact ih b
    | some brow =>
      dsimp only [Option.map_some]
      cases loadList brow.blocks >>= mirrored taskId with
      | error e => rfl
      | ok found =>
        cases found with
        | none => exact ih b
        | some blist => exact ih _

theorem mirrored_strs (ids : List String) (x : String) :
    mirrored x (.ofStrs ids) = .ok (if x ∈ ids then none else some ((ids ++ [x]).insertionSort (· ≤ ·))) :=
  mirrored_ids (idsOf_text ids) x

section Mirror

variable {b : Board} {taskId blocker : String}

theorem mirrorStep_none (h : Mirrored taskId b blocker) :
    mirrorStep taskId b blocker = (.ok (), b) := by
  unfold mirrorStep
  rw [h]

theorem mirrorStep_fails (h : MirrorFails taskId b blocker) :
    ∃ e, mirrorStep taskId b blocker = (.error e, b) := by
  obtain ⟨e, he⟩ := h
  refine ⟨e, ?_⟩
  unfold mirrorStep
  rw [he]

theorem mirrorStep_blockedBy (b : Board) (taskId blocker x : String) :
    blockedByAt (mirrorStep taskId b blocker).2 x = blockedByAt b x := by
  unfold mirrorStep
  split
  · rfl
  · rfl
  · exact blockedByAt_withBlocks b blocker _ x

theorem mirrorStep_other (b : Board) (taskId : String) {blocker y : String} (hy : y ≠ blocker)
    (x : String) :
    mirrorAt (mirrorStep taskId b blocker).2 x y = mirrorAt b x y := by
  have hblocks : blocksAt (mirrorStep taskId b blocker).2 y = blocksAt b y := by
    unfold mirrorStep
    split
    · rfl
    · rfl
    · exact blocksAt_other b blocker _ y hy
  unfold mirrorAt
  rw [hblocks]

/-- A step leaves the column, or finds a list of ids there and writes one that has the task too. -/
theorem mirrorStep_cases (b : Board) (taskId blocker : String) :
    (MirrorFails taskId b blocker ∨ Mirrored taskId b blocker) ∧
      (mirrorStep taskId b blocker).2 = b ∨
      ∃ ids blist, taskId ∈ blist ∧ (∀ x ∈ ids, x ∈ blist) ∧
        ∀ x, mirrorAt b x blocker = mirrored x (.ofStrs ids) ∧
          mirrorAt (mirrorStep taskId b blocker).2 x blocker = mirrored x (.ofStrs blist) := by
  cases hfound : mirrorAt b taskId blocker with
  | error e =>
    obtain ⟨e', hstep⟩ := mirrorStep_fails ⟨e, hfound⟩
    exact .inl ⟨.inl ⟨e, hfound⟩, by rw [hstep]⟩
  | ok found =>
    cases found with
    | none => exact .inl ⟨.inr hfound, by rw [mirrorStep_none hfound]⟩
    | some blist =>
      right
      have hstep : (mirrorStep taskId b blocker).2 = withBlocks b blocker (some (.json (.ofStrs blist))) := by
        rw [mirrorStep, hfound]
      rw [hstep]
      unfold mirrorAt at hfound
      cases hcol : blocksAt b blocker with
      | none => simp [hcol] at hfound
      | some col =>
        simp only [hcol] at hfound
        cases hload : loadList col with
        | error e => simp [hload, bind, Except.bind] at hfound
        | ok v =>
          simp only [hload, bind, Except.bind] at hfound
          obtain ⟨ids, rfl, rfl⟩ := mirrored_writes hfound
          refine ⟨ids, (ids ++ [taskId]).insertionSort (· ≤ ·), by simp [List.mem_insertionSort],
            by simp +contextual [List.mem_insertionSort], fun x => ⟨?_, ?_⟩⟩
          · rw [mirrorAt, hcol]
            dsimp only
            rw [hload]
            rfl
          · rw [mirrorAt, blocksAt_self _ (by rw [hcol]; rfl)]
            rfl

theorem mirrorStep_fails_iff (b : Board) (taskId blocker x y : String) :
    MirrorFails x (mirrorStep taskId b blocker).2 y ↔ MirrorFails x b y := by
  unfold MirrorFails
  by_cases hy : y = blocker
  · subst hy
    rcases mirrorStep_cases b taskId y with ⟨-, hsame⟩ | ⟨ids, blist, -, -, hwrites⟩
    · rw [hsame]
    · rw [(hwrites x).1, (hwrites x).2, mirrored_strs, mirrored_strs]
      simp
  · rw [mirrorStep_other b taskId hy]

theorem mirrorStep_keeps (taskId blocker : String) {x y : String} (h : Mirrored x b y) :
    Mirrored x (mirrorStep taskId b blocker).2 y := by
  unfold Mirrored at h ⊢
  by_cases hy : y = blocker
  · subst hy
    rcases mirrorStep_cases b taskId y with ⟨-, hsame⟩ | ⟨ids, blist, -, hids, hwrites⟩
    · rw [hsame]
      exact h
    · rw [(hwrites x).1, mirrored_strs] at h
      have hx : x ∈ ids := by
        by_contra hx
        simp [hx] at h
      rw [(hwrites x).2, mirrored_strs, if_pos (hids x hx)]
  · rw [mirrorStep_other b taskId hy]
    exact h

theorem mirrorStep_settles (h : ¬ MirrorFails taskId b blocker) :
    Mirrored taskId (mirrorStep taskId b blocker).2 blocker := by
  rcases mirrorStep_cases b taskId blocker with ⟨hfound, hsame⟩ | ⟨ids, blist, hmem, -, hwrites⟩
  · rw [hsame]
    exact hfound.resolve_left h
  · rw [Mirrored, (hwrites taskId).2, mirrored_strs, if_pos hmem]

theorem mirrorStep_raises_iff :
    (∃ e, (mirrorStep taskId b blocker).1 = .error e) ↔ MirrorFails taskId b blocker := by
  constructor
  · rintro ⟨e, he⟩
    unfold mirrorStep at he
    split at he
    · next e' hfound => exact ⟨e', hfound⟩
    · cases he
    · cases he
  · intro h
    obtain ⟨e, hstep⟩ := mirrorStep_fails h
    exact ⟨e, by rw [hstep]⟩

theorem mirror_separate (taskId : String) :
    Separate (mirrorStep taskId) (MirrorFails taskId) (Mirrored taskId) where
  fails _ _ := mirrorStep_raises_iff
  settled _ _ := mirrorStep_none
  settles _ _ := mirrorStep_settles
  keeps _ _ _ := mirrorStep_keeps taskId _
  fails_after b blocker y _ := mirrorStep_fails_iff b taskId blocker taskId y

end Mirror

/-! ## `add_blocked_by` -/

/-- The task's column is written, and then a blocker cannot be mirrored. -/
def TornBlockedBy (b : Board) (taskId : String) (blockerIds : List String) : Prop :=
  let ids := blockerIds.filter (· != "")
  ∃ current before x after, currentAt b taskId = .ok current ∧ ids = before ++ x :: after ∧
    (∀ y ∈ before, ¬ MirrorFails taskId b y) ∧ MirrorFails taskId b x ∧
      (blockedByAt b taskId ≠ some (merged current ids) ∨ ∃ y ∈ before, ¬ Mirrored taskId b y)

section BlockedBy

variable {b : Board} {taskId : String}

theorem currentAt_onBoard {current : List String} (h : currentAt b taskId = .ok current) :
    (blockedByAt b taskId).isSome := by
  unfold currentAt at h
  cases hcol : blockedByAt b taskId with
  | none => simp [hcol] at h
  | some col => rfl

theorem addBlockedBy_empty {ids : List String} (h : ids.filter (· != "") = []) :
    addBlockedBy b taskId ids = (.ok (), b) := by
  unfold addBlockedBy
  rw [h]
  rfl

theorem addBlockedBy_unread {ids : List String} {e : PyError} (hids : ids.filter (· != "") ≠ [])
    (h : currentAt b taskId = .error e) : addBlockedBy b taskId ids = (.error e, b) := by
  unfold addBlockedBy
  dsimp only
  rw [if_neg (by simpa using hids)]
  unfold currentAt blockedByAt at h
  cases hr : b.select taskId with
  | none =>
    rw [hr] at h
    cases h
    rfl
  | some row =>
    rw [hr] at h
    dsimp only [Option.map_some] at h ⊢
    rw [h]

theorem addBlockedBy_merged {ids current : List String} (hids : ids.filter (· != "") ≠ [])
    (h : currentAt b taskId = .ok current) :
    addBlockedBy b taskId ids =
      attempt (mirrorStep taskId) (withBlockedBy b taskId (merged current (ids.filter (· != ""))))
        (ids.filter (· != "")) := by
  rw [← mirrorLoop_eq]
  unfold addBlockedBy
  dsimp only
  rw [if_neg (by simpa using hids)]
  unfold currentAt blockedByAt at h
  cases hr : b.select taskId with
  | none =>
    rw [hr] at h
    cases h
  | some row =>
    rw [hr] at h
    dsimp only [Option.map_some] at h ⊢
    rw [h]
    rfl

theorem mirrorAt_withBlockedBy (b : Board) (taskId : String) (col : Option Text) (x y : String) :
    mirrorAt (withBlockedBy b taskId col) x y = mirrorAt b x y := by
  unfold mirrorAt
  rw [blocksAt_withBlockedBy]

theorem tornBlockedBy_iff {ids current : List String} (h : currentAt b taskId = .ok current) :
    TornBlockedBy b taskId ids ↔ ∃ before x after, ids.filter (· != "") = before ++ x :: after ∧
      (∀ y ∈ before, ¬ MirrorFails taskId b y) ∧ MirrorFails taskId b x ∧
        (blockedByAt b taskId ≠ some (merged current (ids.filter (· != ""))) ∨
          ∃ y ∈ before, ¬ Mirrored taskId b y) := by
  constructor
  · rintro ⟨current', before, x, after, hok, hrest⟩
    rw [h] at hok
    cases hok
    exact ⟨before, x, after, hrest⟩
  · rintro ⟨before, x, after, hrest⟩
    exact ⟨current, before, x, after, h, hrest⟩

theorem mirrorFails_withBlockedBy (col : Option Text) (x : String) :
    MirrorFails taskId (withBlockedBy b taskId col) x ↔ MirrorFails taskId b x := by
  rw [MirrorFails, mirrorAt_withBlockedBy, MirrorFails]

theorem attempt_blockedBy (h : (blockedByAt b taskId).isSome) (col : Option Text)
    (ids : List String) :
    blockedByAt (attempt (mirrorStep taskId) (withBlockedBy b taskId col) ids).2 taskId =
      some col := by
  -- The loop leaves the task's own column, whatever it does to the others.
  have hkept := attempt_invariant (f := fun c => blockedByAt c taskId)
    (fun c x => mirrorStep_blockedBy c taskId x taskId) (withBlockedBy b taskId col) ids
  rw [hkept, blockedByAt_self col h]

theorem blockedBy_atomic_iff (b : Board) (taskId : String) (blockerIds : List String) :
    UnchangedOnError b (addBlockedBy b taskId blockerIds) ↔
      ¬ TornBlockedBy b taskId blockerIds := by
  by_cases hids : blockerIds.filter (· != "") = []
  · -- Without an id the call does nothing.
    refine iff_of_true (fun _ => by rw [addBlockedBy_empty hids]) ?_
    rintro ⟨current, before, x, after, -, hsplit, -⟩
    rw [hids] at hsplit
    simp at hsplit
  cases hcurrent : currentAt b taskId with
  | error e =>
    refine iff_of_true (fun _ => by rw [addBlockedBy_unread hids hcurrent]) ?_
    rintro ⟨current, before, x, after, hok, -⟩
    rw [hcurrent] at hok
    cases hok
  | ok current =>
    have hsep := mirror_separate taskId
    rw [addBlockedBy_merged hids hcurrent, tornBlockedBy_iff hcurrent]
    generalize merged current (blockerIds.filter (· != "")) = col
    by_cases hcol : blockedByAt b taskId = some col
    · -- The first statement changes nothing.
      rw [withBlockedBy_same hcol, UnchangedOnError, attempt_atomic_iff hsep, not_iff_not]
      have hstep : ∀ x, MirrorFails taskId b x → (mirrorStep taskId b x).2 = b := by
        intro x hx
        obtain ⟨e, hstep⟩ := mirrorStep_fails hx
        rw [hstep]
      constructor
      · rintro ⟨before, x, after, hsplit, hbefore, hx, hy | hne⟩
        · exact ⟨before, x, after, hsplit, hbefore, hx, .inr hy⟩
        · exact absurd (hstep x hx) hne
      · rintro ⟨before, x, after, hsplit, hbefore, hx, hne | hy⟩
        · exact absurd hcol hne
        · exact ⟨before, x, after, hsplit, hbefore, hx, .inl hy⟩
    · -- It changes the task's column, and the loop does not change it back.
      have hchanged : ∀ ids, (attempt (mirrorStep taskId) (withBlockedBy b taskId col) ids).2 ≠ b := by
        intro ids hsame
        have hat := attempt_blockedBy (currentAt_onBoard hcurrent) col ids
        rw [hsame] at hat
        exact hcol hat
      have hraises : (∃ e, (attempt (mirrorStep taskId) (withBlockedBy b taskId col)
          (blockerIds.filter (· != ""))).1 = .error e) ↔
          ∃ x ∈ blockerIds.filter (· != ""), MirrorFails taskId (withBlockedBy b taskId col) x :=
        attempt_raises_iff hsep
      simp only [mirrorFails_withBlockedBy] at hraises
      unfold UnchangedOnError
      rw [hraises, imp_iff_not (hchanged _), not_iff_not]
      constructor
      · intro hfail
        obtain ⟨before, x, after, hsplit, hbefore, hx⟩ := first_failing hfail
        exact ⟨before, x, after, hsplit, hbefore, hx, .inl hcol⟩
      · rintro ⟨before, x, after, hsplit, -, hx, -⟩
        exact ⟨x, by simp [hsplit], hx⟩

end BlockedBy

/-! ## `add_blocks` -/

/-- Nothing can be added to the task, or the mirror of it cannot be written. -/
def Unlinkable (id : String) (b : Board) (taskId : String) : Prop :=
  (∃ e, currentAt b taskId = .error e) ∨ MirrorFails taskId b id

/-- The edge is there at both ends, and a call has nothing to write. -/
def Linked (id : String) (b : Board) (taskId : String) : Prop :=
  (∃ current, currentAt b taskId = .ok current ∧ blockedByAt b taskId = some (merged current [id])) ∧
    Mirrored taskId b id

/-- One round of `add_blocks`. -/
def linkStep (id : String) (b : Board) (taskId : String) : Except PyError Unit × Board :=
  addBlockedBy b taskId [id]

theorem addBlocksLoop_eq (id : String) (b : Board) (ids : List String) :
    addBlocksLoop b id ids = attempt (linkStep id) b ids := by
  induction ids generalizing b with
  | nil => rfl
  | cons blocked rest ih =>
    unfold addBlocksLoop attempt linkStep
    obtain ⟨result, b'⟩ := addBlockedBy b blocked [id]
    cases result with
    | error e => rfl
    | ok u => exact ih b'

theorem sortedSet_congr {l l' : List String} (h : ∀ x, x ∈ l ↔ x ∈ l') :
    sortedSet l = sortedSet l' := by
  have hdedup : l.dedup.Perm l'.dedup := by
    apply (List.perm_ext_iff_of_nodup (List.nodup_dedup l) (List.nodup_dedup l')).mpr
    simpa using h
  have hperm : (sortedSet l).Perm (sortedSet l') :=
    (List.perm_insertionSort _ _).trans (hdedup.trans (List.perm_insertionSort _ _).symm)
  exact hperm.eq_of_sortedLE List.sortedLE_insertionSort List.sortedLE_insertionSort

theorem merged_again (current ids : List String) :
    merged (sortedSet (current ++ ids)) ids = merged current ids := by
  unfold merged
  apply congrArg fun l => dumps (.ofStrs l)
  apply sortedSet_congr
  intro x
  simp [mem_sortedSet]

theorem currentAt_merged {b : Board} {taskId : String} {current ids : List String}
    (h : blockedByAt b taskId = some (merged current ids)) :
    currentAt b taskId = .ok (sortedSet (current ++ ids)) := by
  unfold currentAt
  rw [h]
  unfold merged
  dsimp only
  rw [loadList_of_ids _ _ (idsOf_dumps _)]
  exact asStrs_ofStrs _

section Link

variable {id : String} (hid : id ≠ "") {b : Board} {taskId : String}
include hid

theorem linkStep_unread {e : PyError} (h : currentAt b taskId = .error e) :
    linkStep id b taskId = (.error e, b) :=
  addBlockedBy_unread (by simpa using hid) h

theorem linkStep_merged {current : List String} (h : currentAt b taskId = .ok current) :
    linkStep id b taskId = mirrorStep taskId (withBlockedBy b taskId (merged current [id])) id := by
  have hids : [id].filter (· != "") = [id] := by simpa using hid
  unfold linkStep
  rw [addBlockedBy_merged (by simpa using hid) h, hids, attempt_single]

theorem linkStep_raises_iff :
    (∃ e, (linkStep id b taskId).1 = .error e) ↔ Unlinkable id b taskId := by
  cases hcurrent : currentAt b taskId with
  | error e =>
    rw [linkStep_unread hid hcurrent]
    exact iff_of_true ⟨e, rfl⟩ (.inl ⟨e, hcurrent⟩)
  | ok current =>
    rw [linkStep_merged hid hcurrent, mirrorStep_raises_iff]
    simp [Unlinkable, MirrorFails, hcurrent, mirrorAt_withBlockedBy]

theorem linkStep_linked (h : Linked id b taskId) : linkStep id b taskId = (.ok (), b) := by
  obtain ⟨⟨current, hcurrent, hcol⟩, hmirrored⟩ := h
  rw [linkStep_merged hid hcurrent, withBlockedBy_same hcol]
  exact mirrorStep_none hmirrored

theorem linkStep_blockedBy_other {x : String} (hx : x ≠ taskId) :
    blockedByAt (linkStep id b taskId).2 x = blockedByAt b x := by
  cases hcurrent : currentAt b taskId with
  | error e => rw [linkStep_unread hid hcurrent]
  | ok current =>
    rw [linkStep_merged hid hcurrent, mirrorStep_blockedBy, blockedByAt_other b taskId _ x hx]

theorem linkStep_blockedBy {current : List String} (h : currentAt b taskId = .ok current) :
    blockedByAt (linkStep id b taskId).2 taskId = some (merged current [id]) := by
  rw [linkStep_merged hid h, mirrorStep_blockedBy, blockedByAt_self _ (currentAt_onBoard h)]

theorem linkStep_fails_iff (x : String) :
    MirrorFails x (linkStep id b taskId).2 id ↔ MirrorFails x b id := by
  cases hcurrent : currentAt b taskId with
  | error e => rw [linkStep_unread hid hcurrent]
  | ok current =>
    rw [linkStep_merged hid hcurrent, mirrorStep_fails_iff, MirrorFails, mirrorAt_withBlockedBy, MirrorFails]

theorem linkStep_keeps {x : String} (h : Mirrored x b id) :
    Mirrored x (linkStep id b taskId).2 id := by
  cases hcurrent : currentAt b taskId with
  | error e =>
    rw [linkStep_unread hid hcurrent]
    exact h
  | ok current =>
    rw [linkStep_merged hid hcurrent]
    apply mirrorStep_keeps
    rw [Mirrored, mirrorAt_withBlockedBy]
    exact h

theorem linkStep_settles (h : ¬ Unlinkable id b taskId) :
    Linked id (linkStep id b taskId).2 taskId := by
  unfold Unlinkable at h
  push Not at h
  obtain ⟨hread, hmirror⟩ := h
  cases hcurrent : currentAt b taskId with
  | error e => exact absurd hcurrent (hread e)
  | ok current =>
    have hcol := linkStep_blockedBy hid hcurrent
    refine ⟨⟨_, currentAt_merged hcol, ?_⟩, ?_⟩
    · rw [hcol, merged_again]
    · rw [linkStep_merged hid hcurrent]
      apply mirrorStep_settles
      rw [MirrorFails, mirrorAt_withBlockedBy]
      exact hmirror

theorem link_separate : Separate (linkStep id) (Unlinkable id) (Linked id) where
  fails _ _ := linkStep_raises_iff hid
  settled _ _ := linkStep_linked hid
  settles _ _ := linkStep_settles hid
  keeps b x y h := by
    by_cases hxy : y = x
    · rw [hxy] at h ⊢
      rw [linkStep_linked hid h]
      exact h
    · obtain ⟨⟨current, hcurrent, hcol⟩, hmirrored⟩ := h
      have hsame := linkStep_blockedBy_other hid (b := b) hxy
      refine ⟨⟨current, ?_, hsame.trans hcol⟩, linkStep_keeps hid hmirrored⟩
      rw [currentAt, hsame]
      exact hcurrent
  fails_after b x y h := by
    unfold Unlinkable at h ⊢
    push Not at h
    rw [linkStep_fails_iff hid]
    apply or_congr_left
    by_cases hxy : y = x
    · subst hxy
      cases hcurrent : currentAt b y with
      | error e => exact absurd hcurrent (h.1 e)
      | ok current => simp [currentAt_merged (linkStep_blockedBy hid hcurrent)]
    · rw [currentAt, linkStep_blockedBy_other hid hxy, currentAt]

end Link

/-- A blocked task cannot be linked after one that was written, or is written itself first. -/
def TornBlocks (b : Board) (taskId : String) (blockedIds : List String) : Prop :=
  taskId ≠ "" ∧ ∃ before x after, blockedIds.filter (· != "") = before ++ x :: after ∧
    (∀ y ∈ before, ¬ Unlinkable taskId b y) ∧ Unlinkable taskId b x ∧
      ((∃ y ∈ before, ¬ Linked taskId b y) ∨ TornBlockedBy b x [taskId])

theorem blocks_atomic_iff (b : Board) (taskId : String) (blockedIds : List String) :
    UnchangedOnError b (addBlocks b taskId blockedIds) ↔ ¬ TornBlocks b taskId blockedIds := by
  unfold addBlocks
  by_cases hid : taskId = ""
  · subst hid
    rw [Statements.addBlocksLoop_empty]
    exact iff_of_true (fun _ => rfl) fun h => h.1 rfl
  rw [addBlocksLoop_eq, UnchangedOnError, attempt_atomic_iff (link_separate hid), not_iff_not, TornBlocks,
    and_iff_right hid]
  have hwrites : ∀ x, Unlinkable taskId b x → ((linkStep taskId b x).2 ≠ b ↔ TornBlockedBy b x [taskId]) := by
    intro x hx
    rw [← not_iff_comm.mp (blockedBy_atomic_iff b x [taskId]).symm]
    have hraises := (linkStep_raises_iff hid).mpr hx
    exact not_congr ⟨fun h _ => h, fun h => h hraises⟩
  constructor
  · rintro ⟨before, x, after, hsplit, hbefore, hx, htorn⟩
    exact ⟨before, x, after, hsplit, hbefore, hx, htorn.imp_right (hwrites x hx).mp⟩
  · rintro ⟨before, x, after, hsplit, hbefore, hx, htorn⟩
    exact ⟨before, x, after, hsplit, hbefore, hx, htorn.imp_right (hwrites x hx).mpr⟩

/-! ## Any write -/

/-- The calls that write. -/
inductive Write
  | submit (task : Task) (ts : ℚ)
  | update (taskId : String) (fields : List Field) (reason : Reason) (ts : ℚ)
  | transition (taskId : String) (toStatus : TaskStatus) (reason : Reason) (ts : ℚ)
  | addBlockedBy (taskId : String) (blockerIds : List String)
  | addBlocks (taskId : String) (blockedIds : List String)

/-- If the call raises, the board is as it was. -/
def Write.Atomic (b : Board) : Write → Prop
  | .submit task ts => UnchangedOnError b (Kanban.submit b task ts)
  | .update taskId fields reason ts => UnchangedOnError b (updateWith b taskId fields reason ts)
  | .transition taskId toStatus reason ts =>
    UnchangedOnError b (updateWith b taskId [.status toStatus.value] reason ts)
  | .addBlockedBy taskId blockerIds => UnchangedOnError b (Kanban.addBlockedBy b taskId blockerIds)
  | .addBlocks taskId blockedIds => UnchangedOnError b (Kanban.addBlocks b taskId blockedIds)

/-- The call raises after a statement that changes the board. -/
def Write.Torn (b : Board) : Write → Prop
  | .submit _ _ => False
  | .update taskId fields reason _ => TornUpdate b taskId fields reason
  | .transition taskId toStatus reason _ =>
    ∃ r, b.select taskId = some r ∧ toStatus.value ≠ r.status ∧ ∃ e, reason = .error e
  | .addBlockedBy taskId blockerIds => TornBlockedBy b taskId blockerIds
  | .addBlocks taskId blockedIds => TornBlocks b taskId blockedIds

theorem submit_atomic (b : Board) (task : Task) (ts : ℚ) :
    UnchangedOnError b (submit b task ts) := by
  rintro ⟨e, he⟩
  by_cases hnew : ∀ r ∈ b.tasks, r.id ≠ task.id
  · obtain ⟨b', hsubmit, -⟩ := submit_filed b task ts hnew
    rw [hsubmit] at he
    cases he
  · obtain ⟨e', hsubmit⟩ := submit_refused b task ts hnew
    rw [hsubmit]

theorem torn_transition (b : Board) (taskId : String) (toStatus : TaskStatus) (reason : Reason) :
    TornUpdate b taskId [.status toStatus.value] reason ↔
      ∃ r, b.select taskId = some r ∧ toStatus.value ≠ r.status ∧ ∃ e, reason = .error e := by
  -- A status of the enumeration is known, and the id stays.
  have hknown : ¬ Unknown toStatus.value := fun h => h toStatus rfl
  have haccepted : Accepted b taskId [.status toStatus.value] := by
    refine ⟨rfl, ?_⟩
    rintro newId hid
    cases hid
  have hsame : ¬ Renamed taskId [.status toStatus.value] := by
    rintro ⟨newId, hid, -⟩
    cases hid
  have hstatus : given Field.status? [.status toStatus.value] = some toStatus.value := rfl
  simp only [TornUpdate, TearsRow, haccepted, hsame, hknown, hstatus, Option.getD_some, true_and, false_or, or_false,
    false_and, and_false]

def filedTask : Board where
  tasks := [Task.toRow (Task.new "filed" 0)]
  timeline := []
  primaryKey := by decide

end Swarm.Kanban
