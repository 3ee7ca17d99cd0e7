import Swarm.Kanban.Mirror

/-! # Whether every read of the board returns -/

namespace Swarm.Kanban

open Swarm.Lib

/-- No reader raises. -/
structure Readable (b : Board) : Prop where
  get : ∀ id, ∃ t, get b id = .ok t
  listTasks : ∀ status parentTaskId tag, ∃ l, listTasks b status parentTaskId tag = .ok l
  unblocked : ∀ requiredHead limit, ∃ l, unblocked b requiredHead limit = .ok l
  claimOne : ∀ workerId requiredHead now ts, ∃ t, (claimOne b workerId requiredHead now ts).1 = .ok t

/-! ## Rows that every reader can read -/

/-- A value that can be looked up among the ids. -/
def Bindable (key : Json) : Prop := ∃ id, sqlText key = .ok id

/-- What `claim_one` asks of a pending row: the text is JSON, and holds nothing or keys. -/
def ListsKeys (col : Option Text) : Prop :=
  ∃ v, loadList col = .ok v ∧ (v.truthy → ∃ keys, v.iter = .ok keys ∧ ∀ key ∈ keys, Bindable key)

/-- What `tag in t.tags` asks. -/
def Searchable (col : Option Text) : Prop :=
  ∀ tag, ∃ found, (decode (.arr []) col).contains tag = .ok found

/-- What the readers need of a row. -/
structure Sound (status : String) (blockedBy tags : Option Text) : Prop where
  valid : ∃ s : TaskStatus, status = s.value
  searchable : Searchable tags
  keys : status = "pending" → ListsKeys blockedBy

def Row.Sound (r : Row) : Prop := Swarm.Kanban.Sound r.status r.blockedBy r.tags

def SoundRows (b : Board) : Prop := ∀ r ∈ b.tasks, r.Sound

theorem listsKeys_of_ids {col : Option Text} {ids : List String} (h : idsOf col = some ids) :
    ListsKeys col := by
  refine ⟨_, loadList_of_ids col ids h, fun _ => ⟨_, Json.iter_ofStrs ids, fun key hkey => ?_⟩⟩
  obtain ⟨id, -, rfl⟩ := List.mem_map.mp hkey
  exact ⟨some id, rfl⟩

theorem searchable_of_ids {col : Option Text} {ids : List String} (h : idsOf col = some ids) :
    Searchable col :=
  fun tag => ⟨_, by rw [decode_of_ids col ids h]; exact contains_ofStrs ids tag⟩

theorem SoundRows.statuses {b : Board} (h : SoundRows b) : b.StatusesOk :=
  fun r hr => (h r hr).valid

/-! ## The reads return -/

theorem filterM_returns {α : Type} {p : α → Except PyError Bool} {l : List α}
    (hp : ∀ x ∈ l, ∃ v, p x = .ok v) :
    ∃ l', l.filterM p = .ok l' := by
  have haux : ∀ acc, ∃ l', List.filterAuxM p l acc = .ok l' := by
    induction l with
    | nil => exact fun acc => ⟨acc, rfl⟩
    | cons x rest ih =>
      obtain ⟨⟨v, hv⟩, hrest⟩ := List.forall_mem_cons.mp hp
      intro acc
      rw [List.filterAuxM, hv]
      exact ih hrest _
  obtain ⟨l', hl'⟩ := haux []
  exact ⟨l'.reverse, by rw [List.filterM, hl']; rfl⟩

theorem selectKey_returns (b : Board) {key : Json} (hkey : Bindable key) :
    ∃ found, selectKey b key = .ok found ∧ ∀ r, found = some r → r ∈ b.tasks := by
  obtain ⟨id, hid⟩ := hkey
  unfold selectKey
  rw [hid]
  cases id with
  | none => exact ⟨none, rfl, by simp⟩
  | some id => exact ⟨b.select id, rfl, fun r hr => (select_mem b id r hr).1⟩

theorem anyOpen_returns (b : Board) {keys : List Json} (hkeys : ∀ key ∈ keys, Bindable key) :
    ∃ v, anyOpen b keys = .ok v := by
  induction keys with
  | nil => exact ⟨false, rfl⟩
  | cons key rest ih =>
    obtain ⟨hkey, hrest⟩ := List.forall_mem_cons.mp hkeys
    obtain ⟨found, hfound, -⟩ := selectKey_returns b hkey
    simp only [anyOpen, hfound, bind, Except.bind]
    cases found with
    | none => exact ⟨true, rfl⟩
    | some r =>
      dsimp only
      split
      · exact ⟨true, rfl⟩
      · exact ih hrest

theorem claimPick_returns (b : Board) (rh : Option String) {rows : List Row}
    (hrows : ∀ r ∈ rows, ListsKeys r.blockedBy) :
    ∃ pick, claimPick b rh rows = .ok pick ∧ ∀ r, pick = some r → r ∈ rows := by
  induction rows with
  | nil => exact ⟨none, rfl, by simp⟩
  | cons r rest ih =>
    obtain ⟨⟨v, hload, hkeys⟩, hrest⟩ := List.forall_mem_cons.mp hrows
    have hlater : ∃ pick, claimPick b rh rest = .ok pick ∧ ∀ x, pick = some x → x ∈ r :: rest := by
      obtain ⟨pick, hpick, hmem⟩ := ih hrest
      exact ⟨pick, hpick, fun x hx => List.mem_cons_of_mem r (hmem x hx)⟩
    have hself : ∃ pick, (Except.ok (some r) : Except PyError (Option Row)) = .ok pick ∧
        ∀ x, pick = some x → x ∈ r :: rest := ⟨some r, rfl, by simp⟩
    rw [claimPick]
    split
    · exact hlater
    simp only [hload, bind, Except.bind]
    split
    · next htruthy =>
      obtain ⟨keys, hiter, hbind⟩ := hkeys htruthy
      obtain ⟨isOpen, hopen⟩ := anyOpen_returns b hbind
      simp only [hiter, hopen]
      split
      · exact hlater
      · exact hself
    · exact hself

section Reads

variable {b : Board} (h : SoundRows b)
include h

theorem fromRow_returns {r : Row} (hr : r ∈ b.tasks) :
    ∃ s : TaskStatus, Task.fromRow r = .ok (r.toTask s) := by
  obtain ⟨s, hs⟩ := (h r hr).valid
  exact ⟨s, fromRow_of_status r s hs⟩

theorem get_returns (id : String) : ∃ t, get b id = .ok t := by
  unfold get
  cases hr : b.select id with
  | none => exact ⟨none, rfl⟩
  | some r =>
    obtain ⟨s, hs⟩ := fromRow_returns h (select_mem b id r hr).1
    exact ⟨some (r.toTask s), by simp only [hs]; rfl⟩

theorem mapM_fromRow_returns (rows : List Row) (hrows : ∀ r ∈ rows, r ∈ b.tasks) :
    ∃ ts : List Task, rows.mapM Task.fromRow = .ok ts ∧
      ∀ t ∈ ts, ∃ r ∈ rows, t.tags = decode (.arr []) r.tags := by
  induction rows with
  | nil => exact ⟨[], rfl, by simp⟩
  | cons r rest ih =>
    obtain ⟨s, hs⟩ := fromRow_returns h (hrows r List.mem_cons_self)
    obtain ⟨ts, hts, htags⟩ := ih fun x hx => hrows x (List.mem_cons_of_mem r hx)
    refine ⟨r.toTask s :: ts, by simp [List.mapM_cons, hs, hts, bind, Except.bind, pure, Except.pure], ?_⟩
    intro t ht
    rcases List.mem_cons.mp ht with rfl | ht
    · exact ⟨r, List.mem_cons_self, rfl⟩
    · obtain ⟨x, hx, htag⟩ := htags t ht
      exact ⟨x, List.mem_cons_of_mem r hx, htag⟩

theorem listTasks_returns (status : Option TaskStatus) (parentTaskId tag : Option String) :
    ∃ l, listTasks b status parentTaskId tag = .ok l := by
  obtain ⟨ts, hts, htags⟩ := mapM_fromRow_returns h
    (orderBy (b.tasks.filter fun r =>
      status.all (fun s => r.status == s.value) && parentTaskId.all fun p => r.parentTaskId == some p))
    fun r hr => (List.mem_filter.mp ((mem_orderBy _ _).mp hr)).1
  simp only [listTasks, hts, bind, Except.bind]
  cases tag with
  | none => exact ⟨ts, rfl⟩
  | some tag =>
    refine filterM_returns fun t ht => ?_
    obtain ⟨r, hr, htag⟩ := htags t ht
    have hmem : r ∈ b.tasks := (List.mem_filter.mp ((mem_orderBy _ _).mp hr)).1
    rw [htag]
    exact (h r hmem).searchable tag

theorem blockersDone_returns {keys : List Json} (hkeys : ∀ key ∈ keys, Bindable key) :
    ∃ v, blockersDone b keys = .ok v := by
  induction keys with
  | nil => exact ⟨true, rfl⟩
  | cons key rest ih =>
    obtain ⟨hkey, hrest⟩ := List.forall_mem_cons.mp hkeys
    obtain ⟨found, hfound, hmem⟩ := selectKey_returns b hkey
    simp only [blockersDone, hfound, bind, Except.bind]
    cases found with
    | none => exact ⟨false, rfl⟩
    | some r =>
      obtain ⟨s, hs⟩ := fromRow_returns h (hmem r rfl)
      simp only [hs]
      split
      · exact ih hrest
      · exact ⟨false, rfl⟩

theorem unblockedLoop_returns (rh : Option String) (limit : Option Int) {rows : List Row}
    (hrows : ∀ r ∈ rows, ListsKeys r.blockedBy) (out : List Task) :
    ∃ l, unblockedLoop b rh limit (rows.map (·.toTask .pending)) out = .ok l := by
  induction rows generalizing out with
  | nil => exact ⟨out, rfl⟩
  | cons r rest ih =>
    obtain ⟨hr, hrest⟩ := List.forall_mem_cons.mp hrows
    obtain ⟨v, hload, hkeys⟩ := hr
    have hdecode : (r.toTask .pending).blockedBy = v := decode_of_load hload
    rw [List.map_cons, unblockedLoop, hdecode]
    split
    · exact ih hrest out
    split
    · exact ih hrest _
    next htruthy =>
      obtain ⟨keys, hiter, hbind⟩ := hkeys (by simpa using htruthy)
      obtain ⟨ok, hok⟩ := blockersDone_returns h hbind
      simp only [hiter, hok, bind, Except.bind]
      generalize (if ok = true then out ++ [r.toTask .pending] else out) = out'
      split
      · exact ⟨out', rfl⟩
      · exact ih hrest out'

theorem pendingRows_keys : ∀ r ∈ pendingRows b, ListsKeys r.blockedBy := by
  intro r hr
  obtain ⟨hmem, hpending⟩ := (mem_pendingRows b r).mp hr
  exact (h r hmem).keys hpending

theorem claimOne_returns (workerId : String) (rh : Option String) (now ts : ℚ) :
    ∃ t, (claimOne b workerId rh now ts).1 = .ok t := by
  obtain ⟨pick, hpick, hmem⟩ := claimPick_returns b rh (pendingRows_keys h)
  cases pick with
  | none =>
    rw [pendingRows] at hpick
    exact ⟨none, by simp only [claimOne, hpick]⟩
  | some r =>
    have hr := ((mem_pendingRows b r).mp (hmem r rfl)).1
    rw [claimOne_of_pick b rh workerId now ts r hr hpick]
    exact ⟨_, rfl⟩

theorem readable_of_sound : Readable b where
  get := get_returns h
  listTasks := listTasks_returns h
  unblocked rh limit := by
    rw [unblocked_eq]
    exact unblockedLoop_returns h rh limit (pendingRows_keys h) []
  claimOne := claimOne_returns h

end Reads

/-! ## The calls -/

def Field.blockedBy? : Field → Option (Option Text)
  | .blockedBy v => some v.column
  | _ => none

def Field.tags? : Field → Option (Option Text)
  | .tags v => some v.column
  | _ => none

/-- An update leaves a row that can be read: its values over those of the row. -/
def UpdateSound (b : Board) (taskId : String) (fields : List Field) : Prop :=
  given Field.refused? fields = none → ∀ r, b.select taskId = some r →
    Sound ((given Field.status? fields).getD r.status) ((given Field.blockedBy? fields).getD r.blockedBy)
      ((given Field.tags? fields).getD r.tags)

/-- What a call must give for the board to stay readable. -/
def CallSound (b : Board) : Call → Prop
  | .submit task _ =>
    ¬ OnBoard b task.id → Sound task.status.value (dumps task.blockedBy) (dumps task.tags)
  | .update taskId fields _ _ => UpdateSound b taskId fields
  | .transition taskId toStatus _ _ => UpdateSound b taskId [.status toStatus.value]
  | .addBlockedBy .. | .addBlocks .. | .claimOne .. => True

theorem sound_setAll {fields : List Field} {r : Row}
    (h : Sound ((given Field.status? fields).getD r.status) ((given Field.blockedBy? fields).getD r.blockedBy)
      ((given Field.tags? fields).getD r.tags)) : (setAll fields r).Sound := by
  have hby : (setAll fields r).blockedBy = (given Field.blockedBy? fields).getD r.blockedBy :=
    setAll_column (·.blockedBy) Field.blockedBy? (fun r f => by cases f <;> rfl) fields r
  have htags : (setAll fields r).tags = (given Field.tags? fields).getD r.tags :=
    setAll_column (·.tags) Field.tags? (fun r f => by cases f <;> rfl) fields r
  rw [Row.Sound, setAll_status, hby, htags]
  exact h

theorem sound_modify {b : Board} (h : SoundRows b) {id : String} {f : Row → Row}
    (hf : ∀ r, (f r).id = r.id) (hsound : ∀ r ∈ b.tasks, r.id = id → (f r).Sound) :
    SoundRows (b.modify id f hf) := by
  intro r' hr'
  obtain ⟨r, hr, rfl⟩ := List.mem_map.mp hr'
  split
  · next hid => exact hsound r hr hid
  · exact h r hr

theorem sound_submit {b : Board} (h : SoundRows b) (task : Task) (ts : ℚ)
    (hcall : CallSound b (.submit task ts)) : SoundRows (submit b task ts).2 := by
  rcases submit_cases b task ts with heq | ⟨hnew, htasks, -⟩
  · rwa [heq]
  · have hoff : ¬ OnBoard b task.id := by
      intro hon
      obtain ⟨r, hr⟩ := Option.isSome_iff_exists.mp hon
      obtain ⟨hmem, hid⟩ := select_mem b _ r hr
      exact hnew r hmem hid
    intro r hr
    rw [htasks] at hr
    rcases List.mem_append.mp hr with hr | hr
    · exact h r hr
    · obtain rfl := List.mem_singleton.mp hr
      exact hcall hoff

theorem sound_update {b : Board} (hb : Faithful b) (h : SoundRows b) (taskId : String)
    (fields : List Field) (reason : Option String) (ts : ℚ) (hcall : UpdateSound b taskId fields) :
    SoundRows (update b taskId fields reason ts).2 := by
  rcases update_cases b taskId fields reason ts with heq | ⟨r, b', hr, hrow, hcase⟩
  · rwa [heq]
  have hrefused : given Field.refused? fields = none := by
    cases href : given Field.refused? fields with
    | none => rfl
    | some e => simp [updateRow, href] at hrow
  obtain rfl := updateRow_faithful b b' taskId fields r hr hrow hb
  have hwritten : SoundRows (written b taskId fields) := by
    refine sound_modify h _ fun x hx hid => ?_
    obtain ⟨hmem, hrid⟩ := select_mem b taskId r hr
    rw [row_unique b x r hx hmem (hid.trans hrid.symm)]
    exact sound_setAll (hcall hrefused r hr)
  rcases hcase with ⟨-, heq⟩ | ⟨s, -, -, ⟨heq, -⟩ | heq⟩
  all_goals
    rw [heq]
    exact hwritten

theorem sound_mirrorLoop {b : Board} (h : SoundRows b) (taskId : String) (ids : List String) :
    SoundRows (mirrorLoop taskId b ids).2 := by
  induction ids generalizing b with
  | nil => exact h
  | cons blocker rest ih =>
    simp only [mirrorLoop]
    split
    · exact ih h
    split
    · exact h
    · exact ih h
    · exact ih (sound_modify h _ fun r hr _ => h r hr)

theorem sound_addBlockedBy {b : Board} (h : SoundRows b) (taskId : String) (ids : List String) :
    SoundRows (addBlockedBy b taskId ids).2 := by
  simp only [addBlockedBy]
  split
  · exact h
  split
  · exact h
  split
  · exact h
  · refine sound_mirrorLoop (sound_modify h _ fun r hr _ => ?_) taskId _
    exact ⟨(h r hr).valid, (h r hr).searchable, fun _ => listsKeys_of_ids (idsOf_dumps _)⟩

theorem sound_addBlocksLoop {b : Board} (h : SoundRows b) (taskId : String) (ids : List String) :
    SoundRows (addBlocksLoop b taskId ids).2 := by
  induction ids generalizing b with
  | nil => exact h
  | cons blocked rest ih =>
    have hfirst := sound_addBlockedBy h blocked [taskId]
    simp only [addBlocksLoop]
    split
    · next heq =>
      rw [heq] at hfirst
      exact hfirst
    · next heq =>
      rw [heq] at hfirst
      exact ih hfirst

theorem sound_claimOne {b : Board} (h : SoundRows b) (workerId : String) (rh : Option String)
    (now ts : ℚ) :
    SoundRows (claimOne b workerId rh now ts).2 := by
  rcases claimOne_cases b rh workerId now ts with ⟨-, heq, -⟩ | ⟨r, -, -, -, -, -, heq⟩
  · rwa [heq]
  · rw [heq]
    have hclaimed : ∀ x ∈ b.tasks, x.id = r.id → (claimRow workerId now x).Sound := fun x hx _ =>
      ⟨⟨.inProgress, rfl⟩, (h x hx).searchable, fun hpending => absurd hpending (by simp [claimRow])⟩
    exact sound_modify h (claimRow_id workerId now) hclaimed

theorem sound_apply {b : Board} (hb : Faithful b) (h : SoundRows b) {c : Call}
    (hcall : CallSound b c) :
    SoundRows (c.apply b) := by
  cases c with
  | submit task ts => exact sound_submit h task ts hcall
  | update taskId fields reason ts => exact sound_update hb h taskId fields reason ts hcall
  | transition taskId toStatus reason ts => exact sound_update hb h taskId _ reason ts hcall
  | addBlockedBy taskId ids => exact sound_addBlockedBy h taskId ids
  | addBlocks taskId ids => exact sound_addBlocksLoop h taskId _
  | claimOne workerId rh now ts => exact sound_claimOne h workerId rh now ts

/-- An edge, and a task that is closed with its tags as text. -/
def closedTask : List Call :=
  [.submit (Task.new "a" 0) 0, .submit (Task.new "b" 1) 1, .addBlockedBy "b" ["a"],
    .update "a" [.status "done", .tags (.text (.json (.ofStrs ["ui"])))] (some "merged") 2]

/-- The update raises with its value stored. -/
def bogusStatus : List Call :=
  [.submit (Task.new "a" 0) 0, .submit (Task.new "b" 1) 1, .update "a" [.status "bogus"] none 2]

/-- `from_row` reads such a column as empty, `claim_one` does not. -/
def badBlockers : List Call :=
  [.submit (Task.new "a" 0) 0, .submit (Task.new "b" 1) 1, .update "a" [.blockedBy (.text (.raw "c"))] none 2]

end Swarm.Kanban
