import Swarm.Kanban.Spec

/-!
# The peek and the claim agree

`unblocked` decides readiness on decoded tasks, `claim_one` on raw rows inside its
transaction. Both come down to `readyRows`.
-/

namespace Swarm.Kanban

/-! ## The peek -/

theorem wants_eq (rh : Option String) (r : Row) : rh.any (· != r.requiredHead) = !wants rh r := by
  cases rh <;> rfl

theorem unblockedLoop_row (b : Board) (rh : Option String) (limit : Option Int) (s : TaskStatus)
    (r : Row) (ids : List String) (hids : idsOf r.blockedBy = some ids) (rest out : List Task) :
    unblockedLoop b rh limit (r.toTask s :: rest) out =
      if !wants rh r then unblockedLoop b rh limit rest out
      else if ids.isEmpty then unblockedLoop b rh limit rest (out ++ [r.toTask s])
      else (do
        let ok ← blockersDone b (ids.map .str)
        let out := if ok then out ++ [r.toTask s] else out
        if limit.any (· ≤ (out.length : Int)) then return out
        else unblockedLoop b rh limit rest out) := by
  have hdecode : (r.toTask s).blockedBy = .ofStrs ids := decode_of_ids _ _ hids
  have hwants : rh.any (· != (r.toTask s).requiredHead) = !wants rh r := wants_eq rh r
  rw [unblockedLoop, hdecode, hwants]
  simp only [Json.truthy_ofStrs, Json.iter_ofStrs, Bool.not_not]
  rfl

theorem unblockedLoop_round (b : Board) (rh : Option String) (limit : Option Int) (t : Task)
    (rest out L : List Task) (h : unblockedLoop b rh limit (t :: rest) out = .ok L) :
    ∃ out', (out' = out ∨ out' = out ++ [t]) ∧
      (L = out' ∨ unblockedLoop b rh limit rest out' = .ok L) := by
  -- A round of the loop, whatever the columns hold, keeps what is out and may add its task.
  rw [unblockedLoop] at h
  split at h
  · exact ⟨out, Or.inl rfl, Or.inr h⟩
  split at h
  · exact ⟨out ++ [t], Or.inr rfl, Or.inr h⟩
  simp only [bind, Except.bind] at h
  cases hiter : t.blockedBy.iter with
  | error e => simp [hiter] at h
  | ok keys =>
    simp only [hiter] at h
    cases hdone : blockersDone b keys with
    | error e => simp [hdone] at h
    | ok ok =>
      simp only [hdone] at h
      have hround : ∀ out', (out' = out ∨ out' = out ++ [t]) →
          (if limit.any (· ≤ (out'.length : Int)) then pure out'
            else unblockedLoop b rh limit rest out') = .ok L →
          ∃ out', (out' = out ∨ out' = out ++ [t]) ∧
            (L = out' ∨ unblockedLoop b rh limit rest out' = .ok L) := by
        intro out' hout' h'
        split at h'
        · cases h'; exact ⟨_, hout', Or.inl rfl⟩
        · exact ⟨out', hout', Or.inr h'⟩
      cases ok with
      | true => exact hround _ (Or.inr rfl) h
      | false => exact hround _ (Or.inl rfl) h

theorem unblockedLoop_grows (b : Board) (rh : Option String) (limit : Option Int)
    (ts out L : List Task) (h : unblockedLoop b rh limit ts out = .ok L) : out <+: L := by
  induction ts generalizing out with
  | nil => cases h; exact List.prefix_rfl
  | cons t rest ih =>
    obtain ⟨out', hout', hL⟩ := unblockedLoop_round b rh limit t rest out L h
    have hgrow : out <+: out' := by
      rcases hout' with rfl | rfl
      · exact List.prefix_rfl
      · exact List.prefix_append _ _
    rcases hL with rfl | hL
    · exact hgrow
    · exact hgrow.trans (ih out' hL)

theorem unblockedLoop_mem (b : Board) (rh : Option String) (limit : Option Int)
    (ts out L : List Task) (h : unblockedLoop b rh limit ts out = .ok L) :
    ∀ t ∈ L, t ∈ out ∨ t ∈ ts := by
  induction ts generalizing out with
  | nil => cases h; exact fun t ht => Or.inl ht
  | cons x rest ih =>
    obtain ⟨out', hout', hL⟩ := unblockedLoop_round b rh limit x rest out L h
    have hgrow : ∀ t ∈ out', t ∈ out ∨ t ∈ x :: rest := by
      rintro t ht
      rcases hout' with rfl | rfl
      · exact Or.inl ht
      · rcases List.mem_append.mp ht with ht | ht
        · exact Or.inl ht
        · exact Or.inr (List.mem_singleton.mp ht ▸ List.mem_cons_self)
    intro t ht
    rcases hL with rfl | hL
    · exact hgrow t ht
    · rcases ih out' hL t ht with ht | ht
      · exact hgrow t ht
      · exact Or.inr (List.mem_cons_of_mem _ ht)

variable (b : Board) (rh : Option String)

theorem unblockedLoop_all (s : TaskStatus) (rows : List Row)
    (hcols : ∀ r ∈ rows, HoldsIds r.blockedBy) (out L : List Task)
    (h : unblockedLoop b rh none (rows.map (·.toTask s)) out = .ok L) :
    L = out ++ (rows.filter fun r => wants rh r && unblockedRow b r).map (·.toTask s) := by
  induction rows generalizing out with
  | nil => cases h; simp
  | cons r rest ih =>
    have hrest := fun x hx => hcols x (List.mem_cons_of_mem r hx)
    obtain ⟨ids, hids⟩ := hcols r List.mem_cons_self
    have hblock : blockersOf r = ids := by simp [blockersOf, hids]
    rw [List.map_cons, unblockedLoop_row b rh none s r ids hids] at h
    split at h
    · next hw =>
      rw [ih hrest out h, List.filter_cons_of_neg]
      simpa using fun hw' => by simp [hw'] at hw
    · next hw =>
      have hw' : wants rh r = true := by simpa using hw
      split at h
      · next hempty =>
        rw [ih hrest _ h, List.filter_cons_of_pos]
        · simp
        · simp [hw', unblockedRow, hblock, List.isEmpty_iff.mp hempty]
      · cases hdone : blockersDone b (ids.map .str) with
        | error e => simp [hdone, bind, Except.bind] at h
        | ok ok =>
          have hok := blockersDone_strs b ids ok hdone
          simp only [hdone, bind, Except.bind, Option.any_none, Bool.false_eq_true, if_false] at h
          rw [ih hrest _ h, List.filter_cons]
          have : (wants rh r && unblockedRow b r) = ok := by simp [hw', unblockedRow, hblock, hok]
          rw [this]
          split <;> simp

theorem unblockedLoop_head (limit : Option Int) (hlimit : limit.all (0 < ·)) (s : TaskStatus)
    (rows : List Row) (hcols : ∀ r ∈ rows, HoldsIds r.blockedBy) (L : List Task)
    (h : unblockedLoop b rh limit (rows.map (·.toTask s)) [] = .ok L) :
    L.head? = (rows.find? fun r => wants rh r && unblockedRow b r).map (·.toTask s) := by
  induction rows with
  | nil => cases h; rfl
  | cons r rest ih =>
    have hrest := fun x hx => hcols x (List.mem_cons_of_mem r hx)
    obtain ⟨ids, hids⟩ := hcols r List.mem_cons_self
    have hblock : blockersOf r = ids := by simp [blockersOf, hids]
    -- Once the first task is out, the loop only appends to it.
    have hfirst : [r.toTask s] <+: L → L.head? = some (r.toTask s) := by
      rintro ⟨tail, rfl⟩; rfl
    rw [List.map_cons, unblockedLoop_row b rh limit s r ids hids] at h
    split at h
    · next hw =>
      rw [List.find?_cons_of_neg]
      · exact ih hrest h
      · simpa using fun hw' => by simp [hw'] at hw
    · next hw =>
      have hw' : wants rh r = true := by simpa using hw
      split at h
      · next hempty =>
        rw [List.find?_cons_of_pos]
        · exact hfirst (unblockedLoop_grows b rh limit _ _ L h)
        · simp [hw', unblockedRow, hblock, List.isEmpty_iff.mp hempty]
      · cases hdone : blockersDone b (ids.map .str) with
        | error e => simp [hdone, bind, Except.bind] at h
        | ok ok =>
          have hok : (wants rh r && unblockedRow b r) = ok := by
            simp [hw', unblockedRow, hblock, blockersDone_strs b ids ok hdone]
          simp only [hdone, bind, Except.bind] at h
          cases ok with
          | true =>
            rw [List.find?_cons_of_pos (by simpa using hok)]
            simp only [if_true, List.nil_append] at h
            split at h
            · cases h; rfl
            · exact hfirst (unblockedLoop_grows b rh limit _ _ L h)
          | false =>
            rw [List.find?_cons_of_neg (by simpa using hok)]
            have hpos : limit.any (· ≤ (([] : List Task).length : Int)) = false := by
              cases limit with
              | none => rfl
              | some n => simpa using hlimit
            simp only [Bool.false_eq_true, if_false, hpos] at h
            exact ih hrest h

theorem unblockedLoop_total (hb : b.StatusesOk) (limit : Option Int) (s : TaskStatus)
    (rows : List Row) (hcols : ∀ r ∈ rows, HoldsIds r.blockedBy) (out : List Task) :
    ∃ L, unblockedLoop b rh limit (rows.map (·.toTask s)) out = .ok L := by
  induction rows generalizing out with
  | nil => exact ⟨out, rfl⟩
  | cons r rest ih =>
    have hrest := fun out => ih (fun x hx => hcols x (List.mem_cons_of_mem r hx)) out
    obtain ⟨ids, hids⟩ := hcols r List.mem_cons_self
    obtain ⟨ok, hok⟩ := blockersDone_total b hb ids
    rw [List.map_cons, unblockedLoop_row b rh limit s r ids hids, hok]
    split
    · exact hrest _
    split
    · exact hrest _
    have hround : ∀ out' : List Task, ∃ L,
        (if limit.any (· ≤ (out'.length : Int)) then pure out'
          else unblockedLoop b rh limit (rest.map (·.toTask s)) out') = Except.ok L := by
      intro out'
      split
      · exact ⟨_, rfl⟩
      · exact hrest _
    exact hround _

theorem pendingRows_columns (hb : b.ColumnsOk) : ∀ r ∈ pendingRows b, HoldsIds r.blockedBy := by
  intro r hr
  obtain ⟨hmem, hpending⟩ := (mem_pendingRows b r).mp hr
  exact hb r hmem hpending

theorem unblocked_eq (limit : Option Int) :
    unblocked b rh limit = unblockedLoop b rh limit ((pendingRows b).map (·.toTask .pending)) [] := by
  simp only [unblocked, listTasks_status, bind, Except.bind]
  rfl

theorem unblocked_mem (limit : Option Int) (L : List Task) (h : unblocked b rh limit = .ok L) :
    ∀ t ∈ L, ∃ r ∈ b.tasks, r.status = "pending" ∧ t = r.toTask .pending := by
  intro t ht
  rw [unblocked_eq] at h
  rcases unblockedLoop_mem b rh limit _ [] L h t ht with hnil | hmem
  · cases hnil
  · obtain ⟨r, hr, rfl⟩ := List.mem_map.mp hmem
    obtain ⟨hmem, hpending⟩ := (mem_pendingRows b r).mp hr
    exact ⟨r, hmem, hpending, rfl⟩

theorem unblocked_all (hb : b.ColumnsOk) (L : List Task) (h : unblocked b rh none = .ok L) :
    L = (readyRows b rh).map (·.toTask .pending) := by
  rw [unblocked_eq] at h
  exact unblockedLoop_all b rh .pending _ (pendingRows_columns b hb) [] L h

theorem unblocked_head (hb : b.ColumnsOk) (limit : Option Int) (hlimit : limit.all (0 < ·))
    (L : List Task) (h : unblocked b rh limit = .ok L) :
    L.head? = (readyRows b rh).head?.map (·.toTask .pending) := by
  rw [unblocked_eq] at h
  rw [readyRows, List.head?_filter]
  exact unblockedLoop_head b rh limit hlimit .pending _ (pendingRows_columns b hb) L h

theorem unblocked_total (hb : b.ColumnsOk) (hs : b.StatusesOk) (limit : Option Int) :
    ∃ L, unblocked b rh limit = .ok L := by
  rw [unblocked_eq]
  exact unblockedLoop_total b rh hs limit .pending _ (pendingRows_columns b hb) []

/-! ## The claim -/

theorem claimPick_spec (rows : List Row) (hcols : ∀ r ∈ rows, HoldsIds r.blockedBy) :
    claimPick b rh rows = .ok (rows.find? fun r => wants rh r && unblockedRow b r) := by
  induction rows with
  | nil => rfl
  | cons r rest ih =>
    have hrest := ih fun x hx => hcols x (List.mem_cons_of_mem r hx)
    obtain ⟨ids, hids⟩ := hcols r List.mem_cons_self
    have hblock : unblockedRow b r = ids.all b.isDone := by simp [unblockedRow, blockersOf, hids]
    rw [claimPick, wants_eq, loadList_of_ids _ _ hids]
    cases hw : wants rh r with
    | false => simp [hw, hrest]
    | true =>
      simp only [Bool.not_true, Bool.false_eq_true, if_false, bind, Except.bind,
        Json.truthy_ofStrs, Json.iter_ofStrs, anyOpen_strs]
      by_cases hempty : ids.isEmpty
      · simp [List.isEmpty_iff.mp hempty, hw, hblock, pure, Except.pure]
      · simp only [hempty, Bool.not_false, if_true]
        cases hall : ids.all b.isDone with
        | false => simp [hw, hblock, hall, hrest]
        | true => simp [hw, hblock, hall, pure, Except.pure]

/-- The board after `r` was claimed. -/
def claimedBoard (workerId : String) (now ts : ℚ) (r : Row) : Board :=
  { b.modify r.id (claimRow workerId now) (claimRow_id workerId now) with
    timeline := b.timeline ++
      [⟨r.id, some r.status, "in_progress", some ("claim:" ++ workerId), ts⟩] }

omit b in
theorem modifyRow_id (id : String) (f : Row → Row) (hf : ∀ r, (f r).id = r.id) (r : Row) :
    (if r.id = id then f r else r).id = r.id := by
  split
  · exact hf r
  · rfl

theorem modify_ids (id : String) (f : Row → Row) (hf : ∀ r, (f r).id = r.id) (i : String) :
    (b.modify id f hf).tasks.any (·.id == i) = b.tasks.any (·.id == i) := by
  simp only [Board.modify, List.any_map]
  congr 1
  funext r
  simp only [Function.comp_apply, modifyRow_id id f hf]

theorem select_modify_self (id : String) (f : Row → Row) (hf : ∀ r, (f r).id = r.id) (r : Row)
    (h : b.select id = some r) : (b.modify id f hf).select id = some (f r) := by
  obtain ⟨hmem, hid⟩ := select_mem b id r h
  rw [select_eq_some]
  refine ⟨List.mem_map.mpr ⟨r, hmem, ?_⟩, (hf r).trans hid⟩
  rw [if_pos hid]

theorem select_claimedBoard (workerId : String) (now ts : ℚ) (r : Row) (hr : r ∈ b.tasks) :
    (claimedBoard b workerId now ts r).select r.id = some (claimRow workerId now r) :=
  select_modify_self b r.id (claimRow workerId now) (claimRow_id workerId now) r (select_of_mem b r hr)

theorem claimOne_of_pick (workerId : String) (now ts : ℚ) (r : Row) (hr : r ∈ b.tasks)
    (h : claimPick b rh (pendingRows b) = .ok (some r)) :
    claimOne b workerId rh now ts =
      (.ok (some ((claimRow workerId now r).toTask .inProgress)),
        claimedBoard b workerId now ts r) := by
  have hadd : (b.modify r.id (claimRow workerId now) (claimRow_id workerId now)).addTimeline
      ⟨r.id, some r.status, "in_progress", some ("claim:" ++ workerId), ts⟩ =
        .ok (claimedBoard b workerId now ts r) :=
    if_pos ((modify_ids b r.id _ _ r.id).trans (any_id_of_mem b r hr))
  have hget : get (claimedBoard b workerId now ts r) r.id =
      .ok (some ((claimRow workerId now r).toTask .inProgress)) := by
    simp only [get, select_claimedBoard b workerId now ts r hr,
      fromRow_of_status (claimRow workerId now r) .inProgress rfl]
    rfl
  rw [pendingRows] at h
  simp only [claimOne, h, hadd, hget]

/-- What the claim checks of a row whatever its column holds: each blocker is a DONE task. -/
def BlockersMet (r : Row) : Prop :=
  ∃ v, loadList r.blockedBy = .ok v ∧ (v.truthy → ∃ keys, v.iter = .ok keys ∧
    ∀ key ∈ keys, ∃ d, selectKey b key = .ok (some d) ∧ d.status = "done")

theorem anyOpen_false (keys : List Json) (h : anyOpen b keys = .ok false) :
    ∀ key ∈ keys, ∃ d, selectKey b key = .ok (some d) ∧ d.status = "done" := by
  induction keys with
  | nil => simp
  | cons key rest ih =>
    simp only [anyOpen, bind, Except.bind] at h
    cases hkey : selectKey b key with
    | error e => simp [hkey] at h
    | ok found =>
      cases found with
      | none => simp [hkey, pure, Except.pure] at h
      | some d =>
        simp only [hkey] at h
        split at h
        · simp [pure, Except.pure] at h
        · next hd =>
          intro k hk
          rcases List.mem_cons.mp hk with rfl | hk
          · exact ⟨d, hkey, not_not.mp hd⟩
          · exact ih h k hk

theorem claimPick_sound (rows : List Row) (r : Row) (h : claimPick b rh rows = .ok (some r)) :
    r ∈ rows ∧ wants rh r ∧ BlockersMet b r := by
  induction rows with
  | nil => cases h
  | cons x rest ih =>
    have hrest : claimPick b rh rest = .ok (some r) →
        r ∈ x :: rest ∧ wants rh r ∧ BlockersMet b r := fun h' =>
      ⟨List.mem_cons_of_mem _ (ih h').1, (ih h').2⟩
    rw [claimPick, wants_eq] at h
    split at h
    · exact hrest h
    next hw =>
    have hw' : wants rh x = true := by simpa using hw
    cases hload : loadList x.blockedBy with
    | error e => simp [hload, bind, Except.bind] at h
    | ok v =>
      simp only [hload, bind, Except.bind] at h
      split at h
      · cases hiter : v.iter with
        | error e => simp [hiter] at h
        | ok keys =>
          simp only [hiter] at h
          cases hopen : anyOpen b keys with
          | error e => simp [hopen] at h
          | ok any =>
            cases any with
            | true => simp only [hopen, if_true] at h; exact hrest h
            | false =>
              simp only [hopen, Bool.false_eq_true, if_false] at h
              cases h
              exact ⟨List.mem_cons_self, hw', v, hload, fun _ => ⟨keys, hiter, anyOpen_false b keys hopen⟩⟩
      · next hv =>
        cases h
        exact ⟨List.mem_cons_self, hw', v, hload, fun ht => absurd ht hv⟩

theorem claimOne_cases (workerId : String) (now ts : ℚ) :
    ((∀ r, claimPick b rh (pendingRows b) ≠ .ok (some r)) ∧
      (claimOne b workerId rh now ts).2 = b ∧
        ∀ t, (claimOne b workerId rh now ts).1 ≠ .ok (some t)) ∨
    ∃ r ∈ b.tasks, claimPick b rh (pendingRows b) = .ok (some r) ∧ r.status = "pending" ∧
      wants rh r ∧ BlockersMet b r ∧
      claimOne b workerId rh now ts =
        (.ok (some ((claimRow workerId now r).toTask .inProgress)),
          claimedBoard b workerId now ts r) := by
  cases hpick : claimPick b rh (pendingRows b) with
  | error e => left; rw [pendingRows] at hpick; simp [claimOne, hpick]
  | ok found =>
    cases found with
    | none => left; rw [pendingRows] at hpick; simp [claimOne, hpick]
    | some r =>
      obtain ⟨hmem, hwants, hmet⟩ := claimPick_sound b rh _ r hpick
      obtain ⟨htask, hpending⟩ := (mem_pendingRows b r).mp hmem
      exact Or.inr ⟨r, htask, rfl, hpending, hwants, hmet,
        claimOne_of_pick b rh workerId now ts r htask hpick⟩

theorem claimOne_spec (hb : b.ColumnsOk) (workerId : String) (now ts : ℚ) :
    claimOne b workerId rh now ts =
      match (readyRows b rh).head? with
      | none => (.ok none, b)
      | some r => (.ok (some ((claimRow workerId now r).toTask .inProgress)),
          claimedBoard b workerId now ts r) := by
  have hpick := claimPick_spec b rh (pendingRows b) (pendingRows_columns b hb)
  rw [← List.head?_filter] at hpick
  cases hhead : (readyRows b rh).head? with
  | none =>
    rw [readyRows] at hhead
    rw [hhead, pendingRows] at hpick
    simp [claimOne, hpick]
  | some r =>
    have hmem : r ∈ readyRows b rh := List.mem_of_head? hhead
    exact claimOne_of_pick b rh workerId now ts r ((mem_readyRows b rh r).mp hmem).1
      (hpick.trans (congrArg Except.ok hhead))

theorem readyRows_own_head (r : Row) (h : (readyRows b none).head? = some r) :
    (readyRows b (some r.requiredHead)).head? = some r := by
  rw [readyRows, List.head?_filter, List.find?_eq_some_iff_append] at h ⊢
  obtain ⟨hr, before, rest, hrows, hbefore⟩ := h
  refine ⟨?_, before, rest, hrows, fun x hx => ?_⟩
  · simpa [wants] using hr
  · have := hbefore x hx
    simp only [wants, Option.all_none, Bool.true_and, Bool.not_eq_true'] at this
    simp [this]

/-! ## The two agree -/

/-- The row is pending, and each id it waits for names a DONE task. -/
def Claimable (b : Board) (r : Row) : Prop :=
  r ∈ b.tasks ∧ r.status = "pending" ∧
    ∀ id ∈ blockersOf r, ∃ d ∈ b.tasks, d.id = id ∧ d.status = "done"

theorem ready_iff (r : Row) (hr : r ∈ b.tasks) : ready b r = true ↔ Claimable b r := by
  simp [ready, unblockedRow, Claimable, isDone_iff, hr]

theorem readyRows_nil_iff (L : List Task) (hL : L = (readyRows b rh).map (·.toTask .pending)) :
    L = [] ↔ (readyRows b rh).head? = none := by
  rw [hL, List.map_eq_nil_iff, List.head?_eq_none_iff]

/-- **The claim refines the peek.** `claim_one` takes the first task of `unblocked`, and what
it changes is that row and one timeline row. Without a ready task it changes nothing. -/
theorem claimOne_refines_unblocked (hb : b.ColumnsOk) (workerId : String) (now ts : ℚ) :
    (b.StatusesOk → ∃ L, unblocked b rh none = .ok L) ∧
    (∀ L, unblocked b rh none = .ok L →
      (claimOne b workerId rh now ts = (.ok none, b) ↔ L = []) ∧
      ∀ t rest, L = t :: rest →
        ∃ c b', claimOne b workerId rh now ts = (.ok (some c), b') ∧ c.id = t.id) ∧
    (∀ b', claimOne b workerId rh now ts = (.ok none, b') → b' = b) ∧
    ∀ c b', claimOne b workerId rh now ts = (.ok (some c), b') →
      ∃ r, Claimable b r ∧ c = (claimRow workerId now r).toTask .inProgress ∧
        b'.tasks = b.tasks.map (fun x => if x.id = r.id then
          { x with status := "in_progress", workerId := some workerId, startedAt := some now }
          else x) ∧
        b'.timeline = b.timeline ++
          [⟨r.id, some "pending", "in_progress", some ("claim:" ++ workerId), ts⟩] := by
  have hspec := claimOne_spec b rh hb workerId now ts
  refine ⟨fun hs => unblocked_total b rh hb hs none, ?_, ?_, ?_⟩
  · intro L hL
    have hrows := unblocked_all b rh hb L hL
    have hnil := readyRows_nil_iff b rh L hrows
    -- Both the peek and the claim are the first ready row.
    cases hhead : (readyRows b rh).head? with
    | none =>
      rw [hhead] at hspec
      have hempty : L = [] := hnil.mpr hhead
      exact ⟨by simp [hspec, hempty], fun t rest h => by simp [hempty] at h⟩
    | some r =>
      rw [hhead] at hspec
      have hne : L ≠ [] := fun h => by simp [hhead] at hnil; exact hnil h
      refine ⟨by simp [hspec, hne], fun t rest h => ⟨_, _, hspec, ?_⟩⟩
      have ht : L.head? = some (r.toTask .pending) := by simp [hrows, hhead]
      rw [h, List.head?_cons, Option.some.injEq] at ht
      rw [ht]
      rfl
  · intro b' h
    cases hhead : (readyRows b rh).head? with
    | none => rw [hspec, hhead] at h; exact (congrArg Prod.snd h).symm
    | some r => rw [hspec, hhead] at h; simp at h
  · intro c b' h
    cases hhead : (readyRows b rh).head? with
    | none => rw [hspec, hhead] at h; simp at h
    | some r =>
      rw [hspec, hhead] at h
      simp only [Prod.mk.injEq, Except.ok.injEq, Option.some.injEq] at h
      obtain ⟨rfl, rfl⟩ := h
      obtain ⟨hmem, hready, -⟩ := (mem_readyRows b rh r).mp (List.mem_of_head? hhead)
      have hclaim := (ready_iff b r hmem).mp hready
      exact ⟨r, hclaim, rfl, rfl, by rw [← hclaim.2.1]; rfl⟩

/-- A DONE task and a pending task that waits for it. -/
def twoTasks : Board where
  tasks := [Task.toRow { Task.new "a" 0 with status := .done },
    Task.toRow { Task.new "b" 1 with blockedBy := .ofStrs ["a"] }]
  timeline := []
  primaryKey := by decide

theorem claimOne_takes_waiting_task :
    ∃ c b', claimOne twoTasks "w" none 2 2 = (.ok (some c), b') ∧ c.id = "b" := by
  have hb : twoTasks.ColumnsOk := by
    intro r hr _
    rcases List.mem_pair.mp hr with rfl | rfl
    · exact ⟨[], rfl⟩
    · exact ⟨["a"], rfl⟩
  obtain ⟨-, hpeek, -⟩ := claimOne_refines_unblocked twoTasks none hb "w" 2 2
  exact (hpeek _ rfl).2 _ _ rfl

end Swarm.Kanban
