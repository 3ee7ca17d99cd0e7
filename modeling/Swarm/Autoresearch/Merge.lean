import Mathlib.Data.List.Forall2
import Mathlib.Data.List.Perm.Basic
import Swarm.Autoresearch.Code

/-!
# Where the two ends of an ingest meet

A request of a row without an id has a synthesized one. The merge looks its results up under the ids
that the rows have, so that it never finds such a row.
-/

namespace Swarm.Autoresearch

open Lib

variable (sp : Spelling)

/-! ## The ids of the requests -/

/-- The rows of a package with their positions. -/
def entries (package : Dict) : List (Dict × Nat) := (providerRows sp package).zipIdx

def entryId (package : Dict) (entry : Dict × Nat) : String :=
  customIdForRow sp package entry.1 entry.2

/-- The ids of the requests that the package builds. -/
def requestIds (package : Dict) : List String := (entries sp package).map (entryId sp package)

/-- The ids that rows have themselves. -/
def explicitIds (package : Dict) : List String :=
  ((providerRows sp package).filter hasId).map (rowId sp)

/-- The ids made for the rows without one. -/
def synthesizedIds (package : Dict) : List String :=
  ((entries sp package).filter fun entry => !hasId entry.1).map fun entry => fallbackCustomId sp package entry.2

/-- The packages of which the ids tell the requests apart. -/
structure Distinct (package : Dict) : Prop where
  explicit : (explicitIds sp package).Nodup
  apart : ∀ id ∈ synthesizedIds sp package, id ∉ explicitIds sp package

variable {sp} {package : Dict}

theorem build_ids (dumped : Dict → Nat) (policy : Option AutoresearchChunkingPolicy) :
    (buildAutoresearchIngestRequests sp dumped package policy).map (·.customId) =
      requestIds sp package := by
  simp [buildAutoresearchIngestRequests, requestIds, entries, entryId]

theorem entryId_of_hasId {entry : Dict × Nat} (h : hasId entry.1 = true) :
    entryId sp package entry = rowId sp entry.1 := if_pos h

theorem entryId_of_not_hasId {entry : Dict × Nat} (h : hasId entry.1 = false) :
    entryId sp package entry = fallbackCustomId sp package entry.2 :=
  if_neg (Bool.eq_false_iff.mp h)

theorem entries_rows : (entries sp package).map Prod.fst = providerRows sp package :=
  List.zipIdx_map_fst ..

theorem exists_entry {row : Dict} (h : row ∈ providerRows sp package) :
    ∃ entry ∈ entries sp package, entry.1 = row := by
  rw [← entries_rows] at h
  exact List.mem_map.mp h

theorem fallbackCustomId_injective {i j : Nat}
    (h : fallbackCustomId sp package i = fallbackCustomId sp package j) : i = j := by
  have hrow : "row-" ++ toString (i + 1) = "row-" ++ toString (j + 1) :=
    (String.append_right_inj _).mp h
  have hdigits : Nat.toDigits 10 (i + 1) = Nat.toDigits 10 (j + 1) := by
    have hstr := congrArg String.toList ((String.append_right_inj _).mp hrow)
    simpa [Nat.repr] using hstr
  have hsucc : i + 1 = j + 1 := by
    rw [← Nat.ofDigitChars_ten_toDigits (n := i + 1), hdigits, Nat.ofDigitChars_ten_toDigits]
  omega

theorem explicitIds_eq :
    explicitIds sp package = ((entries sp package).filter fun entry => hasId entry.1).map (entryId sp package) := by
  rw [explicitIds, ← entries_rows, List.filter_map, List.map_map]
  apply List.map_congr_left
  intro entry hentry
  exact (entryId_of_hasId (List.mem_filter.mp hentry).2).symm

theorem synthesizedIds_eq :
    synthesizedIds sp package =
      ((entries sp package).filter fun entry => !hasId entry.1).map (entryId sp package) := by
  apply List.map_congr_left
  intro entry hentry
  exact (entryId_of_not_hasId (by simpa using (List.mem_filter.mp hentry).2)).symm

theorem synthesizedIds_nodup : (synthesizedIds sp package).Nodup := by
  have hsnd : (((entries sp package).filter fun entry => !hasId entry.1).map Prod.snd).Nodup := by
    apply List.Nodup.sublist (List.Sublist.map Prod.snd List.filter_sublist)
    rw [entries, List.zipIdx_map_snd]
    exact List.nodup_range'
  have hmap : synthesizedIds sp package =
      (((entries sp package).filter fun entry => !hasId entry.1).map Prod.snd).map
        (fallbackCustomId sp package) := by
    rw [List.map_map]
    rfl
  rw [hmap]
  exact hsnd.map fun _ _ => fallbackCustomId_injective

theorem requestIds_perm :
    (explicitIds sp package ++ synthesizedIds sp package).Perm (requestIds sp package) := by
  -- The requests are those of the rows with an id and those of the rows without one.
  rw [explicitIds_eq, synthesizedIds_eq, ← List.map_append]
  exact (List.filter_append_perm _ _).map _

theorem mem_requestIds {id : String} :
    id ∈ requestIds sp package ↔ id ∈ explicitIds sp package ∨ id ∈ synthesizedIds sp package := by
  rw [← requestIds_perm.mem_iff, List.mem_append]

theorem requestIds_nodup (h : Distinct sp package) : (requestIds sp package).Nodup := by
  rw [← requestIds_perm.nodup_iff, List.nodup_append]
  exact ⟨h.explicit, synthesizedIds_nodup, fun id hid id' hid' heq => h.apart id' hid' (heq ▸ hid)⟩

theorem entryId_mem_explicitIds (h : Distinct sp package) {entry : Dict × Nat}
    (hentry : entry ∈ entries sp package) :
    entryId sp package entry ∈ explicitIds sp package ↔ hasId entry.1 = true := by
  cases hid : hasId entry.1 with
  | true =>
    rw [explicitIds_eq]
    exact iff_of_true (List.mem_map.mpr ⟨entry, List.mem_filter.mpr ⟨hentry, hid⟩, rfl⟩) rfl
  | false =>
    have hmem : entryId sp package entry ∈ synthesizedIds sp package := by
      rw [synthesizedIds_eq]
      exact List.mem_map_of_mem (List.mem_filter.mpr ⟨hentry, by simp [hid]⟩)
    simpa using h.apart _ hmem

/-! ## The rows without an id at the end -/

variable (sp) in
/-- No row has an id after one that has none. -/
def IdlessLast (package : Dict) : Prop :=
  (providerRows sp package).Pairwise fun row later => hasId later = true → hasId row = true

theorem map_eq_partition {α β : Type*} (p : α → Bool) (f : α → β) {l : List α}
    (h : ∀ a ∈ l, ∀ b ∈ l, p a = true → p b = false → f a ≠ f b) :
    ((l.filter p).map f ++ (l.filter fun a => !p a).map f = l.map f) ↔
      l.Pairwise fun a b => p b = true → p a = true := by
  induction l with
  | nil => simp
  | cons a l ih =>
    have hl := ih fun x hx y hy => h x (by simp [hx]) y (by simp [hy])
    cases hp : p a with
    | true => simpa [hp] using hl
    | false =>
      rw [List.filter_cons_of_neg (by simp [hp]), List.filter_cons_of_pos (by simp [hp]), List.pairwise_cons]
      cases hfilter : l.filter p with
      | nil =>
        have hnone : ∀ b ∈ l, p b = false := by simpa [List.filter_eq_nil_iff] using hfilter
        have hall : l.filter (fun a => !p a) = l :=
          List.filter_eq_self.mpr fun b hb => by simp [hnone b hb]
        have hpair : l.Pairwise fun a b => p b = true → p a = true :=
          List.pairwise_of_forall_mem_list fun x _ y hy hpy => by simp [hnone y hy] at hpy
        simp [hall, hpair, hp]
        exact hnone
      | cons b rest =>
        obtain ⟨hb, hpb⟩ := List.mem_filter.mp (by rw [hfilter]; simp : b ∈ l.filter p)
        constructor
        · intro heq
          exact absurd (List.cons.inj heq).1 (h b (by simp [hb]) a (by simp) hpb hp)
        · intro hpair
          exact absurd (hpair.1 b hb hpb) (by simp [hp])

theorem requestIds_split (h : Distinct sp package) :
    explicitIds sp package ++ synthesizedIds sp package = requestIds sp package ↔
      IdlessLast sp package := by
  rw [explicitIds_eq, synthesizedIds_eq, requestIds, map_eq_partition]
  · rw [IdlessLast, ← entries_rows, List.pairwise_map]
  · intro a ha b hb hpa hpb heq
    have hmem := (entryId_mem_explicitIds h ha).mpr hpa
    rw [heq, entryId_mem_explicitIds h hb, hpb] at hmem
    exact Bool.false_ne_true hmem

/-! ## One result -/

/-- The fields that a result sets in its row. -/
def resultFields : List String :=
  ["custom_id", "status", "output_text", "error", "usage", "stop_reason", "terminal"]

variable (sp) in
def resultId (result : IngestResult) : String := result.customId.toStr sp

variable {result : IngestResult} {old : Dict}

theorem resultRow_keys : (resultRow sp result).map (·.1) = resultFields := by cases result <;> rfl

theorem lookup_updated (key : String) :
    (assocUpdate old (resultRow sp result)).lookup key =
      ((resultRow sp result).lookup key).or (old.lookup key) :=
  lookup_assocUpdate old (by rw [resultRow_keys]; decide) key

theorem get_updated {key : String} {v : Json} (h : (resultRow sp result).lookup key = some v) :
    Json.get (assocUpdate old (resultRow sp result)) key = v := by
  simp [Json.get, lookup_updated, h]

@[simp] theorem updated_customId :
    Json.get (assocUpdate old (resultRow sp result)) "custom_id" = result.customId :=
  get_updated (by cases result <;> rfl)

@[simp] theorem updated_status :
    Json.get (assocUpdate old (resultRow sp result)) "status" = result.status :=
  get_updated (by cases result <;> rfl)

@[simp] theorem updated_terminal :
    Json.get (assocUpdate old (resultRow sp result)) "terminal" =
      .bool ((result.status.or (.str "")).toStr sp ∈ TERMINAL_STATUSES) :=
  get_updated (by cases result <;> rfl)

theorem updated_rest {key : String} (h : key ∉ resultFields) :
    (assocUpdate old (resultRow sp result)).lookup key = old.lookup key := by
  rw [lookup_updated, lookup_eq_none_of_not_mem (resultRow_keys ▸ h), Option.none_or]

@[simp] theorem rowId_updated :
    rowId sp (assocUpdate old (resultRow sp result)) = resultId sp result := by
  simp [rowId, resultId]

theorem rowId_resultRow : rowId sp (resultRow sp result) = resultId sp result := by
  cases result <;> rfl

/-! ## All results -/

/-- The row of an id that no row of the package has. -/
def freshRow (id : String) : Dict := [("custom_id", .str id)]

/-- The row of an id so far, or the one it would start with. -/
def Merging.row (s : Merging) (id : String) : Dict := (s.byCustomId.lookup id).getD (freshRow id)

variable (sp) in
def mergeAll (s : Merging) (results : List IngestResult) : Merging :=
  results.foldl (mergeResult sp) s

variable {s : Merging} {results : List IngestResult}

@[simp] theorem mergeAll_nil : mergeAll sp s [] = s := rfl

@[simp] theorem mergeAll_cons :
    mergeAll sp s (result :: results) = mergeAll sp (mergeResult sp s result) results := rfl

theorem lookup_mergeResult (id : String) :
    (mergeResult sp s result).byCustomId.lookup id =
      if id = resultId sp result then some (assocUpdate (s.row id) (resultRow sp result))
      else s.byCustomId.lookup id := by
  rw [mergeResult, lookup_assocSet, rowId_resultRow]
  split
  · next heq =>
    subst heq
    rfl
  · rfl

theorem row_mergeResult (id : String) :
    (mergeResult sp s result).row id =
      if id = resultId sp result then assocUpdate (s.row id) (resultRow sp result) else s.row id := by
  rw [Merging.row, lookup_mergeResult]
  split <;> rfl

theorem orderedIds_mergeResult :
    (mergeResult sp s result).orderedIds =
      if resultId sp result ∈ s.orderedIds then s.orderedIds else s.orderedIds ++ [resultId sp result] := by
  rw [mergeResult, rowId_resultRow]

/-- What every result makes of its row holds of the row at the end, as does what no result is
about. -/
theorem row_mergeAll {Q : String → Dict → Prop}
    (hupdate : ∀ result ∈ results, ∀ old,
      Q (resultId sp result) (assocUpdate old (resultRow sp result)))
    {id : String} (h : Q id (s.row id) ∨ id ∈ results.map (resultId sp)) :
    Q id ((mergeAll sp s results).row id) := by
  induction results generalizing s with
  | nil => simpa using h
  | cons first rest ih =>
    have hrest : ∀ result ∈ rest, ∀ old, Q (resultId sp result) (assocUpdate old (resultRow sp result)) :=
      fun result hresult => hupdate result (by simp [hresult])
    apply ih hrest
    rw [row_mergeResult]
    by_cases heq : id = resultId sp first
    · rw [if_pos heq, heq]
      exact Or.inl (hupdate first (by simp) _)
    · rw [if_neg heq]
      simpa [heq] using h

theorem row_mergeAll_of_not_mem {id : String} (h : id ∉ results.map (resultId sp)) :
    (mergeAll sp s results).row id = s.row id := by
  induction results generalizing s with
  | nil => rfl
  | cons first rest ih =>
    rw [List.map_cons, List.mem_cons, not_or] at h
    rw [mergeAll_cons, ih h.2, row_mergeResult, if_neg h.1]

theorem row_mergeAll_of_mem (hnodup : (results.map (resultId sp)).Nodup) (h : result ∈ results) :
    (mergeAll sp s results).row (resultId sp result) =
      assocUpdate (s.row (resultId sp result)) (resultRow sp result) := by
  induction results generalizing s with
  | nil => cases h
  | cons first rest ih =>
    obtain ⟨hfirst, hrest⟩ := List.nodup_cons.mp hnodup
    rcases List.mem_cons.mp h with rfl | hmem
    · rw [mergeAll_cons, row_mergeAll_of_not_mem hfirst, row_mergeResult, if_pos rfl]
    · have hne : resultId sp result ≠ resultId sp first :=
        fun heq => hfirst (heq ▸ List.mem_map_of_mem hmem)
      rw [mergeAll_cons, ih hrest hmem, row_mergeResult, if_neg hne]

theorem orderedIds_mergeAll (hnodup : (results.map (resultId sp)).Nodup) :
    (mergeAll sp s results).orderedIds =
      s.orderedIds ++ (results.map (resultId sp)).filter (· ∉ s.orderedIds) := by
  induction results generalizing s with
  | nil => simp
  | cons first rest ih =>
    obtain ⟨hfirst, hrest⟩ := List.nodup_cons.mp hnodup
    rw [mergeAll_cons, ih hrest, orderedIds_mergeResult]
    by_cases hmem : resultId sp first ∈ s.orderedIds
    · simp [hmem]
    · have hfilter : (rest.map (resultId sp)).filter (· ∉ s.orderedIds ++ [resultId sp first]) =
          (rest.map (resultId sp)).filter (· ∉ s.orderedIds) := by
        apply List.filter_congr
        intro id hid
        have hne : id ≠ resultId sp first := fun heq => hfirst (heq ▸ hid)
        simp [hne]
      rw [if_neg hmem, hfilter]
      simp [hmem]

theorem mem_orderedIds_mergeAll {id : String} :
    id ∈ (mergeAll sp s results).orderedIds ↔
      id ∈ s.orderedIds ∨ id ∈ results.map (resultId sp) := by
  induction results generalizing s with
  | nil => simp
  | cons first rest ih =>
    have hfirst : id ∈ (mergeResult sp s first).orderedIds ↔ id ∈ s.orderedIds ∨ id = resultId sp first := by
      rw [orderedIds_mergeResult]
      split
      · next hmem => exact ⟨Or.inl, fun h => h.elim (fun hid => hid) fun heq => heq ▸ hmem⟩
      · simp
    rw [mergeAll_cons, ih, hfirst, List.map_cons, List.mem_cons, or_assoc]

/-! ## The rows that the merge reads back -/

/-- No lookup of an id can fail. -/
def Merging.Keyed (s : Merging) : Prop := ∀ id ∈ s.orderedIds, (s.byCustomId.lookup id).isSome

theorem Merging.Keyed.mergeResult (h : s.Keyed) : (mergeResult sp s result).Keyed := by
  intro id hid
  rw [lookup_mergeResult]
  split
  · rfl
  · next hne =>
    have hold : id ∈ s.orderedIds := by
      have hmem : id ∈ s.orderedIds ∨ id ∈ [result].map (resultId sp) :=
        mem_orderedIds_mergeAll.mp hid
      simpa [hne] using hmem
    exact h id hold

theorem Merging.Keyed.mergeAll (h : s.Keyed) : (mergeAll sp s results).Keyed := by
  induction results generalizing s with
  | nil => exact h
  | cons first rest ih => exact ih h.mergeResult

theorem held_of_isSome {id : String} (h : (s.byCustomId.lookup id).isSome) :
    s.held id = .ok (s.row id) := by
  obtain ⟨row, hrow⟩ := Option.isSome_iff_exists.mp h
  simp [Merging.held, Merging.row, hrow]

theorem Merging.Keyed.rows (h : s.Keyed) : s.rows = .ok (s.orderedIds.map s.row) := by
  have hmap : ∀ ids : List String, (∀ id ∈ ids, (s.byCustomId.lookup id).isSome) →
      ids.mapM s.held = .ok (ids.map s.row) := by
    intro ids hids
    induction ids with
    | nil => rfl
    | cons id rest ih =>
      rw [List.mapM_cons, held_of_isSome (hids id (by simp)), ih fun id hid => hids id (by simp [hid])]
      rfl
  exact hmap s.orderedIds h

variable (sp) in
def start (package : Dict) : Merging := startMerging sp (providerRows sp package)

variable (sp) in
/-- The locals of the merge after the last result. -/
abbrev merging (package : Dict) (results : List IngestResult) : Merging :=
  mergeAll sp (start sp package) results

@[simp] theorem orderedIds_start : (start sp package).orderedIds = explicitIds sp package := rfl

variable (sp) in
/-- The rows that have an id, under it. -/
def pairs (package : Dict) : List (String × Dict) :=
  ((providerRows sp package).filter hasId).map fun row => (rowId sp row, row)

theorem pairs_keys : (pairs sp package).map (·.1) = explicitIds sp package := by
  simp [pairs, explicitIds]

theorem lookup_startMerging {rows : List Dict} (h : ((rows.filter hasId).map (rowId sp)).Nodup)
    (id : String) :
    (startMerging sp rows).byCustomId.lookup id =
      ((rows.filter hasId).map fun row => (rowId sp row, row)).lookup id := by
  have hkeys : (((rows.filter hasId).map fun row => (rowId sp row, row)).map (·.1)).Nodup := by
    rw [List.map_map]
    exact h
  have hupdate := lookup_assocUpdate [] hkeys id
  rw [assocUpdate, List.foldl_map] at hupdate
  rw [startMerging, hupdate, List.lookup_nil, Option.or_none]

theorem lookup_start (h : (explicitIds sp package).Nodup) (id : String) :
    (start sp package).byCustomId.lookup id = (pairs sp package).lookup id :=
  lookup_startMerging h id

theorem row_start_of_mem (h : (explicitIds sp package).Nodup) {row : Dict}
    (hrow : row ∈ providerRows sp package) (hid : hasId row = true) :
    (start sp package).row (rowId sp row) = row := by
  have hmem : (rowId sp row, row) ∈ pairs sp package :=
    List.mem_map.mpr ⟨row, List.mem_filter.mpr ⟨hrow, hid⟩, rfl⟩
  rw [Merging.row, lookup_start h, lookup_of_mem (pairs_keys ▸ h) hmem]
  rfl

theorem row_start_of_not_mem (h : (explicitIds sp package).Nodup) {id : String}
    (hid : id ∉ explicitIds sp package) : (start sp package).row id = freshRow id := by
  rw [Merging.row, lookup_start h, lookup_eq_none_of_not_mem (pairs_keys ▸ hid)]
  rfl

end Swarm.Autoresearch
