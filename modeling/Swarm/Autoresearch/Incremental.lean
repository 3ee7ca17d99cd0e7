import Swarm.Autoresearch.Pass

/-!
# Results that come in parts

A merged package is merged again. Its `provider_batch` is the dict of the merge before, which holds
the rows.
-/

namespace Swarm.Autoresearch

open Lib

section

variable (sp : Spelling)

/-! ## The merge of a merged package -/

/-- `_provider_rows`, with what the `provider_batch` has under a key. -/
def providerRowsFrom (package : Dict) (get : String → Json) : List Dict :=
  let rows := (asList (get "results")).filterMap Json.dict?
  if rows ≠ [] then rows
  else
    let customIds := ((asList (get "custom_ids")).filter (·.truthy)).map (·.toStr sp)
    if customIds ≠ [] then customIds.map bareRow
    else [bareRow (fallbackCustomId sp package 0)]

theorem providerRows_eq (package : Dict) :
    providerRows sp package =
      providerRowsFrom sp package (Json.get (asMapping (mappingValue package "provider_batch" (.obj [])))) := rfl

/-- The merge, with `dict(provider_batch)` and the rows of the package. -/
def mergeFrom (package : Dict) (batch : Except PyError (List (Json × Json)))
    (existingRows : List Dict) (results : List IngestResult) : Except PyError Merged := do
  let entries ← batch
  let merging := results.foldl (mergeResult sp) (startMerging sp existingRows)
  let summary ← summarizeRows sp (← merging.rows)
  return { package := markUnverified sp package, entries, summary }

theorem merge_eq (package : Dict) (results : List IngestResult) :
    mergeAutoresearchIngestResults sp package results =
      mergeFrom sp package (providerBatchOr package).asDict (providerRows sp package) results := rfl

end

/-- The summary as a dict. -/
def Summary.toDict (s : Summary) : Dict :=
  [("result_count", .int s.resultCount), ("custom_ids", Json.ofStrs s.customIds),
   ("terminal_status_count", .int s.terminalStatusCount), ("succeeded_count", .int s.succeededCount),
   ("failed_count", .int s.failedCount), ("results", .arr (s.results.map .obj)),
   ("passes_static_thresholds", .bool s.passesStaticThresholds)]

/-- What a summary writes into the `provider_batch`. -/
def summaryKeys : List String :=
  ["result_count", "custom_ids", "terminal_status_count", "succeeded_count", "failed_count", "results",
    "passes_static_thresholds"]

/-- No key of the summary. -/
def foreign (kv : Json × Json) : Bool := summaryKeys.all fun key => kv.1.str? != some key

/-- `provider_batch` of a merged package, as a dict: the order of the keys does not count. -/
def Merged.batch (m : Merged) : List (Json × Json) :=
  m.entries.filter foreign ++ m.summary.toDict.map fun kv => (.str kv.1, kv.2)

/-- `d.get(key)`, of a dict with any keys. -/
def batchGet (batch : List (Json × Json)) (key : String) : Json :=
  ((batch.find? fun kv => kv.1.str? == some key).map (·.2)).getD .null

section

variable (sp : Spelling)

/-- The merge of a merged package. -/
def Merged.merge (m : Merged) (results : List IngestResult) : Except PyError Merged :=
  mergeFrom sp m.package (.ok m.batch) (providerRowsFrom sp m.package (batchGet m.batch)) results

/-- What is compared of a merged package: `provider_batch` and the other keys. -/
def Merged.value (m : Merged) : Dict × List (Json × Json) := (m.package, m.batch)

/-! ## What is asked -/

/-- A text that is not empty. -/
def Named (customId : Json) : Prop := ∃ id, id ≠ "" ∧ customId = .str id

/-- The rows of the package have ids of their own. -/
structure Identified (package : Dict) : Prop where
  named : ∀ row ∈ providerRows sp package, Named (Json.get row "custom_id")
  distinct : (explicitIds sp package).Nodup

/-- Merging in parts, again and in another order. -/
structure Incremental (package : Dict) (first later : List IngestResult) : Prop where
  append : ((mergeAutoresearchIngestResults sp package first).bind (·.merge sp later)).map Merged.value =
    (mergeAutoresearchIngestResults sp package (first ++ later)).map Merged.value
  again : ((mergeAutoresearchIngestResults sp package first).bind (·.merge sp first)).map Merged.value =
    (mergeAutoresearchIngestResults sp package first).map Merged.value
  perm : (first.map (resultId sp)).Nodup → (∀ result ∈ first, resultId sp result ∈ explicitIds sp package) →
    ∀ permuted, permuted.Perm first →
      mergeAutoresearchIngestResults sp package permuted = mergeAutoresearchIngestResults sp package first

/-! ## What the summary stops at -/

/-- `status in TERMINAL_STATUSES` raises. -/
def statusError : Json → Option PyError
  | .arr _ => some (.typeError "unhashable type: 'list'")
  | .obj _ => some (.typeError "unhashable type: 'dict'")
  | _ => none

def rowError (row : Dict) : Option PyError :=
  if (Json.get row "terminal").truthy then none else statusError (Json.get row "status")

/-- The last result with the id. -/
def lastFor : List IngestResult → String → Option IngestResult
  | [], _ => none
  | result :: rest, id =>
    (lastFor rest id).or (if id = resultId sp result then some result else none)

/-- The error of an id: that of its last result, or of its row where it has none. -/
def idError (package : Dict) (results : List IngestResult) (id : String) : Option PyError :=
  match lastFor sp results id with
  | some result => statusError result.status
  | none => ((pairs sp package).lookup id).bind rowError

/-- The first error in the order of the rows of the package and then of the results. -/
def firstError (package : Dict) (results : List IngestResult) : Option PyError :=
  (explicitIds sp package ++ results.map (resultId sp)).findSome? (idError sp package results)

end

variable {sp : Spelling} {package : Dict} {s t : Merging} {results first later : List IngestResult}

/-! ## The state of a merge -/

/-- Two states of which a merge makes the same. -/
structure Merging.Same (s t : Merging) : Prop where
  orderedIds : s.orderedIds = t.orderedIds
  row : ∀ id, s.row id = t.row id

theorem Merging.Same.mergeAll (h : s.Same t) :
    (mergeAll sp s results).Same (mergeAll sp t results) := by
  induction results generalizing s t with
  | nil => exact h
  | cons result rest ih =>
    refine ih ⟨?_, fun id => ?_⟩
    · rw [orderedIds_mergeResult, orderedIds_mergeResult, h.orderedIds]
    · rw [row_mergeResult, row_mergeResult, h.row]

/-- Every id is one of its own, and its row has it. -/
structure Merging.Sane (s : Merging) : Prop where
  nodup : s.orderedIds.Nodup
  ids : ∀ id ∈ s.orderedIds, id ≠ "" ∧ Json.get (s.row id) "custom_id" = .str id
  keyed : s.Keyed
  fresh : ∀ id, id ∉ s.orderedIds → s.row id = freshRow id

variable (sp) in
theorem Named.toStr {customId : Json} (h : Named customId) :
    customId.toStr sp ≠ "" ∧ customId = .str (customId.toStr sp) := by
  obtain ⟨id, hid, rfl⟩ := h
  exact ⟨hid, rfl⟩

theorem Merging.Sane.mergeResult (h : s.Sane) {result : IngestResult}
    (hnamed : Named result.customId) :
    (mergeResult sp s result).Sane := by
  obtain ⟨hne, hid⟩ := hnamed.toStr sp
  have hmem : ∀ id, id ∈ (Autoresearch.mergeResult sp s result).orderedIds ↔
      id ∈ s.orderedIds ∨ id = resultId sp result := by
    intro id
    have hone : id ∈ (mergeAll sp s [result]).orderedIds ↔ id ∈ s.orderedIds ∨ id ∈ [result].map (resultId sp) :=
      mem_orderedIds_mergeAll
    simpa using hone
  refine ⟨?_, fun id hmember => ?_, h.keyed.mergeResult, fun id hnot => ?_⟩
  · rw [orderedIds_mergeResult]
    split
    · exact h.nodup
    · next hnew =>
      refine List.nodup_append.mpr ⟨h.nodup, by simp, fun id hid other hother heq => hnew ?_⟩
      rwa [← List.mem_singleton.mp hother, ← heq]
  · rw [row_mergeResult]
    split
    · next heq =>
      subst heq
      rw [updated_customId]
      exact ⟨hne, hid⟩
    · next hother => exact h.ids id (((hmem id).mp hmember).resolve_right hother)
  · rw [hmem, not_or] at hnot
    rw [row_mergeResult, if_neg hnot.2, h.fresh id hnot.1]

theorem Merging.Sane.mergeAll (h : s.Sane) (hnamed : ∀ result ∈ results, Named result.customId) :
    (mergeAll sp s results).Sane := by
  induction results generalizing s with
  | nil => exact h
  | cons result rest ih =>
    exact ih (h.mergeResult (hnamed result (by simp))) fun later hlater => hnamed later (by simp [hlater])

theorem hasId_of_named {row : Dict} (h : Named (Json.get row "custom_id")) : hasId row = true := by
  obtain ⟨id, hid, heq⟩ := h
  simpa [hasId, heq, Json.truthy] using hid

theorem startMerging_sane {rows : List Dict}
    (hnamed : ∀ row ∈ rows, Named (Json.get row "custom_id"))
    (hdistinct : (rows.map (rowId sp)).Nodup) :
    (startMerging sp rows).Sane ∧ (startMerging sp rows).orderedIds = rows.map (rowId sp) ∧
      ∀ row ∈ rows, (startMerging sp rows).row (rowId sp row) = row := by
  have hall : rows.filter hasId = rows :=
    List.filter_eq_self.mpr fun row hrow => hasId_of_named (hnamed row hrow)
  have hordered : (startMerging sp rows).orderedIds = rows.map (rowId sp) := by
    rw [startMerging, hall]
  have hkept : ((rows.filter hasId).map (rowId sp)).Nodup := by rwa [hall]
  have hlookup := lookup_startMerging hkept
  rw [hall] at hlookup
  have hkeys : ((rows.map fun row => (rowId sp row, row)).map (·.1)).Nodup := by
    rw [List.map_map]
    exact hdistinct
  have hfound : ∀ row ∈ rows, (startMerging sp rows).byCustomId.lookup (rowId sp row) = some row := by
    intro row hrow
    exact (hlookup _).trans (lookup_of_mem hkeys (List.mem_map.mpr ⟨row, hrow, rfl⟩))
  have hrow : ∀ row ∈ rows, (startMerging sp rows).row (rowId sp row) = row := by
    intro row hrow
    rw [Merging.row, hfound row hrow, Option.getD_some]
  refine ⟨⟨hordered ▸ hdistinct, ?_, ?_, ?_⟩, hordered, hrow⟩
  · intro id hid
    rw [hordered] at hid
    obtain ⟨row, hmem, rfl⟩ := List.mem_map.mp hid
    rw [hrow row hmem]
    exact (hnamed row hmem).toStr sp
  · intro id hid
    rw [hordered] at hid
    obtain ⟨row, hmem, rfl⟩ := List.mem_map.mp hid
    rw [hfound row hmem]
    rfl
  · intro id hid
    rw [hordered] at hid
    rw [Merging.row, hlookup, lookup_eq_none_of_not_mem (by simpa using hid)]
    rfl

/-- The rows of a state. -/
def Merging.list (s : Merging) : List Dict := s.orderedIds.map s.row

theorem Merging.Same.list (h : s.Same t) : s.list = t.list := by
  unfold Merging.list
  rw [h.orderedIds]
  exact List.map_congr_left fun id _ => h.row id

variable (sp) in
theorem Merging.Sane.restart (h : s.Sane) :
    (startMerging sp s.list).Same s ∧ (startMerging sp s.list).Keyed := by
  have hids : s.list.map (rowId sp) = s.orderedIds := by
    rw [Merging.list, List.map_map]
    refine (List.map_congr_left fun id hid => ?_).trans s.orderedIds.map_id
    rw [Function.comp_apply, rowId, (h.ids id hid).2]
    rfl
  obtain ⟨hsane, hordered, hrows⟩ := startMerging_sane (by
      intro row hrow
      obtain ⟨id, hid, rfl⟩ := List.mem_map.mp hrow
      exact ⟨id, (h.ids id hid).1, (h.ids id hid).2⟩) (hids ▸ h.nodup)
  refine ⟨⟨hordered.trans hids, fun id => ?_⟩, hsane.keyed⟩
  by_cases hid : id ∈ s.orderedIds
  · have hrow := hrows (s.row id) (List.mem_map_of_mem hid)
    rwa [rowId, (h.ids id hid).2] at hrow
  · rw [h.fresh id hid, hsane.fresh id (by rwa [hordered, hids])]

/-! ## The last result of an id -/

theorem lastFor_append (id : String) :
    lastFor sp (first ++ later) id = (lastFor sp later id).or (lastFor sp first id) := by
  induction first with
  | nil => simp [lastFor]
  | cons result rest ih => rw [List.cons_append, lastFor, lastFor, ih, Option.or_assoc]

theorem row_mergeAll_eq (id : String) :
    (mergeAll sp s results).row id =
      ((lastFor sp results id).map fun result => assocUpdate (s.row id) (resultRow sp result)).getD (s.row id) := by
  have hkeys : ∀ a b : IngestResult, (resultRow sp a).map (·.1) = (resultRow sp b).map (·.1) :=
    fun a b => by
    rw [resultRow_keys, resultRow_keys]
  have hnodup : ∀ a : IngestResult, ((resultRow sp a).map (·.1)).Nodup := fun a => by
    rw [resultRow_keys]
    decide
  induction results generalizing s with
  | nil => rfl
  | cons result rest ih =>
    rw [mergeAll_cons, ih, row_mergeResult, lastFor]
    by_cases hid : id = resultId sp result
    · rw [if_pos hid, if_pos hid]
      cases lastFor sp rest id with
      | none => rfl
      | some last =>
        simp only [Option.map_some, Option.getD_some, Option.some_or]
        exact assocUpdate_assocUpdate _ (hnodup result) (hkeys result last)
    · rw [if_neg hid, if_neg hid, Option.or_none]

theorem orderedIds_mergeAll_self (h : ∀ result ∈ results, resultId sp result ∈ s.orderedIds) :
    (mergeAll sp s results).orderedIds = s.orderedIds := by
  induction results generalizing s with
  | nil => rfl
  | cons result rest ih =>
    have hstep : (mergeResult sp s result).orderedIds = s.orderedIds := by
      rw [orderedIds_mergeResult, if_pos (h result (by simp))]
    rw [mergeAll_cons, ih, hstep]
    intro later hlater
    rw [hstep]
    exact h later (by simp [hlater])

theorem mergeAll_again :
    (mergeAll sp s (results ++ results)).list = (mergeAll sp s results).list := by
  have hsplit : mergeAll sp s (results ++ results) = mergeAll sp (mergeAll sp s results) results :=
    List.foldl_append
  have hordered : (mergeAll sp s (results ++ results)).orderedIds = (mergeAll sp s results).orderedIds := by
    rw [hsplit]
    exact orderedIds_mergeAll_self fun result hresult =>
      mem_orderedIds_mergeAll.mpr (.inr (List.mem_map_of_mem hresult))
  rw [Merging.list, Merging.list, hordered]
  refine List.map_congr_left fun id _ => ?_
  rw [row_mergeAll_eq, row_mergeAll_eq, lastFor_append, Option.or_self]

theorem mergeAll_perm (hnodup : (results.map (resultId sp)).Nodup)
    (hknown : ∀ result ∈ results, resultId sp result ∈ s.orderedIds) {permuted : List IngestResult}
    (hperm : permuted.Perm results) :
    (mergeAll sp s permuted).list = (mergeAll sp s results).list := by
  have hnodup' : (permuted.map (resultId sp)).Nodup := (hperm.map _).nodup_iff.mpr hnodup
  rw [Merging.list, Merging.list, orderedIds_mergeAll_self hknown,
    orderedIds_mergeAll_self fun result hresult => hknown result (hperm.mem_iff.mp hresult)]
  refine List.map_congr_left fun id _ => ?_
  by_cases hid : id ∈ results.map (resultId sp)
  · obtain ⟨result, hresult, rfl⟩ := List.mem_map.mp hid
    rw [row_mergeAll_of_mem hnodup hresult, row_mergeAll_of_mem hnodup' (hperm.mem_iff.mpr hresult)]
  · rw [row_mergeAll_of_not_mem hid, row_mergeAll_of_not_mem (mt (hperm.map _).mem_iff.mp hid)]

/-! ## The summary -/

theorem countsTerminal_eq (row : Dict) :
    countsTerminal row = match rowError row with
      | some e => .error e
      | none => .ok (atEnd row) := by
  unfold countsTerminal rowError atEnd
  split
  · next hterminal => simp [hterminal]
  · next hopen =>
    rw [Bool.eq_false_iff.mpr hopen]
    cases Json.get row "status" <;> rfl

variable (sp) in
theorem summarizeRows_eq (rows : List Dict) :
    (∃ e, rows.findSome? rowError = some e ∧ summarizeRows sp rows = .error e) ∨
      (rows.findSome? rowError = none ∧ ∃ summary, summarizeRows sp rows = .ok summary ∧
        summary.results = rows) := by
  have hcount : (∃ e, rows.findSome? rowError = some e ∧ terminalCount rows = .error e) ∨
      (rows.findSome? rowError = none ∧ ∃ n, terminalCount rows = .ok n) := by
    induction rows with
    | nil => exact .inr ⟨rfl, 0, rfl⟩
    | cons row rest ih =>
      rw [List.findSome?_cons, terminalCount, countsTerminal_eq]
      cases hrow : rowError row with
      | some e => exact .inl ⟨e, rfl, rfl⟩
      | none =>
        rcases ih with ⟨e, hfirst, hrest⟩ | ⟨hnone, n, hrest⟩
        · exact .inl ⟨e, hfirst, by rw [hrest]; rfl⟩
        · exact .inr ⟨hnone, _, by rw [hrest]; rfl⟩
  rcases hcount with ⟨e, hfirst, herror⟩ | ⟨hnone, n, hok⟩
  · exact .inl ⟨e, hfirst, by rw [summarizeRows, herror]; rfl⟩
  · exact .inr ⟨hnone, _, by rw [summarizeRows, hok]; rfl, rfl⟩

theorem rowError_updated (old : Dict) (result : IngestResult) :
    rowError (assocUpdate old (resultRow sp result)) = statusError result.status := by
  -- A status that can be read may be at an end, and one that cannot is at none.
  unfold rowError
  rw [updated_status, updated_terminal]
  split
  · next hterminal =>
    cases hstatus : result.status.hashable with
    | true => cases hs : result.status <;> first | rfl | (rw [hs] at hstatus; cases hstatus)
    | false => exact absurd (by simpa [Json.truthy] using hterminal) (not_terminal_of_not_hashable hstatus)
  · rfl

theorem findSome_orderedIds {ε : Type} (f : String → Option ε) :
    (mergeAll sp s results).orderedIds.findSome? f =
      (s.orderedIds ++ results.map (resultId sp)).findSome? f := by
  induction results generalizing s with
  | nil => simp
  | cons result rest ih =>
    rw [mergeAll_cons, ih, orderedIds_mergeResult, List.map_cons, List.findSome?_append, List.findSome?_append,
      List.findSome?_cons]
    split
    · next hmem =>
      cases hf : f (resultId sp result) with
      | none => rfl
      | some e =>
        have hsome : (s.orderedIds.findSome? f).isSome :=
          List.findSome?_isSome_iff.mpr ⟨_, hmem, by rw [hf]; rfl⟩
        obtain ⟨e', he'⟩ := Option.isSome_iff_exists.mp hsome
        rw [he', Option.some_or, Option.some_or]
    · rw [List.findSome?_append, List.findSome?_singleton]
      cases f (resultId sp result) with
      | none => rw [Option.or_none]
      | some e => rw [Option.or_assoc, Option.some_or]

theorem rowError_merging (h : (explicitIds sp package).Nodup) (id : String) :
    rowError ((merging sp package results).row id) = idError sp package results id := by
  rw [row_mergeAll_eq, idError]
  cases lastFor sp results id with
  | some result => exact rowError_updated _ result
  | none =>
    have hrow : (start sp package).row id = ((pairs sp package).lookup id).getD (freshRow id) := by
      rw [Merging.row, lookup_start h]
    rw [Option.map_none, Option.getD_none, hrow]
    cases (pairs sp package).lookup id <;> rfl

theorem findSome_merging (h : (explicitIds sp package).Nodup) :
    (merging sp package results).list.findSome? rowError = firstError sp package results := by
  have hrows : (fun id => rowError ((merging sp package results).row id)) = idError sp package results :=
    funext fun id => rowError_merging h id
  rw [Merging.list, List.findSome?_map, Function.comp_def, hrows, findSome_orderedIds, orderedIds_start, firstError]

/-! ## The marks of a merge -/

/-- No null, and no text twice or among those seen. -/
structure Unique (sp : Spelling) (seen : List String) (values : List Json) : Prop where
  present : ∀ v ∈ values, v ≠ .null
  distinct : (values.map (Json.toStr sp)).Nodup
  unseen : ∀ v ∈ values, v.toStr sp ∉ seen

theorem uniqueFrom_cons {seen : List String} {v : Json} {rest : List Json} (h : v ≠ .null) :
    uniqueFrom sp seen (v :: rest) =
      if v.toStr sp ∈ seen then uniqueFrom sp seen rest
      else v :: uniqueFrom sp (seen ++ [v.toStr sp]) rest := by
  cases v <;> first | rfl | exact absurd rfl h

variable (sp) in
theorem uniqueFrom_unique (seen : List String) (values : List Json) :
    Unique sp seen (uniqueFrom sp seen values) ∧
      ∀ v ∈ values, v ≠ .null → v.toStr sp ∈ seen ++ (uniqueFrom sp seen values).map (Json.toStr sp) := by
  induction values generalizing seen with
  | nil => exact ⟨⟨by simp [uniqueFrom], by simp [uniqueFrom], by simp [uniqueFrom]⟩, by simp⟩
  | cons v rest ih =>
    by_cases hnull : v = .null
    · subst hnull
      obtain ⟨hunique, hthere⟩ := ih seen
      refine ⟨hunique, fun w hw hne => ?_⟩
      rcases List.mem_cons.mp hw with rfl | hmem
      · exact absurd rfl hne
      · exact hthere w hmem hne
    · rw [uniqueFrom_cons hnull]
      split
      · next hseen =>
        obtain ⟨hunique, hthere⟩ := ih seen
        refine ⟨hunique, fun w hw hne => ?_⟩
        rcases List.mem_cons.mp hw with rfl | hmem
        · exact List.mem_append_left _ hseen
        · exact hthere w hmem hne
      · next hnew =>
        obtain ⟨⟨hpresent, hdistinct, hunseen⟩, hthere⟩ := ih (seen ++ [v.toStr sp])
        refine ⟨⟨?_, ?_, ?_⟩, fun w hw hne => ?_⟩
        · exact List.forall_mem_cons.mpr ⟨hnull, hpresent⟩
        · refine List.nodup_cons.mpr ⟨fun hmem => ?_, hdistinct⟩
          obtain ⟨w, hw, heq⟩ := List.mem_map.mp hmem
          exact hunseen w hw (by simp [heq])
        · exact List.forall_mem_cons.mpr ⟨hnew, fun w hw hmem => hunseen w hw (by simp [hmem])⟩
        · rcases List.mem_cons.mp hw with rfl | hmem
          · simp
          · simpa [List.append_assoc] using hthere w hmem hne

theorem uniqueFrom_self {seen : List String} {values extra : List Json} (h : Unique sp seen values)
    (hextra : ∀ v ∈ extra, v ≠ .null ∧ v.toStr sp ∈ seen ++ values.map (Json.toStr sp)) :
    uniqueFrom sp seen (values ++ extra) = values := by
  -- A list of its own kind is kept, and a text that it has is not added.
  induction values generalizing seen with
  | nil =>
    induction extra with
    | nil => rfl
    | cons v rest ih =>
      obtain ⟨⟨hne, hseen⟩, hrest⟩ := List.forall_mem_cons.mp hextra
      rw [List.nil_append, uniqueFrom_cons hne, if_pos (by simpa using hseen)]
      exact ih hrest
  | cons v rest ih =>
    obtain ⟨hpresent, hdistinct, hunseen⟩ := h
    obtain ⟨hv, hrest⟩ := List.nodup_cons.mp hdistinct
    rw [List.cons_append, uniqueFrom_cons (hpresent v (by simp)), if_neg (hunseen v (by simp)), ih]
    · refine ⟨fun w hw => hpresent w (by simp [hw]), hrest, fun w hw hmem => ?_⟩
      rcases List.mem_append.mp hmem with hold | hnew
      · exact hunseen w (by simp [hw]) hold
      · exact hv (List.mem_map.mpr ⟨w, hw, List.mem_singleton.mp hnew⟩)
    · simpa [List.append_assoc] using hextra

theorem unique_again (values : List Json) (reason : String) :
    unique sp (unique sp (values ++ [.str reason]) ++ [.str reason]) =
      unique sp (values ++ [.str reason]) := by
  obtain ⟨hunique, hthere⟩ := uniqueFrom_unique sp [] (values ++ [.str reason])
  refine uniqueFrom_self hunique ?_
  rintro v hv
  rw [List.mem_singleton.mp hv]
  exact ⟨nofun, hthere _ (by simp) nofun⟩

variable (sp) in
theorem withReason_again {d : Dict} {key reason : String} {values : List Json}
    (h : Settled d key (.arr (unique sp (values ++ [.str reason])))) :
    withReason sp d key reason = d := by
  -- The list that a merge writes under the key ends with its reason.
  have hread : asList (mappingValue d key (.arr [])) = unique sp (values ++ [.str reason]) := by
    rw [mappingValue, h.lookup]
    rfl
  rw [withReason, hread, unique_again]
  exact h.assocSet_same

/-- The flags of a merge. -/
def flags : Dict :=
  [("provider_execution_verified", .bool false), ("runtime_proof_required", .bool true),
   ("protected_runtime_verified", .bool false), ("publish_safe", .bool false)]

theorem markUnverified_again (d : Dict) :
    markUnverified sp (markUnverified sp d) = markUnverified sp d := by
  have hforeign : ∀ kv ∈ flags, kv.1 ≠ "claim_caveats" ∧ kv.1 ≠ "failure_reasons" := by decide
  have hflags : ∀ kv ∈ flags, Settled (markUnverified sp d) kv.1 kv.2 := by
    intro kv hkv
    have hkeys := hforeign kv hkv
    have hset : Settled (assocUpdate d flags) kv.1 kv.2 := settled_of_update d (by decide) kv hkv
    exact (hset.assocSet hkeys.1.symm).assocSet hkeys.2.symm
  have hcaveats : Settled (markUnverified sp d) "claim_caveats" _ :=
    (settled_assocSet (assocUpdate d flags) "claim_caveats" _).assocSet (by decide : "failure_reasons" ≠ _)
  have hreasons : Settled (markUnverified sp d) "failure_reasons" _ := settled_assocSet _ _ _
  have hflagged : assocUpdate (markUnverified sp d) flags = markUnverified sp d :=
    assocUpdate_settled hflags
  have hcaveated := withReason_again sp (d := markUnverified sp d) hcaveats
  have hreasoned := withReason_again sp hreasons
  calc markUnverified sp (markUnverified sp d)
      = withReason sp (withReason sp (assocUpdate (markUnverified sp d) flags) "claim_caveats"
          "not_live_provider_execution_proof") "failure_reasons" "provider_runtime_not_verified" := rfl
    _ = markUnverified sp d := by rw [hflagged, hcaveated, hreasoned]

/-! ## Merging a merged package -/

theorem startMerging_keyed (h : Identified sp package) : (start sp package).Sane := by
  have hall : (providerRows sp package).filter hasId = providerRows sp package :=
    List.filter_eq_self.mpr fun row hrow => hasId_of_named (h.named row hrow)
  refine (startMerging_sane h.named ?_).1
  have hdistinct := h.distinct
  rwa [explicitIds, hall] at hdistinct

theorem mergeFrom_eq (package : Dict) (batch : Except PyError (List (Json × Json)))
    {existingRows : List Dict} (hkeyed : (startMerging sp existingRows).Keyed)
    (results : List IngestResult) :
    mergeFrom sp package batch existingRows results =
      batch.bind fun entries =>
        (summarizeRows sp (mergeAll sp (startMerging sp existingRows) results).list).map fun summary =>
          ⟨markUnverified sp package, entries, summary⟩ := by
  have hrows : (results.foldl (mergeResult sp) (startMerging sp existingRows)).rows =
      .ok (mergeAll sp (startMerging sp existingRows) results).list := hkeyed.mergeAll.rows
  simp only [mergeFrom, hrows]
  cases batch with
  | error e => rfl
  | ok entries =>
    simp only [bind, Except.bind]
    cases summarizeRows sp (mergeAll sp (startMerging sp existingRows) results).list <;> rfl

theorem merge_rows (h : Identified sp package) (results : List IngestResult) :
    mergeAutoresearchIngestResults sp package results =
      (providerBatchOr package).asDict.bind fun entries =>
        (summarizeRows sp (merging sp package results).list).map fun summary =>
          ⟨markUnverified sp package, entries, summary⟩ :=
  mergeFrom_eq package (providerBatchOr package).asDict (startMerging_keyed h).keyed results

variable (sp) in
theorem providerRows_ne_nil (package : Dict) : providerRows sp package ≠ [] := by
  unfold providerRows
  dsimp only
  split
  · assumption
  · split
    · next hids => simpa using hids
    · simp

theorem list_ne_nil (h : Identified sp package) (results : List IngestResult) :
    (merging sp package results).list ≠ [] := by
  obtain ⟨row, hrow⟩ := List.exists_mem_of_ne_nil _ (providerRows_ne_nil sp package)
  have hid : rowId sp row ∈ (merging sp package results).orderedIds :=
    mem_orderedIds_mergeAll.mpr (.inl (List.mem_map_of_mem
      (List.mem_filter.mpr ⟨hrow, hasId_of_named (h.named row hrow)⟩)))
  exact List.ne_nil_of_mem (List.mem_map_of_mem hid)

theorem batchGet_results (m : Merged) :
    batchGet m.batch "results" = .arr (m.summary.results.map .obj) := by
  -- The rows of a merged package are those that its summary holds.
  have hnone : (m.entries.filter foreign).find? (fun kv => kv.1.str? == some "results") = none := by
    refine List.find?_eq_none.mpr fun kv hkv heq => ?_
    have hforeign := List.all_eq_true.mp (List.mem_filter.mp hkv).2 "results" (by decide)
    simp [beq_iff_eq.mp heq] at hforeign
  rw [batchGet, Merged.batch, List.find?_append, hnone, Option.none_or]
  rfl

theorem merged_rows (m : Merged) (hne : m.summary.results ≠ []) :
    providerRowsFrom sp m.package (batchGet m.batch) = m.summary.results := by
  have hrows : (asList (batchGet m.batch "results")).filterMap Json.dict? = m.summary.results := by
    rw [batchGet_results]
    exact Json.filterMap_dict? m.summary.results
  simp only [providerRowsFrom, hrows, if_pos hne]

theorem filter_batch (m : Merged) : m.batch.filter foreign = m.entries.filter foreign := by
  have hsummary : (m.summary.toDict.map fun kv => (Json.str kv.1, kv.2)).filter foreign = [] := rfl
  rw [Merged.batch, List.filter_append, List.filter_filter, hsummary, List.append_nil]
  simp

variable (sp) in
/-- What is compared of a merge with these entries and rows. -/
def outcome (package : Dict) (entries : List (Json × Json)) (rows : List Dict) :
    Except PyError (Dict × List (Json × Json)) :=
  (summarizeRows sp rows).map fun summary => Merged.value ⟨markUnverified sp package, entries, summary⟩

theorem merge_outcome (h : Identified sp package) (results : List IngestResult) :
    (mergeAutoresearchIngestResults sp package results).map Merged.value =
      (providerBatchOr package).asDict.bind fun entries =>
        outcome sp package entries (merging sp package results).list := by
  rw [merge_rows h]
  unfold outcome
  cases (providerBatchOr package).asDict with
  | error e => rfl
  | ok entries =>
    simp only [Except.bind]
    cases summarizeRows sp (merging sp package results).list <;> rfl

/-- The merge of a merged package comes to what one merge of all results does. -/
theorem merged_outcome (h : Identified sp package)
    (hfirst : ∀ result ∈ first, Named result.customId) {m : Merged}
    (hpackage : m.package = markUnverified sp package)
    (hresults : m.summary.results = (merging sp package first).list) (later : List IngestResult) :
    (m.merge sp later).map Merged.value =
      outcome sp package m.entries (merging sp package (first ++ later)).list := by
  have hsane : (merging sp package first).Sane := (startMerging_keyed h).mergeAll hfirst
  have hrows : providerRowsFrom sp m.package (batchGet m.batch) = (merging sp package first).list := by
    rw [merged_rows m (hresults ▸ list_ne_nil h first), hresults]
  obtain ⟨hrestart, hkeyed⟩ := hsane.restart sp
  have hsplit : merging sp package (first ++ later) = mergeAll sp (merging sp package first) later :=
    List.foldl_append
  have hsame : (mergeAll sp (startMerging sp (merging sp package first).list) later).list =
      (merging sp package (first ++ later)).list := by
    rw [hsplit]
    exact hrestart.mergeAll.list
  rw [Merged.merge, hrows, mergeFrom_eq _ _ hkeyed, hsame]
  unfold outcome
  simp only [Except.bind, hpackage, markUnverified_again]
  cases summarizeRows sp (merging sp package (first ++ later)).list with
  | error e => rfl
  | ok summary =>
    have hbatch : Merged.batch ⟨markUnverified sp package, m.batch, summary⟩ =
        Merged.batch ⟨markUnverified sp package, m.entries, summary⟩ := congrArg (· ++ _) (filter_batch m)
    exact congrArg (fun batch => Except.ok (markUnverified sp package, batch)) hbatch

/-- A second merge, where the first one may have stopped. -/
theorem merge_merge (h : Identified sp package) (hfirst : ∀ result ∈ first, Named result.customId)
    (later : List IngestResult) :
    ((mergeAutoresearchIngestResults sp package first).bind (·.merge sp later)).map Merged.value =
      (providerBatchOr package).asDict.bind fun entries =>
        (summarizeRows sp (merging sp package first).list).bind fun _ =>
          outcome sp package entries (merging sp package (first ++ later)).list := by
  rw [merge_rows h]
  cases (providerBatchOr package).asDict with
  | error e => rfl
  | ok entries =>
    rcases summarizeRows_eq sp (merging sp package first).list with ⟨e, -, herror⟩ | ⟨-, summary, hok, hresults⟩
    · simp only [Except.bind, herror]
      rfl
    · simp only [Except.bind, hok, Except.map]
      exact merged_outcome h hfirst (m := ⟨markUnverified sp package, entries, summary⟩) rfl hresults later

/-! ## Merging in parts -/

theorem outcome_error_iff {entries : List (Json × Json)} {rows : List Dict} {e : PyError} :
    outcome sp package entries rows = .error e ↔ rows.findSome? rowError = some e := by
  unfold outcome
  rcases summarizeRows_eq sp rows with ⟨e', hfirst, herror⟩ | ⟨hnone, summary, hok, -⟩
  · rw [herror, hfirst]
    simp [Except.map, eq_comm]
  · rw [hok, hnone]
    simp [Except.map]

theorem append_iff (h : Identified sp package) (hfirst : ∀ result ∈ first, Named result.customId) :
    ((mergeAutoresearchIngestResults sp package first).bind (·.merge sp later)).map Merged.value =
        (mergeAutoresearchIngestResults sp package (first ++ later)).map Merged.value ↔
      (Convertible package → ∀ e, firstError sp package first = some e →
        firstError sp package (first ++ later) = some e) := by
  rw [merge_merge h hfirst, merge_outcome h, Convertible]
  cases (providerBatchOr package).asDict with
  | error e => exact iff_of_true rfl (by simp)
  | ok entries =>
    rw [← findSome_merging h.distinct, ← findSome_merging h.distinct]
    simp only [Except.bind, Except.ok.injEq, exists_eq', true_imp_iff]
    rcases summarizeRows_eq sp (merging sp package first).list with ⟨e, hstops, herror⟩ | ⟨hnone, summary, hok, -⟩
    · rw [herror, hstops]
      simp only [Option.some.injEq, forall_eq', eq_comm (a := Except.error e)]
      exact outcome_error_iff
    · rw [hok, hnone]
      exact iff_of_true rfl (by simp)

theorem merge_again (h : Identified sp package) (hfirst : ∀ result ∈ first, Named result.customId) :
    ((mergeAutoresearchIngestResults sp package first).bind (·.merge sp first)).map Merged.value =
      (mergeAutoresearchIngestResults sp package first).map Merged.value := by
  rw [merge_merge h hfirst, merge_outcome h, mergeAll_again]
  cases (providerBatchOr package).asDict with
  | error e => rfl
  | ok entries =>
    unfold outcome
    simp only [Except.bind]
    cases summarizeRows sp (merging sp package first).list <;> rfl

theorem merge_perm (h : Identified sp package) (hnodup : (first.map (resultId sp)).Nodup)
    (hknown : ∀ result ∈ first, resultId sp result ∈ explicitIds sp package)
    {permuted : List IngestResult} (hperm : permuted.Perm first) :
    mergeAutoresearchIngestResults sp package permuted =
      mergeAutoresearchIngestResults sp package first := by
  rw [merge_rows h, merge_rows h, mergeAll_perm hnodup hknown hperm]

/-- **When results can be merged in parts.** Every status in the rows after the first part can be
read, or the rows after all parts stop the summary at the same error. -/
theorem incremental_iff (h : Identified sp package)
    (hfirst : ∀ result ∈ first, Named result.customId) (later : List IngestResult) :
    Incremental sp package first later ↔
      (Convertible package → ∀ e, firstError sp package first = some e →
        firstError sp package (first ++ later) = some e) := by
  rw [← append_iff h hfirst]
  constructor
  · exact fun hall => hall.append
  · intro happend
    exact ⟨happend, merge_again h hfirst, fun hnodup hknown permuted hperm => merge_perm h hnodup hknown hperm⟩

/-! ## A status that is a list -/

theorem packageOf_identified {rows : List Dict} (hne : rows ≠ [])
    (hnamed : ∀ row ∈ rows, Named (Json.get row "custom_id"))
    (hdistinct : (rows.map (rowId plainSpelling)).Nodup) :
    Identified plainSpelling (packageOf rows) := by
  have hrows : providerRows plainSpelling (packageOf rows) = rows := by
    have hread : asList (Json.get (asMapping (mappingValue (packageOf rows) "provider_batch" (.obj []))) "results") =
        rows.map .obj := rfl
    rw [providerRows_eq]
    simp only [providerRowsFrom, hread, Json.filterMap_dict?, if_pos hne]
  have hall : rows.filter hasId = rows :=
    List.filter_eq_self.mpr fun row hrow => hasId_of_named (hnamed row hrow)
  refine ⟨by rwa [hrows], ?_⟩
  rwa [explicitIds, hrows, hall]

theorem named_incremental :
    Incremental plainSpelling (packageOf [rowA,
      rowB]) [resultFor "b" "errored"] [resultFor "a" "succeeded"] := by
  have hidentified : Identified plainSpelling (packageOf [rowA, rowB]) :=
    packageOf_identified (by simp) (by simp [rowA, rowB, Named, Json.get]) (by decide)
  refine (incremental_iff hidentified (by simp [resultFor, IngestResult.customId, Named]) _).mpr ?_
  intro _ e he
  cases he

def listRow : Dict := [("custom_id", .str "a"), ("status", .arr [.str "failed"])]

/-- The row cannot be summarized, although the next result sets its status. -/
theorem list_status_stops :
    Identified plainSpelling (packageOf [listRow]) ∧
      mergeAutoresearchIngestResults plainSpelling (packageOf [listRow]) [] =
        .error (.typeError "unhashable type: 'list'") ∧
      ¬ Incremental plainSpelling (packageOf [listRow]) [] [resultFor "a" "succeeded"] := by
  have hidentified : Identified plainSpelling (packageOf [listRow]) :=
    packageOf_identified (by simp) (by simp [listRow, Named, Json.get]) (by decide)
  refine ⟨hidentified, rfl, fun h => ?_⟩
  have hlater := (append_iff hidentified (by simp)).mp h.append ⟨_, rfl⟩ _ rfl
  cases hlater

end Swarm.Autoresearch
