import Swarm.Autoresearch.Merge

/-! # Results for exactly the requests -/

namespace Swarm.Autoresearch

open Lib

variable {sp : Spelling} {package : Dict} {results : List IngestResult}

/-! ## The summary -/

/-- The merge can read if the row is at an end. -/
def Readable (row : Dict) : Prop :=
  (Json.get row "terminal").truthy = true ∨ (Json.get row "status").hashable = true

def terminalText (status : Json) : Bool :=
  match status with
  | .str s => s ∈ TERMINAL_STATUSES
  | _ => false

def atEnd (row : Dict) :
    Bool := (Json.get row "terminal").truthy || terminalText (Json.get row "status")

theorem isTerminalStatus_eq (status : Json) :
    (status.hashable = true ∧ isTerminalStatus status = .ok (terminalText status)) ∨
      (status.hashable = false ∧ ∃ e, isTerminalStatus status = .error e) := by
  cases status <;> simp [Json.hashable, isTerminalStatus, terminalText]

theorem countsTerminal_of_readable {row : Dict} (h : Readable row) :
    countsTerminal row = .ok (atEnd row) := by
  unfold countsTerminal atEnd
  split
  · next hterminal => simp [hterminal]
  · next hterminal =>
    have hhash : (Json.get row "status").hashable = true := h.resolve_left hterminal
    rcases isTerminalStatus_eq (Json.get row "status") with ⟨-, hok⟩ | ⟨hnot, -⟩
    · simp [hok, hterminal]
    · rw [hhash] at hnot
      exact absurd hnot (by decide)

theorem readable_of_countsTerminal {row : Dict} {b : Bool} (h : countsTerminal row = .ok b) :
    Readable row := by
  unfold countsTerminal at h
  split at h
  · next hterminal => exact Or.inl hterminal
  · rcases isTerminalStatus_eq (Json.get row "status") with ⟨hhash, -⟩ | ⟨-, e, herror⟩
    · exact Or.inr hhash
    · rw [herror] at h
      cases h

theorem terminalCount_of_readable {rows : List Dict} (h : ∀ row ∈ rows, Readable row) :
    terminalCount rows = .ok (rows.countP atEnd) := by
  induction rows with
  | nil => rfl
  | cons row rest ih =>
    have hrest := ih fun later hlater => h later (by simp [hlater])
    rw [terminalCount, countsTerminal_of_readable (h row (by simp)), hrest, List.countP_cons]
    cases atEnd row <;> rfl

theorem readable_of_terminalCount {rows : List Dict} {n : Nat} (h : terminalCount rows = .ok n) :
    ∀ row ∈ rows, Readable row := by
  induction rows generalizing n with
  | nil => simp
  | cons row rest ih =>
    unfold terminalCount at h
    rcases hrow : countsTerminal row with e | b
    · rw [hrow] at h
      cases h
    · rcases hrest : terminalCount rest with e | count
      · rw [hrow, hrest] at h
        cases h
      · intro later hlater
        rcases List.mem_cons.mp hlater with rfl | hmem
        · exact readable_of_countsTerminal hrow
        · exact ih hrest later hmem

/-- What `passes_static_thresholds` asks of the rows. -/
def Passing (rows : List Dict) : Prop :=
  rows ≠ [] ∧ ∀ row ∈ rows, atEnd row = true ∧ failed row = false

variable (sp) in
/-- A summary is made of readable rows, which it holds, and it passes where they do. -/
theorem summarizeRows_spec (rows : List Dict) :
    (∃ e, summarizeRows sp rows = .error e ∧ ¬ ∀ row ∈ rows, Readable row) ∨
      ∃ summary, summarizeRows sp rows = .ok summary ∧ (∀ row ∈ rows, Readable row) ∧
        summary.results = rows ∧
        (summary.passesStaticThresholds = true ↔ Passing rows) := by
  rcases hcount : terminalCount rows with e | n
  · refine Or.inl ⟨e, by rw [summarizeRows, hcount]; rfl, fun hreadable => ?_⟩
    rw [terminalCount_of_readable hreadable] at hcount
    cases hcount
  · have hreadable := readable_of_terminalCount hcount
    have hn : n = rows.countP atEnd := by
      rw [terminalCount_of_readable hreadable] at hcount
      exact (Except.ok.inj hcount).symm
    refine Or.inr ⟨_, by rw [summarizeRows, hcount]; rfl, hreadable, rfl, ?_⟩
    have hall : (n == rows.length) = true ↔ ∀ row ∈ rows, atEnd row = true := by
      rw [beq_iff_eq, hn, List.countP_eq_length]
    have hnone : (rows.countP failed == 0) = true ↔ ∀ row ∈ rows, failed row = false := by
      rw [beq_iff_eq, List.countP_eq_zero]
      simp
    simp only [Bool.and_eq_true, hall, hnone, Passing, Bool.not_eq_true', List.isEmpty_eq_false_iff, ne_eq]
    constructor
    · rintro ⟨⟨hne, hend⟩, hfailed⟩
      exact ⟨hne, fun row hrow => ⟨hend row hrow, hfailed row hrow⟩⟩
    · rintro ⟨hne, hrows⟩
      exact ⟨⟨hne, fun row hrow => (hrows row hrow).1⟩, fun row hrow => (hrows row hrow).2⟩

/-! ## The merge -/

variable (sp) in
/-- The rows of the package that a merge returns. -/
def mergedRows (package : Dict) (results : List IngestResult) : List Dict :=
  (merging sp package results).orderedIds.map (merging sp package results).row

/-- `dict(provider_batch)` can be had of the package. -/
def Convertible (package : Dict) : Prop := ∃ entries, (providerBatchOr package).asDict = .ok entries

theorem keyed_start (h : (explicitIds sp package).Nodup) : (start sp package).Keyed := by
  intro id hid
  obtain ⟨row, hrow, rfl⟩ := List.mem_map.mp hid
  have hmem : (rowId sp row, row) ∈ pairs sp package := List.mem_map.mpr ⟨row, hrow, rfl⟩
  rw [lookup_start h, lookup_of_mem (pairs_keys ▸ h) hmem]
  rfl

theorem rows_mergeAll (h : (explicitIds sp package).Nodup) :
    (results.foldl (mergeResult sp) (startMerging sp (providerRows sp package))).rows =
      .ok (mergedRows sp package results) := (keyed_start h).mergeAll.rows

/-- A merge needs a `provider_batch` and rows that it can read. -/
theorem merge_spec (h : (explicitIds sp package).Nodup) (results : List IngestResult) :
    (∃ e, mergeAutoresearchIngestResults sp package results = .error e ∧
      ¬ (Convertible package ∧ ∀ row ∈ mergedRows sp package results, Readable row)) ∨
    ∃ m, mergeAutoresearchIngestResults sp package results = .ok m ∧ Convertible package ∧
      (∀ row ∈ mergedRows sp package results, Readable row) ∧
        m.summary.results = mergedRows sp package results ∧
      (m.summary.passesStaticThresholds = true ↔ Passing (mergedRows sp package results)) := by
  simp only [mergeAutoresearchIngestResults, rows_mergeAll h]
  rcases hentries : (providerBatchOr package).asDict with e | entries
  · refine Or.inl ⟨e, rfl, ?_⟩
    rintro ⟨⟨entries, hok⟩, -⟩
    rw [hentries] at hok
    cases hok
  · rcases summarizeRows_spec sp (mergedRows sp package results) with
      ⟨e, herror, hnot⟩ | ⟨summary, hok, hreadable, hresults, hpass⟩
    · exact Or.inl ⟨e, by simp [bind, Except.bind, herror], fun hall => hnot hall.2⟩
    · exact Or.inr ⟨_, by simp [bind, Except.bind, hok]; rfl, ⟨entries, hentries⟩, hreadable, hresults, hpass⟩

/-! ## The answers -/

/-- The results carry the ids of the requests and no others, in any order. -/
def Exact (asked : List String) (results : List IngestResult) : Prop :=
  (results.map (·.customId)).Perm (asked.map .str)

theorem Exact.perm {asked : List String} (h : Exact asked results) :
    (results.map (resultId sp)).Perm asked := by
  have hmap := h.map (Json.toStr sp)
  rw [List.map_map, List.map_map] at hmap
  have hid : asked.map (Json.toStr sp ∘ .str) = asked := by simp [Function.comp_def]
  rw [hid] at hmap
  exact hmap

theorem Exact.nodup (hx : Exact (requestIds sp package) results) (hd : Distinct sp package) :
    (results.map (resultId sp)).Nodup := hx.perm.nodup_iff.mpr (requestIds_nodup hd)

theorem Exact.customId {asked : List String} (h : Exact asked results) {result : IngestResult}
    (hmem : result ∈ results) : result.customId = .str (resultId sp result) := by
  obtain ⟨id, -, hid⟩ := List.mem_map.mp (h.mem_iff.mp (List.mem_map_of_mem hmem))
  rw [resultId, ← hid, Json.toStr_str]

/-- A merged row is the one of `row`, with what the results say of its request. -/
structure Answers (results : List IngestResult) (row : Dict) (asked : String)
    (merged : Dict) : Prop where
  id : Json.get merged "custom_id" = .str asked
  status : ∀ result ∈ results, result.customId = .str asked → Json.get merged "status" = result.status
  rest : ∀ key ∉ resultFields, merged.lookup key = row.lookup key

/-- What the row of a package gives to its merged row. -/
def Gives (row old : Dict) : Prop := ∀ key ∉ resultFields, old.lookup key = row.lookup key

theorem answers_iff (hd : Distinct sp package) (hx : Exact (requestIds sp package) results)
    {result : IngestResult} (hmem : result ∈ results) {row old : Dict} :
    Answers results row (resultId sp result) (assocUpdate old (resultRow sp result)) ↔
      Gives row old := by
  constructor
  · intro h key hkey
    rw [← h.rest key hkey, updated_rest hkey]
  · intro h
    refine ⟨?_, ?_, fun key hkey => (updated_rest hkey).trans (h key hkey)⟩
    · rw [updated_customId, hx.customId hmem]
    · intro other hother hid
      have heq : resultId sp other = resultId sp result := by rw [resultId, hid, Json.toStr_str]
      rw [updated_status, List.inj_on_of_nodup_map (hx.nodup hd) hother hmem heq]

/-- The fields of a row without an id are all among those that a result sets. -/
def Bare (row : Dict) : Prop := ∀ key ∈ row.map (·.1), key ∈ resultFields

theorem gives_freshRow (row : Dict) (id : String) : Gives row (freshRow id) ↔ Bare row := by
  have hfresh : ∀ key ∉ resultFields, (freshRow id).lookup key = none := fun key hkey =>
    lookup_eq_none_of_not_mem fun hmem => hkey (by simp [freshRow] at hmem; simp [hmem, resultFields])
  constructor
  · intro h key hkey
    by_contra hnot
    have hnone := hfresh key hnot
    rw [h key hnot, List.lookup_eq_none_iff] at hnone
    obtain ⟨kv, hkv, rfl⟩ := List.mem_map.mp hkey
    simpa using hnone kv hkv
  · intro h key hkey
    rw [hfresh key hkey, lookup_eq_none_of_not_mem fun hmem => hkey (h key hmem)]

theorem row_of_request (hd : Distinct sp package) (hx : Exact (requestIds sp package) results)
    {id : String} (hid : id ∈ requestIds sp package) :
    ∃ result ∈ results, resultId sp result = id ∧
      (merging sp package results).row id =
        assocUpdate ((start sp package).row id) (resultRow sp result) := by
  have hperm : (results.map (resultId sp)).Perm (requestIds sp package) := hx.perm
  obtain ⟨result, hmem, rfl⟩ := List.mem_map.mp (hperm.mem_iff.mpr hid)
  exact ⟨result, hmem, rfl, row_mergeAll_of_mem (hx.nodup hd) hmem⟩

theorem answers_of_entry (hd : Distinct sp package) (hx : Exact (requestIds sp package) results)
    {entry : Dict × Nat} (hentry : entry ∈ entries sp package) :
    Answers results entry.1 (entryId sp package entry)
        ((merging sp package results).row (entryId sp package entry)) ↔
      (hasId entry.1 = false → Bare entry.1) := by
  obtain ⟨result, hmem, hid, hrow⟩ := row_of_request hd hx (List.mem_map_of_mem hentry)
  rw [hrow, ← hid, answers_iff hd hx hmem, hid]
  cases hhas : hasId entry.1 with
  | true =>
    rw [entryId_of_hasId hhas, row_start_of_mem hd.explicit (List.fst_mem_of_mem_zipIdx hentry) hhas]
    simp [Gives]
  | false =>
    have hnot : entryId sp package entry ∉ explicitIds sp package := by
      rw [entryId_mem_explicitIds hd hentry, hhas]
      exact Bool.false_ne_true
    rw [row_start_of_not_mem hd.explicit hnot, gives_freshRow]
    simp

variable (sp) in
/-- No row has an id after one that has none, and the results for the rows without come in their
order. -/
structure InOrder (package : Dict) (results : List IngestResult) : Prop where
  last : IdlessLast sp package
  order : (results.map (resultId sp)).filter (· ∉ explicitIds sp package) = synthesizedIds sp package

theorem filter_requestIds (hd : Distinct sp package) :
    (requestIds sp package).filter (· ∉ explicitIds sp package) = synthesizedIds sp package := by
  rw [requestIds, synthesizedIds_eq, List.filter_map]
  congr 1
  apply List.filter_congr
  intro entry hentry
  rw [Function.comp_apply, Bool.eq_iff_iff, decide_eq_true_iff, entryId_mem_explicitIds hd hentry]
  simp

theorem orderedIds_eq_iff (hd : Distinct sp package) (hx : Exact (requestIds sp package) results) :
    (merging sp package results).orderedIds = requestIds sp package ↔
      InOrder sp package results := by
  rw [orderedIds_mergeAll (hx.nodup hd), orderedIds_start]
  constructor
  · intro heq
    have horder : (results.map (resultId sp)).filter (· ∉ explicitIds sp package) = synthesizedIds sp package := by
      rw [← filter_requestIds hd, ← heq, List.filter_append, List.filter_filter]
      simp
    rw [horder, requestIds_split hd] at heq
    exact ⟨heq, horder⟩
  · intro h
    rw [h.order]
    exact (requestIds_split hd).mpr h.last

theorem not_terminal_of_not_hashable {status : Json} (h : status.hashable = false) :
    (status.or (.str "")).toStr sp ∉ TERMINAL_STATUSES := by
  -- The text of a list or a dict opens with a bracket.
  have hhead : ∀ text ∈ TERMINAL_STATUSES, text.toList.head? ≠ some '[' ∧ text.toList.head? ≠ some '\x7b' := by
    decide
  unfold Json.or
  split
  · intro hmem
    cases status with
    | arr items => exact (hhead _ hmem).1 (by simp [Json.toStr, Json.repr])
    | obj entries => exact (hhead _ hmem).2 (by simp [Json.toStr, Json.repr])
    | null | bool | int | float | str => simp [Json.hashable] at h
  · rw [Json.toStr_str]
    decide

theorem readable_updated {result : IngestResult} {old : Dict} :
    Readable (assocUpdate old (resultRow sp result)) ↔ result.status.hashable = true := by
  unfold Readable
  rw [updated_status, updated_terminal]
  constructor
  · rintro (hterminal | hhash)
    · by_contra hnot
      exact not_terminal_of_not_hashable (by simpa using hnot) (by simpa [Json.truthy] using hterminal)
    · exact hhash
  · exact Or.inr

variable (sp) in
/-- The merge answers every request in its row, in order, and has no other rows. -/
def Meets (package : Dict) (requests : List AutoresearchIngestRequest)
    (results : List IngestResult) : Prop :=
  ∃ m, mergeAutoresearchIngestResults sp package results = .ok m ∧
    List.Forall₂ (fun asked merged => Answers results asked.1 asked.2.customId merged)
      ((providerRows sp package).zip requests) m.summary.results

theorem mem_requestIds_of_ordered (hx : Exact (requestIds sp package) results) {id : String}
    (hid : id ∈ (merging sp package results).orderedIds) : id ∈ requestIds sp package := by
  rcases mem_orderedIds_mergeAll.mp hid with hexplicit | hresult
  · exact mem_requestIds.mpr (Or.inl hexplicit)
  · exact hx.perm.mem_iff.mp hresult

theorem readable_mergedRows (hd : Distinct sp package)
    (hx : Exact (requestIds sp package) results) :
    (∀ row ∈ mergedRows sp package results, Readable row) ↔
      ∀ result ∈ results, result.status.hashable = true := by
  constructor
  · intro h result hresult
    have hid : resultId sp result ∈ (merging sp package results).orderedIds :=
      mem_orderedIds_mergeAll.mpr (Or.inr (List.mem_map_of_mem hresult))
    have hrow := h _ (List.mem_map_of_mem hid)
    rw [row_mergeAll_of_mem (hx.nodup hd) hresult] at hrow
    exact readable_updated.mp hrow
  · intro h row hrow
    obtain ⟨id, hid, rfl⟩ := List.mem_map.mp hrow
    obtain ⟨result, hresult, -, hmerged⟩ := row_of_request hd hx (mem_requestIds_of_ordered hx hid)
    rw [hmerged]
    exact readable_updated.mpr (h result hresult)

theorem customId_of_ordered (hd : Distinct sp package) (hx : Exact (requestIds sp package) results)
    {id : String} (hid : id ∈ (merging sp package results).orderedIds) :
    Json.get ((merging sp package results).row id) "custom_id" = .str id := by
  obtain ⟨result, hresult, rfl, hmerged⟩ := row_of_request hd hx (mem_requestIds_of_ordered hx hid)
  rw [hmerged, updated_customId, hx.customId hresult]

variable (sp) in
/-- A request beside the row that it was made of. -/
def asked (dumped : Dict → Nat) (policy : Option AutoresearchChunkingPolicy) (package : Dict)
    (entry : Dict × Nat) : Dict × AutoresearchIngestRequest :=
  (entry.1,
    { customId := entryId sp package entry
      prompt := promptForRow sp package entry.1
      metadata := metadataForRow sp dumped package entry.1 (policy.getD {}) })

theorem zip_requests (dumped : Dict → Nat) (policy : Option AutoresearchChunkingPolicy) :
    (providerRows sp package).zip (buildAutoresearchIngestRequests sp dumped package policy) =
      (entries sp package).map (asked sp dumped policy package) := by
  refine (List.zip_of_prod ?_ ?_).symm
  · rw [List.map_map]
    exact List.zipIdx_map_fst ..
  · rw [List.map_map]
    rfl

theorem answered_iff (hd : Distinct sp package) (hx : Exact (requestIds sp package) results)
    (dumped : Dict → Nat) (policy : Option AutoresearchChunkingPolicy) :
    List.Forall₂ (fun asked merged => Answers results asked.1 asked.2.customId merged)
        ((providerRows sp package).zip (buildAutoresearchIngestRequests sp dumped package policy))
        (mergedRows sp package results) ↔
      InOrder sp package results ∧ ∀ row ∈ providerRows sp package, hasId row = false →
        Bare row := by
  rw [zip_requests, List.forall₂_map_left_iff, mergedRows, List.forall₂_map_right_iff, ← orderedIds_eq_iff hd hx]
  constructor
  · intro h
    have hids : (merging sp package results).orderedIds.map Json.str =
        (requestIds sp package).map Json.str := by
      calc (merging sp package results).orderedIds.map Json.str
        _ = (merging sp package results).orderedIds.map fun id =>
            Json.get ((merging sp package results).row id) "custom_id" :=
          List.map_congr_left fun id hid => (customId_of_ordered hd hx hid).symm
        _ = (entries sp package).map fun entry => Json.str (entryId sp package entry) := by
          rw [← List.forall₂_eq_eq_eq, List.forall₂_map_left_iff, List.forall₂_map_right_iff]
          exact h.flip.imp fun _ _ hanswer => hanswer.id
        _ = (requestIds sp package).map Json.str := by rw [requestIds, List.map_map]; rfl
    have hordered := List.map_injective_iff.mpr (fun _ _ heq => Json.str.inj heq) hids
    refine ⟨hordered, fun row hrow => ?_⟩
    rw [hordered, requestIds, List.forall₂_map_right_iff, List.forall₂_same] at h
    obtain ⟨entry, hentry, rfl⟩ := exists_entry hrow
    exact (answers_of_entry hd hx hentry).mp (h entry hentry)
  · rintro ⟨hordered, hbare⟩
    rw [hordered, requestIds, List.forall₂_map_right_iff, List.forall₂_same]
    intro entry hentry
    exact (answers_of_entry hd hx hentry).mpr (hbare _ (List.fst_mem_of_mem_zipIdx hentry))

theorem meets_iff (hd : Distinct sp package) (hx : Exact (requestIds sp package) results)
    (dumped : Dict → Nat) (policy : Option AutoresearchChunkingPolicy) :
    Meets sp package (buildAutoresearchIngestRequests sp dumped package policy) results ↔
      Convertible package ∧ (∀ result ∈ results, result.status.hashable = true) ∧
        InOrder sp package results ∧
        ∀ row ∈ providerRows sp package, hasId row = false → Bare row := by
  rw [← answered_iff hd hx dumped policy, ← readable_mergedRows hd hx]
  rcases merge_spec hd.explicit results with ⟨e, herror, hnot⟩ | ⟨m, hok, hconvertible, hreadable, hrows, -⟩
  · constructor
    · rintro ⟨m, hok, -⟩
      rw [herror] at hok
      cases hok
    · rintro ⟨hconvertible, hreadable, -⟩
      exact absurd ⟨hconvertible, hreadable⟩ hnot
  · constructor
    · rintro ⟨m', hok', hanswered⟩
      obtain rfl := Except.ok.inj (hok.symm.trans hok')
      exact ⟨hconvertible, hreadable, hrows ▸ hanswered⟩
    · rintro ⟨-, -, hanswered⟩
      exact ⟨m, hok, hrows.symm ▸ hanswered⟩

end Swarm.Autoresearch
