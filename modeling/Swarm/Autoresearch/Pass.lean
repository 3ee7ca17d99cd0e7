import Swarm.Autoresearch.Meet

/-! # What a pass says of the requests -/

namespace Swarm.Autoresearch

open Lib

variable {sp : Spelling} {package : Dict} {results : List IngestResult}

/-! ## Where a pass can be trusted -/

variable (sp) in
/-- A merge that passes has for every request a row that succeeded. -/
def Complete (package : Dict) (requests : List AutoresearchIngestRequest)
    (results : List IngestResult) : Prop :=
  ∀ m, mergeAutoresearchIngestResults sp package results = .ok m → m.summary.passesStaticThresholds = true →
    ∀ request ∈ requests, ∃ row ∈ m.summary.results, rowId sp row = request.customId ∧ succeeded row = true

/-- A row that is flagged as at its end has a status. -/
def Stated (row : Dict) : Prop :=
  (Json.get row "terminal").truthy = true → (Json.get row "status").truthy = true

theorem truthy_of_succeeded {row : Dict} (h : succeeded row = true) :
    (Json.get row "status").truthy = true := by
  unfold succeeded isText at h
  cases hstatus : Json.get row "status" with
  | str text =>
    have htext : text = "succeeded" := by simpa [hstatus, Json.str?] using h
    rw [htext]
    decide
  | null | bool | int | float | arr | obj => simp [hstatus, Json.str?] at h

theorem succeeded_of_stated {row : Dict} (hstated : Stated row) (hend : atEnd row = true)
    (hfailed : failed row = false) : succeeded row = true := by
  have htruthy : (Json.get row "status").truthy = true := by
    rcases Bool.or_eq_true_iff.mp hend with hterminal | htext
    · exact hstated hterminal
    · unfold terminalText at htext
      split at htext
      · next text hstatus =>
        have hne : text ≠ "" := by
          rintro rfl
          exact absurd htext (by decide)
        simpa [hstatus, Json.truthy] using hne
      · cases htext
  simpa [failed, htruthy] using hfailed

theorem stated_updated (result : IngestResult) (old : Dict) :
    Stated (assocUpdate old (resultRow sp result)) := by
  unfold Stated
  rw [updated_terminal, updated_status]
  intro hterminal
  by_contra hfalsy
  have hempty : result.status.or (.str "") = .str "" := if_neg hfalsy
  rw [hempty, Json.toStr_str] at hterminal
  exact absurd hterminal (by decide)

theorem complete_of_stated (hd : Distinct sp package)
    (h : ∀ row ∈ providerRows sp package, hasId row = true ∧ Stated row) (dumped : Dict → Nat)
    (policy : Option AutoresearchChunkingPolicy) :
    Complete sp package (buildAutoresearchIngestRequests sp dumped package policy) results := by
  intro m hok hpass request hrequest
  rcases merge_spec hd.explicit results with ⟨e, herror, -⟩ | ⟨m', hok', -, -, hrows, hpassing⟩
  · rw [herror] at hok
    cases hok
  obtain rfl := Except.ok.inj (hok'.symm.trans hok)
  have hid : request.customId ∈ explicitIds sp package := by
    have hmem : request.customId ∈ requestIds sp package := by
      rw [← build_ids dumped policy]
      exact List.mem_map_of_mem hrequest
    obtain ⟨entry, hentry, heq⟩ := List.mem_map.mp hmem
    rw [← heq, entryId_mem_explicitIds hd hentry]
    exact (h _ (List.fst_mem_of_mem_zipIdx hentry)).1
  have hstart : rowId sp ((start sp package).row request.customId) = request.customId ∧
      Stated ((start sp package).row request.customId) := by
    obtain ⟨row, hrow, heq⟩ := List.mem_map.mp hid
    obtain ⟨hrow, hhas⟩ := List.mem_filter.mp hrow
    rw [← heq, row_start_of_mem hd.explicit hrow hhas]
    exact ⟨rfl, (h row hrow).2⟩
  -- The invariant: a row is held under its own id, and says how it ended.
  have hlast : rowId sp ((merging sp package results).row request.customId) = request.customId ∧
      Stated ((merging sp package results).row request.customId) :=
    row_mergeAll (Q := fun id row => rowId sp row = id ∧ Stated row)
      (fun result _ old => ⟨rowId_updated, stated_updated result old⟩) (Or.inl hstart)
  have hmem : (merging sp package results).row request.customId ∈ mergedRows sp package results :=
    List.mem_map_of_mem (mem_orderedIds_mergeAll.mpr (Or.inl hid))
  obtain ⟨hend, hfailed⟩ := (hpassing.mp hpass).2 _ hmem
  exact ⟨_, hrows ▸ hmem, hlast.1, succeeded_of_stated hlast.2 hend hfailed⟩

variable (sp) in
/-- A row under its id that stands in no pass's way. -/
structure Fine (id : String) (row : Dict) : Prop where
  rowId : rowId sp row = id
  readable : Readable row
  atEnd : atEnd row = true
  failed : failed row = false

theorem not_complete (hd : Distinct sp package) (hconvertible : Convertible package)
    (hne : (merging sp package results).orderedIds ≠ [])
    (hfine : ∀ id ∈ (merging sp package results).orderedIds,
      Fine sp id ((merging sp package results).row id))
    {id : String} (hid : id ∈ requestIds sp package)
    (hnot : id ∈ (merging sp package results).orderedIds →
      succeeded ((merging sp package results).row id) = false)
    (dumped : Dict → Nat) (policy : Option AutoresearchChunkingPolicy) :
    ¬ Complete sp package (buildAutoresearchIngestRequests sp dumped package policy) results := by
  have hreadable : ∀ row ∈ mergedRows sp package results, Readable row := by
    intro row hrow
    obtain ⟨id, hid, rfl⟩ := List.mem_map.mp hrow
    exact (hfine id hid).readable
  have hpassing : Passing (mergedRows sp package results) := by
    refine ⟨by simpa [mergedRows] using hne, fun row hrow => ?_⟩
    obtain ⟨id, hid, rfl⟩ := List.mem_map.mp hrow
    exact ⟨(hfine id hid).atEnd, (hfine id hid).failed⟩
  rcases merge_spec hd.explicit results with ⟨e, -, hbad⟩ | ⟨m, hok, -, -, hrows, hpass⟩
  · exact absurd ⟨hconvertible, hreadable⟩ hbad
  · intro hcomplete
    rw [← build_ids dumped policy] at hid
    obtain ⟨request, hrequest, rfl⟩ := List.mem_map.mp hid
    obtain ⟨row, hrow, hrowId, hsucceeded⟩ := hcomplete m hok (hpass.mpr hpassing) request hrequest
    rw [hrows] at hrow
    obtain ⟨id, hordered, rfl⟩ := List.mem_map.mp hrow
    rw [(hfine id hordered).rowId] at hrowId
    subst hrowId
    rw [hnot hordered] at hsucceeded
    cases hsucceeded

/-- A pass in which every request succeeds. -/
def succeededFor (ids : List String) : List IngestResult :=
  ids.map fun id => .row { customId := id, status := "succeeded" }

theorem succeededFor_ids (ids : List String) : (succeededFor ids).map (resultId sp) = ids := by
  rw [succeededFor, List.map_map]
  exact (List.map_congr_left fun _ _ => rfl).trans (List.map_id ids)

theorem fine_of_succeededFor {ids : List String} {id : String} {s : Merging}
    (h : Fine sp id (s.row id) ∨ id ∈ ids) :
    Fine sp id ((mergeAll sp s (succeededFor ids)).row id) := by
  have hids : Fine sp id (s.row id) ∨ id ∈ (succeededFor ids).map (resultId sp) := by
    rw [succeededFor_ids]
    exact h
  refine row_mergeAll ?_ hids
  intro result hresult old
  obtain ⟨id, -, rfl⟩ := List.mem_map.mp hresult
  refine ⟨rowId_updated, readable_updated.mpr rfl, ?_, ?_⟩
  · rw [atEnd, updated_terminal, Bool.or_eq_true_iff]
    exact Or.inl (by simp [IngestResult.status, Json.or, Json.truthy, TERMINAL_STATUSES])
  · simp [failed, succeeded, isText, IngestResult.status, Json.str?]

theorem fallbackCustomId_ne (index : Nat) : fallbackCustomId sp package index ≠ "x" := by
  have hhead : (fallbackCustomId sp package index).toList.head? = some 'a' := by
    simp [fallbackCustomId, String.intercalate_cons_cons]
  intro heq
  rw [heq] at hhead
  exact absurd hhead (by decide)

theorem not_complete_of_idless (hd : Distinct sp package) (hconvertible : Convertible package)
    {entry : Dict × Nat} (hentry : entry ∈ entries sp package) (hid : hasId entry.1 = false)
    (dumped : Dict → Nat) (policy : Option AutoresearchChunkingPolicy) :
    ∃ results, ¬ Complete sp package (buildAutoresearchIngestRequests sp dumped package policy) results := by
  -- Where a row has no id, a pass does not wait for its request.
  have hordered : ∀ id,
      id ∈ (merging sp package (succeededFor ("x" :: explicitIds sp package))).orderedIds ↔
        id = "x" ∨ id ∈ explicitIds sp package := by
    intro id
    rw [mem_orderedIds_mergeAll, succeededFor_ids, orderedIds_start, List.mem_cons, or_left_comm, or_self]
  refine ⟨succeededFor ("x" :: explicitIds sp package), not_complete hd hconvertible
    (List.ne_nil_of_mem ((hordered "x").mpr (Or.inl rfl))) ?_ (List.mem_map_of_mem hentry) ?_ dumped policy⟩
  · intro id hmem
    exact fine_of_succeededFor (Or.inr (List.mem_cons.mpr ((hordered id).mp hmem)))
  · intro hmem
    rcases (hordered _).mp hmem with hx | hexplicit
    · rw [entryId_of_not_hasId hid] at hx
      exact absurd hx (fallbackCustomId_ne entry.2)
    · rw [entryId_mem_explicitIds hd hentry, hid] at hexplicit
      cases hexplicit

theorem not_complete_of_unstated (hd : Distinct sp package) (hconvertible : Convertible package)
    {row : Dict} (hrow : row ∈ providerRows sp package) (hid : hasId row = true)
    (hstated : ¬ Stated row) (dumped : Dict → Nat) (policy : Option AutoresearchChunkingPolicy) :
    ∃ results, ¬ Complete sp package (buildAutoresearchIngestRequests sp dumped package policy) results := by
  -- A row that is flagged as at its end and has no status stands in no pass's way.
  obtain ⟨hterminal, hfalsy⟩ := Classical.not_imp.mp hstated
  have hexplicit : rowId sp row ∈ explicitIds sp package :=
    List.mem_map_of_mem (List.mem_filter.mpr ⟨hrow, hid⟩)
  let others := (explicitIds sp package).filter (· ≠ rowId sp row)
  have hordered : ∀ id ∈ (merging sp package (succeededFor others)).orderedIds,
      id ∈ explicitIds sp package := by
    intro id hmem
    rw [mem_orderedIds_mergeAll, succeededFor_ids, orderedIds_start] at hmem
    exact hmem.elim (fun h => h) fun h => (List.mem_filter.mp h).1
  have hkept : (start sp package).row (rowId sp row) = row := row_start_of_mem hd.explicit hrow hid
  have hunfailed : failed row = false := by simp [failed, hfalsy]
  refine ⟨succeededFor others, not_complete hd hconvertible
    (List.ne_nil_of_mem (mem_orderedIds_mergeAll.mpr (Or.inl hexplicit))) ?_
    (mem_requestIds.mpr (Or.inl hexplicit)) ?_ dumped policy⟩
  · intro id hmem
    apply fine_of_succeededFor
    by_cases heq : id = rowId sp row
    · left
      rw [heq, hkept]
      exact ⟨rfl, Or.inl hterminal, by simp [atEnd, hterminal], hunfailed⟩
    · exact Or.inr (List.mem_filter.mpr ⟨hordered id hmem, by simpa using heq⟩)
  · intro _
    rw [row_mergeAll_of_not_mem (by rw [succeededFor_ids]; simp [others]), hkept]
    by_contra hnot
    exact hfalsy (truthy_of_succeeded (by simpa using hnot))

theorem complete_iff (hd : Distinct sp package) (dumped : Dict → Nat)
    (policy : Option AutoresearchChunkingPolicy) :
    (∀ results, Complete sp package (buildAutoresearchIngestRequests sp dumped package policy) results) ↔
      ¬ Convertible package ∨ ∀ row ∈ providerRows sp package, hasId row = true ∧ Stated row := by
  constructor
  · intro hcomplete
    by_contra hnot
    obtain ⟨hconvertible, hrows⟩ := not_or.mp hnot
    apply hrows
    intro row hrow
    have hid : hasId row = true := by
      by_contra hidless
      obtain ⟨entry, hentry, rfl⟩ := exists_entry hrow
      obtain ⟨results, hresults⟩ :=
        not_complete_of_idless hd (not_not.mp hconvertible) hentry (by simpa using hidless) dumped policy
      exact hresults (hcomplete results)
    refine ⟨hid, ?_⟩
    by_contra hstated
    obtain ⟨results, hresults⟩ :=
      not_complete_of_unstated hd (not_not.mp hconvertible) hrow hid hstated dumped policy
    exact hresults (hcomplete results)
  · rintro (hraises | hrows) results
    · intro m hok
      rcases merge_spec hd.explicit results with ⟨e, herror, -⟩ | ⟨-, -, hconvertible, -⟩
      · rw [herror] at hok
        cases hok
      · exact absurd hconvertible hraises
    · exact complete_of_stated hd hrows dumped policy

/-- Build and merge meet, for exactly the requests, where the rows without an id come last, their
results in order and without more than a result has, and no status is a list or a dict. A pass can
be trusted where every row has an id, and none is flagged as at its end with no status. -/
theorem ingest_iff (hd : Distinct sp package) (dumped : Dict → Nat)
    (policy : Option AutoresearchChunkingPolicy) :
    let requests := buildAutoresearchIngestRequests sp dumped package policy
    (∀ results, Exact (requests.map (·.customId)) results →
      (Meets sp package requests results ↔
        Convertible package ∧ (∀ result ∈ results, result.status.hashable = true) ∧ InOrder sp package results ∧
          ∀ row ∈ providerRows sp package, hasId row = false → Bare row)) ∧
    ((∀ results, Complete sp package requests results) ↔
      ¬ Convertible package ∨ ∀ row ∈ providerRows sp package, hasId row = true ∧ Stated row) := by
  intro requests
  refine ⟨fun results hx => ?_, complete_iff hd dumped policy⟩
  rw [build_ids] at hx
  exact meets_iff hd hx dumped policy

/-! ## Two packages -/

/-- Texts in single quotes, floats as they are. -/
def plainSpelling : Spelling := ⟨fun s => "'" ++ s ++ "'", fun text => text⟩

def packageOf (rows : List Dict) : Dict :=
  [("evidence_contract", .obj [("experiment_id", .str "e1"), ("variant_id", .str "v1"), ("run_id", .str "r1")]),
   ("provider_batch", .obj [("results", .arr (rows.map .obj))])]

def rowA : Dict := [("custom_id", .str "a"), ("cost", .int 3)]
def rowB : Dict := [("custom_id", .str "b"), ("cost", .int 4)]
def unnamedRow : Dict := [("cost", .int 4)]

def resultFor (id status : String) : IngestResult := .row { customId := id, status }

theorem named_distinct : Distinct plainSpelling (packageOf [rowA, rowB]) where
  explicit := by decide
  apart := by decide

/-- Where both rows have their ids, results in any order are merged in that of the requests. -/
theorem named_meets :
    let requests :=
      buildAutoresearchIngestRequests plainSpelling List.length (packageOf [rowA, rowB]) none
    Meets plainSpelling (packageOf [rowA, rowB]) requests [resultFor "b" "errored", resultFor "a" "succeeded"] ∧
      ∀ results, Complete plainSpelling (packageOf [rowA, rowB]) requests results := by
  obtain ⟨hmeets, hcomplete⟩ := ingest_iff named_distinct List.length none
  have hexact : Exact ["a", "b"] [resultFor "b" "errored", resultFor "a" "succeeded"] :=
    List.Perm.swap ..
  have hids : ∀ row ∈ [rowA, rowB], hasId row = true := by decide
  constructor
  · apply (hmeets _ hexact).mpr
    refine ⟨⟨_, rfl⟩, by decide, ⟨?_, rfl⟩, ?_⟩
    · have hpair : [rowA, rowB].Pairwise fun row later => hasId later = true → hasId row = true := by decide
      exact hpair
    · intro row hrow hnot
      rw [hids row hrow] at hnot
      cases hnot
  · apply hcomplete.mpr
    right
    intro row hrow
    refine ⟨hids row hrow, ?_⟩
    have hflag : ∀ row ∈ [rowA, rowB], (Json.get row "terminal").truthy = false := by decide
    intro hterminal
    rw [hflag row hrow] at hterminal
    cases hterminal

/-- The row without an id is lost with its result, and one success passes for two requests. -/
theorem unnamed_lost :
    let package := packageOf [rowA, unnamedRow]
    let requests := buildAutoresearchIngestRequests plainSpelling List.length package none
    let results := [resultFor "a" "succeeded", resultFor "autoresearch:e1:v1:r1:row-2" "succeeded"]
    Distinct plainSpelling package ∧ Exact (requests.map (·.customId)) results ∧
      ¬ Meets plainSpelling package requests results ∧
      ¬ Complete plainSpelling package requests [resultFor "a" "succeeded"] := by
  have hids : (buildAutoresearchIngestRequests plainSpelling List.length (packageOf [rowA, unnamedRow]) none).map
      (·.customId) = ["a", "autoresearch:e1:v1:r1:row-2"] := by decide +kernel
  refine ⟨⟨by decide +kernel, by decide +kernel⟩, ?_, ?_, ?_⟩
  · rw [hids]
    exact List.Perm.refl _
  · rintro ⟨m, hok, hrows⟩
    cases hok
    cases hrows with
    | cons _ hrows =>
      cases hrows with
      | cons hanswer _ =>
        exact Bool.false_ne_true (congrArg Option.isSome (hanswer.rest "cost" (by decide)))
  · intro hcomplete
    obtain ⟨request, hrequest, hid⟩ : ∃ request ∈ buildAutoresearchIngestRequests plainSpelling List.length
        (packageOf [rowA, unnamedRow]) none, request.customId = "autoresearch:e1:v1:r1:row-2" := by
      rw [← List.mem_map, hids]
      simp
    obtain ⟨row, hrow, hrowId, -⟩ := hcomplete _ rfl rfl request hrequest
    obtain rfl := List.mem_singleton.mp hrow
    rw [hid] at hrowId
    exact absurd hrowId (by decide)

end Swarm.Autoresearch
