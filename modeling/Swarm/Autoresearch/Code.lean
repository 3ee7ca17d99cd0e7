import Swarm.GithubTasks
import Swarm.Lib.Assoc

/-!
# Autoresearch ingest

An acceptance package is made into request rows, and result rows are merged back into a copy of it.
Nothing is sent to a provider.
-/

namespace Swarm.Autoresearch

open Lib

abbrev Dict := List (String × Json)

def TERMINAL_STATUSES : List String := ["succeeded", "errored", "canceled", "expired", "failed"]

/-! ## Reading a package -/

/-- `_mapping_value(mapping, key, default)` -/
def mappingValue (mapping : Dict) (key : String) (default : Json) : Json :=
  (mapping.lookup key).getD default

/-- `_as_mapping`: what is no dict counts as an empty one. -/
def asMapping : Json → Dict
  | .obj entries => entries
  | _ => []

/-- `_as_list`: a single value counts as a list of it. -/
def asList : Json → List Json
  | .null => []
  | .arr items => items
  | value => [value]

def firstPresent (mappings : List Dict) (key : String) : Json :=
  match mappings with
  | [] => .null
  | mapping :: rest =>
    match Json.get mapping key with
    | .null => firstPresent rest key
    | value => value

/-- `value == text` -/
def isText (value : Json) (text : String) : Bool := value.str? == some text

section

variable (sp : Spelling)

/-- `_unique(values)`, where `seen` holds the texts of those that are kept. -/
def uniqueFrom (seen : List String) : List Json → List Json
  | [] => []
  | .null :: rest => uniqueFrom seen rest
  | value :: rest =>
    if value.toStr sp ∈ seen then uniqueFrom seen rest
    else value :: uniqueFrom (seen ++ [value.toStr sp]) rest

def unique (values : List Json) : List Json := uniqueFrom sp [] values

/-- The characters that a slug keeps. -/
def kept (c : Char) : Bool := c.isAlphanum || c == '_' || c == '.' || c == '-'

/-- `re.sub(r"[^A-Za-z0-9_.-]+", "-", text)`, where `inRun` says that a run is being replaced. -/
def dashed (inRun : Bool) : List Char → List Char
  | [] => []
  | c :: rest =>
    if kept c then c :: dashed false rest
    else if inRun then dashed true rest else '-' :: dashed true rest

def stripDashes (text : List Char) : List Char :=
  ((text.dropWhile (· == '-')).reverse.dropWhile (· == '-')).reverse

/-- `text or default` -/
def textOr (text default : String) : String := if text = "" then default else text

def slug (value : Json) : String :=
  let text := textOr (GithubTasks.strip (value.toStr sp)) "unknown"
  textOr (String.ofList (stripDashes (dashed false text.toList))) "unknown"

def fallbackCustomId (package : Dict) (index : Nat) : String :=
  let evidence := asMapping (mappingValue package "evidence_contract" (.obj []))
  ":".intercalate ["autoresearch",
    slug sp ((Json.get evidence "experiment_id").or (.str "unknown-experiment")),
    slug sp ((Json.get evidence "variant_id").or (.str "unknown-variant")),
    slug sp (((Json.get evidence "run_id").or (Json.get evidence "training_session_id")).or (.str "unknown-run")),
    "row-" ++ toString (index + 1)]

/-- A row's own id, or one made of the package and the place of the row. -/
def customIdForRow (package row : Dict) (index : Nat) : String :=
  let customId := mappingValue row "custom_id" .null
  if customId.truthy then customId.toStr sp else fallbackCustomId sp package index

/-- A row that stands for a request of which the package has only the id. -/
def bareRow (customId : String) : Dict :=
  [("custom_id", .str customId), ("status", .null), ("usage", .obj [])]

/-- The rows of the `provider_batch`: its results, or bare rows for its ids, or one bare row. -/
def providerRows (package : Dict) : List Dict :=
  let providerBatch := asMapping (mappingValue package "provider_batch" (.obj []))
  let rows := (asList (Json.get providerBatch "results")).filterMap fun row =>
    match row with | .obj entries => some entries | _ => none
  if rows ≠ [] then rows
  else
    let customIds :=
      ((asList (Json.get providerBatch "custom_ids")).filter (·.truthy)).map (·.toStr sp)
    if customIds ≠ [] then customIds.map bareRow
    else [bareRow (fallbackCustomId sp package 0)]

/-! ## The requests -/

/-- `chunking_policy`. -/
structure AutoresearchChunkingPolicy where
  maxInlineBytes : Int := 64 * 1024
  execution : String := "source_policy_only"
  filesApiExecution : Bool := false
  caveat : String := "files_api_not_executed"

/-- `dumped` is the length of `json.dumps(package, sort_keys=True, default=str)` in UTF-8. -/
def AutoresearchChunkingPolicy.metadataFor (policy : AutoresearchChunkingPolicy)
    (dumped : Dict → Nat) (package : Dict) : Dict :=
  let packageBytes : Int := dumped package
  [("max_inline_bytes", .int policy.maxInlineBytes),
   ("estimated_package_bytes", .int packageBytes),
   ("requires_external_artifact", .bool (packageBytes > policy.maxInlineBytes)),
   ("execution", .str policy.execution),
   ("files_api_execution", .bool policy.filesApiExecution),
   ("caveat", .str policy.caveat)]

structure AutoresearchIngestRequest where
  customId : String
  prompt : String
  metadata : Dict
  provider : String := "provider-neutral"
  maxTokens : Nat := 8192

/-- `default if value is None else value` -/
def ifNone (value default : Json) : Json :=
  match value with
  | .null => default
  | value => value

def aliasMetadataForPackage (package evidence : Dict) : Dict :=
  let first := firstPresent [package, evidence]
  [("canonical_model_id", first "canonical_model_id"),
   ("display_model_id", first "display_model_id"),
   ("display_model_alias", first "display_model_alias"),
   ("alias_publication_status", first "alias_publication_status"),
   ("alias_publish_safe", ifNone (first "alias_publish_safe") (.bool false)),
   ("alias_runtime_probe_required", ifNone (first "alias_runtime_probe_required") (.bool true)),
   ("alias_protected_runtime_verified", ifNone (first "alias_protected_runtime_verified") (.bool false)),
   ("alias_claim_caveats", .arr (unique sp (asList (first "alias_claim_caveats"))))]

def metadataForRow (dumped : Dict → Nat) (package row : Dict)
    (policy : AutoresearchChunkingPolicy) : Dict :=
  let evidence := asMapping (mappingValue package "evidence_contract" (.obj []))
  let first := firstPresent [package, evidence]
  [("acceptance_classification", mappingValue package "classification" .null),
   ("acceptance_status", mappingValue package "acceptance_status" .null),
   ("evidence_contract", .obj evidence),
   ("source_label", first "source_label"),
   ("source_kind", first "source_kind"),
   ("source_host", first "source_host"),
   ("source_db", first "source_db")] ++
  aliasMetadataForPackage sp package evidence ++
  [("claim_caveats", .arr (unique sp (asList (Json.get evidence "claim_caveats") ++
      asList (mappingValue package "claim_caveats" (.arr [])) ++
      [.str "source_only_ingest_request", .str "not_live_provider_execution_proof"]))),
   ("runtime_probe_required", .bool ((mappingValue package "runtime_probe_required" .null).or
      (mappingValue package "runtime_proof_required" .null)).truthy),
   ("protected_runtime_verified", .bool (mappingValue package "protected_runtime_verified" (.bool false)).truthy),
   ("publication_status", mappingValue package "publication_status" .null),
   ("publish_safe", .bool (mappingValue package "publish_safe" (.bool false)).truthy),
   ("artifact_provenance", .obj [("manifest_path", Json.get evidence "artifact_manifest_path"),
      ("sha256", Json.get evidence "artifact_sha256"),
      ("generated_at", Json.get evidence "artifact_generated_at")]),
   ("metric_sufficiency", .obj (asMapping (mappingValue package "metric_sufficiency" (.obj [])))),
   ("plot_inventory", .obj (asMapping (mappingValue package "plot_inventory" (.obj [])))),
   ("provider_batch_row", .obj row),
   ("chunking_policy", .obj (policy.metadataFor dumped package))]

def promptForRow (package row : Dict) : String :=
  let plotInventory := asMapping (mappingValue package "plot_inventory" (.obj []))
  let metricSufficiency := asMapping (mappingValue package "metric_sufficiency" (.obj []))
  let noDataIds :=
    ", ".intercalate ((asList (Json.get plotInventory "no_data_plot_ids")).map (·.toStr sp))
  let caveats :=
    ", ".intercalate ((asList (mappingValue package "claim_caveats" (.arr []))).map (·.toStr sp))
  "\n".intercalate
    ["Run a source-only autoresearch ingest review.",
     "Do not claim live provider execution, runtime proof, or publication readiness.",
     "custom_id: " ++ (mappingValue row "custom_id" (.str "")).toStr sp,
     "source_label: " ++ (mappingValue package "source_label" (.str "")).toStr sp,
     "publication_status: " ++ (mappingValue package "publication_status" (.str "")).toStr sp,
     "publish_safe: " ++ (mappingValue package "publish_safe" (.bool false)).toStr sp,
     "protected_runtime_verified: " ++ (mappingValue package "protected_runtime_verified" (.bool false)).toStr sp,
     "metric_quality_score: " ++ (Json.get metricSufficiency "quality_score").toStr sp,
     "populated_plots: " ++ (Json.get plotInventory "populated_plot_count").toStr sp,
     "no_data_plot_ids: " ++ noDataIds,
     "claim_caveats: " ++ caveats]

def buildAutoresearchIngestRequests (dumped : Dict → Nat) (package : Dict)
    (chunkingPolicy : Option AutoresearchChunkingPolicy) : List AutoresearchIngestRequest :=
  let policy := chunkingPolicy.getD {}
  (providerRows sp package).zipIdx.map fun (row, index) =>
    { customId := customIdForRow sp package row index
      prompt := promptForRow sp package row
      metadata := metadataForRow sp dumped package row policy }

/-! ## The results -/

structure AutoresearchIngestResult where
  customId : String
  status : String
  outputText : String := ""
  error : Option String := none
  usage : Dict := []
  stopReason : Option String := none

/-- A result comes as a row of the dataclass or as a mapping. -/
inductive IngestResult
  | row (r : AutoresearchIngestResult)
  | mapping (m : Dict)

def IngestResult.customId : IngestResult → Json
  | .row r => .str r.customId
  | .mapping m => mappingValue m "custom_id" .null

def IngestResult.status : IngestResult → Json
  | .row r => .str r.status
  | .mapping m => mappingValue m "status" .null

def optional : Option String → Json
  | none => .null
  | some s => .str s

/-- The texts of the text blocks of a message, line by line. -/
def contentText (content : Json) : String :=
  let parts := (asList content).filterMap fun block =>
    match block with
    | .obj entries =>
      if isText (Json.get entries "type") "text" then some ((mappingValue entries "text" (.str "")).toStr sp)
      else none
    | _ => none
  GithubTasks.strip ("\n".intercalate (parts.filter (· ≠ "")))

/-- The fields of a result row before `terminal`. -/
def IngestResult.fields (result : IngestResult) : Dict :=
  match result with
  | .row r =>
    [("custom_id", result.customId), ("status", result.status), ("output_text", .str r.outputText),
     ("error", optional r.error), ("usage", .obj r.usage), ("stop_reason", optional r.stopReason)]
  | .mapping m =>
    [("custom_id", result.customId), ("status", result.status),
     ("output_text",
      (mappingValue m "output_text" .null).or (.str (contentText sp (mappingValue m "content" (.arr []))))),
     ("error", mappingValue m "error" .null),
     ("usage", .obj (asMapping (mappingValue m "usage" (.obj [])))),
     ("stop_reason", mappingValue m "stop_reason" .null)]

/-- The row that a result becomes. -/
def resultRow (result : IngestResult) : Dict :=
  let row := result.fields sp
  let status := ((Json.get row "status").or (.str "")).toStr sp
  row ++ [("terminal", .bool (status ∈ TERMINAL_STATUSES))]

/-! ## The merge -/

structure Summary where
  resultCount : Nat
  customIds : List String
  terminalStatusCount : Nat
  succeededCount : Nat
  failedCount : Nat
  results : List Dict
  passesStaticThresholds : Bool

/-- `status in TERMINAL_STATUSES`, which hashes the status. -/
def isTerminalStatus : Json → Except PyError Bool
  | .str s => .ok (s ∈ TERMINAL_STATUSES)
  | .arr _ => .error (.typeError "unhashable type: 'list'")
  | .obj _ => .error (.typeError "unhashable type: 'dict'")
  | _ => .ok false

/-- Whether the summary counts a row as terminal. The status is tested as a member of a set, so one
that cannot be hashed raises. -/
def countsTerminal (row : Dict) : Except PyError Bool :=
  if (Json.get row "terminal").truthy then .ok true else isTerminalStatus (Json.get row "status")

def terminalCount : List Dict → Except PyError Nat
  | [] => .ok 0
  | row :: rest => do
    let terminal ← countsTerminal row
    let count ← terminalCount rest
    return if terminal then count + 1 else count

def succeeded (row : Dict) : Bool := isText (Json.get row "status") "succeeded"

def failed (row : Dict) : Bool := (Json.get row "status").truthy && !succeeded row

def hasId (row : Dict) : Bool := (Json.get row "custom_id").truthy

/-- `str(row["custom_id"])` -/
def rowId (row : Dict) : String := (Json.get row "custom_id").toStr sp

/-- The summary of `summarize_autoresearch_ingest_results`, over rows that are normalised
already. -/
def summarizeRows (rows : List Dict) : Except PyError Summary := do
  let terminals ← terminalCount rows
  let failedCount := rows.countP failed
  return {
    resultCount := rows.length
    customIds := (rows.filter hasId).map (rowId sp)
    terminalStatusCount := terminals
    succeededCount := rows.countP succeeded
    failedCount
    results := rows
    passesStaticThresholds := !rows.isEmpty && terminals == rows.length && failedCount == 0 }

/-- The two locals of the merge. -/
structure Merging where
  byCustomId : List (String × Dict)
  orderedIds : List String

/-- The rows that the package has, by their ids. Rows without an id are left out. -/
def startMerging (existingRows : List Dict) : Merging where
  byCustomId := (existingRows.filter hasId).foldl (fun d row => assocSet d (rowId sp row) row) []
  orderedIds := (existingRows.filter hasId).map (rowId sp)

/-- One result: its row is updated, and an id that is new goes to the end. -/
def mergeResult (s : Merging) (result : IngestResult) : Merging :=
  let normalized := resultRow sp result
  let customId := rowId sp normalized
  let row := assocUpdate ((s.byCustomId.lookup customId).getD [("custom_id", .str customId)]) normalized
  { byCustomId := assocSet s.byCustomId customId row
    orderedIds := if customId ∈ s.orderedIds then s.orderedIds else s.orderedIds ++ [customId] }

/-- `by_custom_id[custom_id]` -/
def Merging.held (s : Merging) (customId : String) : Except PyError Dict :=
  match s.byCustomId.lookup customId with
  | some row => .ok row
  | none => .error (.keyError customId)

def Merging.rows (s : Merging) : Except PyError (List Dict) := s.orderedIds.mapM s.held

/-- The package copy that the merge returns: its `provider_batch` is the dict of `entries`, updated
with `summary`, and its other keys are those of `package`. -/
structure Merged where
  package : Dict
  entries : List (Json × Json)
  summary : Summary

/-- A reason is added once to a list of reasons. -/
def withReason (package : Dict) (key reason : String) : Dict :=
  assocSet package key (.arr (unique sp (asList (mappingValue package key (.arr [])) ++ [.str reason])))

def markUnverified (package : Dict) : Dict :=
  let flagged := assocUpdate package
    [("provider_execution_verified", .bool false), ("runtime_proof_required", .bool true),
     ("protected_runtime_verified", .bool false), ("publish_safe", .bool false)]
  let caveated := withReason sp flagged "claim_caveats" "not_live_provider_execution_proof"
  withReason sp caveated "failure_reasons" "provider_runtime_not_verified"

/-- `_mapping_value(merged, "provider_batch", {}) or {}` -/
def providerBatchOr (package : Dict) : Json :=
  (mappingValue package "provider_batch" (.obj [])).or (.obj [])

def mergeAutoresearchIngestResults (package : Dict) (results : List IngestResult) :
    Except PyError Merged := do
  let entries ← (providerBatchOr package).asDict
  let merging := results.foldl (mergeResult sp) (startMerging sp (providerRows sp package))
  let rows ← merging.rows
  let summary ← summarizeRows sp rows
  return { package := markUnverified sp package, entries, summary }

end

end Swarm.Autoresearch
