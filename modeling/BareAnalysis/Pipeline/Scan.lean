import BareAnalysis.Correlation.Correlate
import BareAnalysis.Machinery.Effects
import BareAnalysis.Machinery.Json
import BareAnalysis.Pipeline.Runs
import BareAnalysis.Unpack.Disk

/-!
# Pipeline/Scan — stage, unpack, scan, correlate, persist

    root artifact ──unpack container──▸ tree ──static container──▸ evidence ──correlate──▸ findings
                         │                          │                                │
                     a RunStage                 a RunStage                       RunManifest

`core/pipeline/scan.py`.  The two containers, the store and the disk are a `ScanWorld`; what they
give back is of any shape, and every reader of it may raise.  A `ScanSession` keeps what was last
committed apart from what the transaction has added since.
-/

namespace BareAnalysis

/-! ## What the containers give back -/

/-- `SandboxStatus`. -/
inductive SandboxStatus
  | completed | timeout | oom | startFailed | error
  deriving DecidableEq, Repr

/-- `SandboxResult`, as far as a stage records it; the excerpt of the output is redacted. -/
structure SandboxResult where
  status : SandboxStatus
  exitCode : Option ℤ
  durationS : ℚ := 0
  imageDigest : Option String := none
  error : Option String := none
  stderr : String := ""
  /-- What `store_stage_log` keeps: the key, the bytes, and whether it cut. -/
  log : Option String × ℕ × Bool := (none, 0, false)
  deriving DecidableEq, Repr

/-- `result.json`, as it is found after the container is gone. -/
inductive ResultDocument
  | missing
  /-- `json.JSONDecodeError`. -/
  | unparseable
  /-- Any other exception of reading and decoding it. -/
  | unreadable (e : PyError)
  | parsed (value : Json)

/-- What one container leaves behind. -/
structure Analysis where
  result : Except PyError SandboxResult
  document : ResultDocument

/-- The files of a directory, by their path in it. -/
abbrev FileTree := List (String × Bytes)

/-- What the static container is given to look at. -/
structure Staged where
  rootName : String
  root : Bytes
  extracted : Option FileTree

/-- Everything a scan is not the author of. -/
structure ScanWorld where
  bareVersion : String
  pack : Except PyError RulePack
  /-- The bytes of the root artifact, once they are staged. -/
  download : Artifact → Except PyError Bytes
  /-- The copies under the directory the static container reads. -/
  staging : Except PyError Unit := .ok ()
  /-- The unpack container on a file of this name: what it leaves, and the tree it wrote. -/
  unpack : String → Bytes → Analysis × Option FileTree
  /-- The static container, with or without `--include-plaintext`. -/
  static : Staged → Bool → Analysis
  stageId : String → String
  artifactId : ℕ → String
  clock : String → ℕ

/-- The open transaction of a scan, and what it committed last. -/
structure ScanSession where
  db : Db
  committed : Db

/-- A part of a scan. -/
abbrev Scan (α : Type) := Eff PyError ScanSession α

/-- Change the rows of the open transaction. -/
def writeDb (f : Db → Db) : Scan Unit := modify fun s => { s with db := f s.db }

/-- `session.flush()` of rows that may be refused. -/
def flush (f : Db → Option Db) : Scan Unit := do
  let s ← get
  match f s.db with
  | none => throw (.database "UNIQUE constraint failed")
  | some db => writeDb fun _ => db

/-- `_checkpoint`. -/
def checkpoint : Scan Unit := modify fun s => { s with committed := s.db }

/-! ## Stages -/

/-- The status `_record_stage` gives a stage. -/
def SandboxResult.stageStatus (r : SandboxResult) : StageStatus :=
  match r.status with
  | .completed => if r.exitCode = some 0 then .completed else .failed
  | .timeout => .timeout
  | .oom => .oom
  | .startFailed | .error => .failed

/-- The error text `_record_stage` gives a stage. -/
def SandboxResult.stageError (r : SandboxResult) : Option String :=
  (r.error.filter fun text => text != "").or
    (if r.exitCode = none ∨ r.exitCode = some 0 then none else some (clip r.stderr))

/-- `_record_stage`. -/
def RunStage.recorded (stage : RunStage) (r : SandboxResult) (moment : ℕ) : RunStage :=
  { stage with
    finishedAt := some moment
    durationS := some (roundTo3 r.durationS)
    exitCode := r.exitCode
    imageDigest := r.imageDigest
    error := r.stageError
    status := r.stageStatus
    logKey := r.log.1
    logBytes := some r.log.2.1
    logTruncated := r.log.2.2 }

/-- Write to the row of a stage. -/
def writeStage (id : String) (f : RunStage → RunStage) (hf : ∀ s, (f s).id = s.id) : Scan Unit :=
  writeDb fun db => { db with stages := db.stages.modify id f hf }

/-- The row of a stage whose container is about to start. -/
def stageRow (w : ScanWorld) (run : Run) (root : Artifact) (analyzer : String) : RunStage where
  id := w.stageId analyzer
  runId := run.id
  artifactId := some root.id
  analyzer := analyzer
  status := .running
  startedAt := some (w.clock analyzer)

/-- The row is committed before the container starts. -/
def openStage (w : ScanWorld) (run : Run) (root : Artifact) (analyzer : String) : Scan Unit := do
  flush fun db => do
    let stages ← db.stages.insert (stageRow w run root analyzer)
    pure { db with stages }
  checkpoint

/-- `_read_result`. -/
def readResult : ResultDocument → Except PyError (Option Json)
  | .missing => .ok none
  | .unparseable => .ok none
  | .unreadable e => .error e
  | .parsed value => .ok (some value)

/-- `_read_result(results) or {}`. -/
def payloadOf (document : ResultDocument) : Except PyError Json :=
  return ((← readResult document).getD .null).orElse (.obj [])

/-- `"; ".join(texts)`. -/
def joinTexts (texts : Json) : Except PyError String :=
  return "; ".intercalate (← (← texts.iter).mapM Json.asStr)

/-- The reasons of a truncated tree. -/
def truncationReasons (payload : Json) : Except PyError String := do
  let budget := (← payload.getOrNull "budget").orElse (.obj [])
  return clip (← joinTexts (← budget.getD "reasons" (.arr [])))

/-- `_run_unpack`. -/
def runUnpack (w : ScanWorld) (run : Run) (root : Artifact) (content : Bytes) :
    Scan (SandboxResult × Json × Option FileTree) := do
  openStage w run root "unpack"
  let (analysis, tree) := w.unpack root.name content
  let result ← Eff.ofExcept analysis.result
  let id := w.stageId "unpack"
  writeStage id (·.recorded result (w.clock "unpacked")) fun _ => rfl
  let payload ← Eff.ofExcept (payloadOf analysis.document)
  let count ← Eff.ofExcept (payload.getD "nodes" (.arr []) >>= Json.len)
  writeStage id (fun s => { s with evidenceCount := count }) fun _ => rfl
  if (← Eff.ofExcept (payload.getOrNull "truncated")).truthy then
    writeStage id (fun s => { s with status := .truncated }) fun _ => rfl
    let reasons ← Eff.ofExcept (truncationReasons payload)
    writeStage id (fun s => { s with error := some reasons }) fun _ => rfl
  return (result, payload, tree)

/-- How many matches a result lists. -/
def matchCount (payload : Json) : Except PyError ℕ := do
  let files ← (← payload.getD "files" (.arr [])).iter
  files.foldlM (fun n entry => return n + (← (← entry.getD "matches" (.arr [])).len)) 0

/-- `_run_static`. -/
def runStatic (w : ScanWorld) (run : Run) (root : Artifact) (staged : Staged) :
    Scan (SandboxResult × Json) := do
  openStage w run root "static"
  let analysis := w.static staged run.retainPlaintext
  let result ← Eff.ofExcept analysis.result
  let id := w.stageId "static"
  writeStage id (·.recorded result (w.clock "scanned")) fun _ => rfl
  let payload ← Eff.ofExcept (payloadOf analysis.document)
  let count ← Eff.ofExcept (matchCount payload)
  writeStage id (fun s => { s with evidenceCount := count }) fun _ => rfl
  return (result, payload)

/-! ## The tree -/

/-- A node of the unpack manifest, as the pipeline reads it. -/
structure UnpackNode where
  relativePath : String
  pathInTree : String
  parentPathInTree : Option String
  depth : ℤ
  sha256 : String
  sizeBytes : ℤ
  extractedBy : Option String
  deriving DecidableEq, Repr

/-- The fields `_materialise_tree` and the staging map read of a node. -/
def UnpackNode.ofJson (node : Json) : Except PyError UnpackNode := do
  let depth ← (← node.index "depth").asInteger
  let pathInTree ← (← node.index "path_in_tree").asStr
  let parentPathInTree ← (← node.getOrNull "parent_path_in_tree").asStr?
  let relativePath ← (← node.index "relative_path").asStr
  let sha256 ← ((← node.getOrNull "sha256").orElse (.str "")).asStr
  let sizeBytes ← (← node.index "size_bytes").asInteger
  let extractedBy ← (← node.getOrNull "extracted_by").asStr?
  return { relativePath, pathInTree, parentPathInTree, depth, sha256, sizeBytes, extractedBy }

/-- `payload.get("nodes", [])`. -/
def unpackNodes (payload : Json) : Except PyError (List UnpackNode) := do
  (← (← payload.getD "nodes" (.arr [])).iter).mapM UnpackNode.ofJson

/-- One turn of `_materialise_tree`: the artifacts so far, and their ids by path. -/
def materialiseNode (w : ScanWorld) (run : Run) (root : Artifact)
    (acc : List Artifact × Dict String String) (node : UnpackNode) :
    List Artifact × Dict String String :=
  let parentId :=
    if node.parentPathInTree = some root.pathInTree then root.id
    else (acc.2.get? (node.parentPathInTree.getD "")).getD root.id
  let artifact : Artifact :=
    { id := w.artifactId acc.1.length
      runId := run.id
      parentId := some parentId
      name := (Path.partsOf node.relativePath).name
      pathInTree := node.pathInTree
      depth := node.depth
      sha256 := node.sha256
      sizeBytes := node.sizeBytes
      storageKey := none
      extractedBy := node.extractedBy }
  (acc.1 ++ [artifact], acc.2 ++ [(node.pathInTree, artifact.id)])

/-- The rows of a tree, parents before their children. -/
def treeRows (w : ScanWorld) (run : Run) (root : Artifact) (nodes : List UnpackNode) :
    List Artifact × Dict String String :=
  (sortBy (fun n => (toLex (n.depth, n.pathInTree) : ℤ ×ₗ String)) nodes).foldl
    (materialiseNode w run root) ([], [])

/-- `_materialise_tree`. -/
def materialiseTree (w : ScanWorld) (run : Run) (root : Artifact) (nodes : List UnpackNode) :
    Scan (Dict String String) := do
  let (artifacts, byPath) := treeRows w run root nodes
  flush fun db => do
    let rows ← db.artifacts.insertAll artifacts
    pure { db with artifacts := rows }
  return byPath

/-- `staged_paths`: which artifact each file given to the scanner is. -/
def stagedPaths (root : Artifact) (tree : Option FileTree) (nodes : List UnpackNode)
    (byPath : Dict String String) : Dict String String :=
  let rootEntry := ("root/" ++ root.name, root.id)
  match tree with
  | none => [rootEntry]
  | some _ => rootEntry :: nodes.filterMap fun node =>
    match byPath.get? node.pathInTree with
    | none => none
    | some id => if id = "" then none else some ("extracted/" ++ node.relativePath, id)

/-! ## Evidence -/

/-- One match of a scanned file. -/
def evidenceOf (run : Run) (artifactId : String) (item : Json) : Except PyError Evidence := do
  let ruleId ← (← item.index "rule_id").asStr
  let valueHash ← (← item.index "value_hash").asStr
  let valueMasked ← (← item.index "value_masked").asStr
  let valuePlaintext ← if run.retainPlaintext then
      (← item.getOrNull "value_plaintext").asStr? else pure none
  let offset ← (← item.getOrNull "offset").asInteger?
  let encoding ← (← item.getOrNull "encoding").asStr?
  let entropy ← (← item.getOrNull "entropy").asNumber?
  let contextSnippet ← (← item.getOrNull "context").asStr?
  let contextPlaintext ← if run.retainPlaintext then
      (← item.getOrNull "context_plaintext").asStr? else pure none
  return { runId := run.id, artifactId, ruleId, valueHash, valueMasked, valuePlaintext, offset,
           encoding, entropy, contextSnippet, contextPlaintext }

/-- The artifact a scanned file belongs to; one the tree does not know goes to the root. -/
def attributedTo (staged : Dict String String) (root : Artifact) (relativePath : Json) :
    Except PyError String :=
  match relativePath with
  | .str path => .ok ((staged.get? path).getD root.id)
  | .arr _ | .obj _ => .error (.typeError ("unhashable type: '" ++ relativePath.typeName ++ "'"))
  | _ => .ok root.id

/-- The matches of one scanned file. -/
def entryEvidence (run : Run) (staged : Dict String String) (root : Artifact) (entry : Json) :
    Except PyError (List Evidence) := do
  let artifactId ← attributedTo staged root (← entry.getD "relative_path" (.str ""))
  (← (← entry.getD "matches" (.arr [])).iter).mapM (evidenceOf run artifactId)

/-- `_to_evidence`. -/
def toEvidence (run : Run) (payload : Json) (staged : Dict String String) (root : Artifact) :
    Except PyError (List Evidence) := do
  let files ← (← payload.getD "files" (.arr [])).iter
  return (← files.mapM (entryEvidence run staged root)).flatten

/-! ## The manifest -/

/-- `payload.get("tool_versions") or {}`. -/
def toolVersions (payload : Json) : Except PyError (Dict String Json) :=
  return ← ((← payload.getOrNull "tool_versions").orElse (.obj [])).asMapping

/-- `result.image_digest or "unknown"`. -/
def SandboxResult.digest (r : SandboxResult) : String :=
  match r.imageDigest with
  | none => "unknown"
  | some digest => if digest = "" then "unknown" else digest

/-- Everything that could change the result, as far as it is recorded. -/
def manifestOf (w : ScanWorld) (run : Run) (root : Artifact) (pack : RulePack)
    (unpacked scanned : SandboxResult) (tools : Dict String Json) : RunManifest where
  runId := run.id
  bareVersion := w.bareVersion
  artifactSha256 := root.sha256
  rulePackVersion := pack.version
  rulePackHash := pack.hash
  imageDigests := [("unpack", unpacked.digest), ("static", scanned.digest)]
  toolVersions := tools

/-! ## The scan -/

/-- `ScanOutcome`. -/
structure ScanOutcome where
  runId : String
  status : RunStatus
  findingCount : ℕ := 0
  evidenceCount : ℕ := 0
  suppressedCount : ℕ := 0
  artifactCount : ℕ := 1
  error : Option String := none
  deriving DecidableEq, Repr

/-- What `_execute` hands to `correlate`. -/
def correlationInput (db : Db) (run : Run) (pack : RulePack) (evidence : List Evidence) :
    CorrelationInput where
  evidence := evidence
  pack := pack
  artifactPaths := (db.artifactsOf run.id).map fun a => (a.id, a.pathInTree)
  suppressions := db.suppressions

/-- What the two containers of a scan said. -/
structure ScanResults where
  unpacked : SandboxResult
  unpackPayload : Json
  scanned : SandboxResult
  staticPayload : Json

/-- The phase "report" of `_execute`: evidence, findings, manifest and predecessor. -/
def reportPhase (w : ScanWorld) (run : Run) (root : Artifact) (pack : RulePack)
    (evidence : List Evidence) (results : ScanResults) : Scan CorrelationResult := do
  writeDb fun db => { db with evidence := db.evidence ++ evidence }
  let result := correlate run.id (correlationInput (← get).db run pack evidence)
  flush fun db => do
    let findings ← db.findings.insertAll result.findings
    pure { db with findings, locations := db.locations ++ result.locations }
  let unpackTools ← Eff.ofExcept (toolVersions results.unpackPayload)
  let staticTools ← Eff.ofExcept (toolVersions results.staticPayload)
  flush fun db => do
    let manifests ← db.manifests.insert (manifestOf w run root pack results.unpacked
      results.scanned (unpackTools ++ staticTools))
    pure { db with manifests }
  writeDb fun db => linkPreviousRun db run.id root
  return result

/-- The artifact a scan starts from. -/
def scanRoot (db : Db) (run : Run) : Except PyError Artifact :=
  match rootArtifact db run.id with
  | none => .error (.lookupError ("run " ++ run.id ++ " has no root artifact"))
  | some root => .ok root

/-- `_execute`. -/
def execute (w : ScanWorld) (run : Run) : Scan ScanOutcome := do
  let pack ← Eff.ofExcept w.pack
  let root ← Eff.ofExcept (scanRoot (← get).db run)
  let content ← Eff.ofExcept (w.download root)
  let (unpacked, unpackPayload, tree) ← runUnpack w run root content
  checkpoint
  let nodes ← Eff.ofExcept (unpackNodes unpackPayload)
  let byPath ← materialiseTree w run root nodes
  checkpoint
  Eff.ofExcept w.staging
  let (scanned, staticPayload) ← runStatic w run root ⟨root.name, content, tree⟩
  checkpoint
  let evidence ← Eff.ofExcept (toEvidence run staticPayload (stagedPaths root tree nodes byPath) root)
  let result ← reportPhase w run root pack evidence ⟨unpacked, unpackPayload, scanned, staticPayload⟩
  return { runId := run.id
           status := .completed
           findingCount := result.findings.length
           evidenceCount := evidence.length
           suppressedCount := result.suppressed
           artifactCount := 1 + (byPath.map Prod.fst).dedup.length }

/-- `RunAlreadyClaimedError` or `LookupError`, and what a session that broke raises at its commit. -/
abbrev ScanAnswer := Except PyError ScanOutcome

/-- `run_scan`: execute a full scan, and own the run's state transitions. -/
def runScan (w : ScanWorld) (db : Db) (runId : String) : ScanAnswer × Db :=
  match (claim db runId (w.clock "claim")).2, (claim db runId (w.clock "claim")).1 with
  | false, db =>
    match db.runs.get? runId with
    | none => (.error (.lookupError ("run " ++ runId ++ " not found")), db)
    | some run =>
      (.error (.external ("run " ++ runId ++ " is already " ++ run.status.value)), db)
  | true, db =>
    match db.runs.get? runId with
    | none => (.error (.lookupError ("run " ++ runId ++ " not found")), db)
    | some run =>
      match Eff.exec (execute w run) ⟨db, db⟩ with
      | (.ok outcome, s) =>
        let db := conclude s.db runId (w.clock "finish")
        (.ok { outcome with status := ((db.runs.get? runId).map Run.status).getD outcome.status }, db)
      -- a session whose flush failed commits nothing more
      | (.error (.database message), s) => (.error (.database message), s.committed)
      | (.error e, s) =>
        (.ok { runId, status := .failed, error := some e.message },
          abandon s.db runId e.message (w.clock "finish"))

end BareAnalysis
