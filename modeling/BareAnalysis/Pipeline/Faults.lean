import BareAnalysis.Pipeline.Scan

/-!
# Pipeline/Faults — a scan any step of which may raise

    _execute:  load ──▸ stage ──▸ unpack ──commit──▸ ⋯ ──▸ findings ──▸ manifest ──▸ link
                                                               │
    run_scan:                              status COMPLETED or DEGRADED, or FAILED if that raised
                                                               │
    session_scope:                                    commit, or roll back

`scan_run`, from the claim on: the steps of a scan in order, each of which may raise besides what it
raises by itself.  A session whose flush or commit failed takes no further one until it is rolled
back, and nothing in a scan rolls back before `session_scope` does.
-/

namespace BareAnalysis

/-- The steps of `_execute` and, after them, those of the final status write. -/
inductive ScanStep
  | loadRules | findRoot | directories | stageRules | download
  | unpackRow | unpackContainer | unpackResult | indexCommit
  | treeNodes | treeRows | indexedCommit | stageTree
  | staticRow | staticContainer | staticResult | reportCommit
  | readEvidence | evidenceRows | retainBytes | identify | correlate
  | findingRows | manifest | manifestRow | link
  | degradedStages | status | finalCommit
  deriving DecidableEq, Repr

/-- The step runs inside the `try` of `run_scan`. -/
def ScanStep.inExecute : ScanStep → Bool
  | degradedStages | status | finalCommit => false
  | _ => true

/-- What is raised at a step, by the disk, the store, the driver or the database. -/
abbrev Faults := ScanStep → Option PyError

/-- Raised by a flush or a commit. -/
def PyError.isDatabase : PyError → Bool
  | database _ => true
  | _ => false

/-- The exception of a part that raised, if it is one of the database. -/
def raisedDatabase {α : Type} : Except PyError α → Bool
  | .error e => e.isDatabase
  | .ok _ => false

/-- The session of a scan, whether one of its flushes or commits has failed, and the step the scan
is at. -/
structure LiveSession extends ScanSession where
  broken : Bool := false
  reached : ScanStep := .loadRules

/-- The session a claimed run is scanned in. -/
def LiveSession.start (db : Db) : LiveSession where
  db := db
  committed := db

/-- A part of a scan that may fail at every step. -/
abbrev Live (α : Type) := Eff PyError LiveSession α

section Live

variable (faults : Faults) (w : ScanWorld)

/-- What a step ends in: what is raised at it, or what its part ends in. -/
def stepOutcome {α : Type} (step : ScanStep) (part : Scan α) (s : ScanSession) :
    Except PyError α × ScanSession :=
  match faults step with
  | some e => (.error e, s)
  | none => Eff.exec part s

/-- One step of a scan; a database error breaks the session. -/
def liveStep {α : Type} (step : ScanStep) (part : Scan α) : Live α :=
  ExceptT.mk fun s =>
    let out := stepOutcome faults step part s.toScanSession
    (out.1, { toScanSession := out.2, broken := s.broken || raisedDatabase out.1, reached := step })

theorem exec_liveStep {α : Type} (step : ScanStep) (part : Scan α) (s : LiveSession) :
    Eff.exec (liveStep faults step part) s
      = ((stepOutcome faults step part s.toScanSession).1,
        { toScanSession := (stepOutcome faults step part s.toScanSession).2
          broken := s.broken
            || raisedDatabase (stepOutcome faults step part s.toScanSession).1
          reached := step }) := rfl

/-! ## The containers -/

theorem id_unpacked (w : ScanWorld) (result : SandboxResult) (s : RunStage) :
    (s.recorded result (w.clock "unpacked")).id = s.id := rfl

theorem id_scanned (w : ScanWorld) (result : SandboxResult) (s : RunStage) :
    (s.recorded result (w.clock "scanned")).id = s.id := rfl

theorem id_counted (count : ℕ) (s : RunStage) : { s with evidenceCount := count }.id = s.id := rfl

theorem id_truncated (s : RunStage) : { s with status := .truncated }.id = s.id := rfl

theorem id_explained (reasons : String) (s : RunStage) :
    { s with error := some reasons }.id = s.id := rfl

/-- What `_run_unpack` does with the result of its container. -/
def recordUnpack (analysis : Analysis) (result : SandboxResult) : Scan Json := do
  let id := w.stageId "unpack"
  writeStage id (·.recorded result (w.clock "unpacked")) (id_unpacked w result)
  let payload ← Eff.ofExcept (payloadOf analysis.document)
  let count ← Eff.ofExcept (payload.getD "nodes" (.arr []) >>= Json.len)
  writeStage id (fun s => { s with evidenceCount := count }) (id_counted count)
  if (← Eff.ofExcept (payload.getOrNull "truncated")).truthy then
    writeStage id (fun s => { s with status := .truncated }) id_truncated
    let reasons ← Eff.ofExcept (truncationReasons payload)
    writeStage id (fun s => { s with error := some reasons }) (id_explained reasons)
  return payload

/-- `_run_unpack`, step by step. -/
def liveUnpack (run : Run) (root : Artifact) (content : Bytes) :
    Live (SandboxResult × Json × Option FileTree) := do
  liveStep faults .unpackRow (openStage w run root "unpack")
  let (analysis, tree) := w.unpack root.name content
  let result ← liveStep faults .unpackContainer (Eff.ofExcept analysis.result)
  let payload ← liveStep faults .unpackResult (recordUnpack w analysis result)
  return (result, payload, tree)

/-- What `_run_static` does with the result of its container. -/
def recordStatic (analysis : Analysis) (result : SandboxResult) : Scan Json := do
  let id := w.stageId "static"
  writeStage id (·.recorded result (w.clock "scanned")) (id_scanned w result)
  let payload ← Eff.ofExcept (payloadOf analysis.document)
  let count ← Eff.ofExcept (matchCount payload)
  writeStage id (fun s => { s with evidenceCount := count }) (id_counted count)
  return payload

/-- `_run_static`, step by step. -/
def liveStatic (run : Run) (root : Artifact) (staged : Staged) : Live (SandboxResult × Json) := do
  liveStep faults .staticRow (openStage w run root "static")
  let analysis := w.static staged run.retainPlaintext
  let result ← liveStep faults .staticContainer (Eff.ofExcept analysis.result)
  let payload ← liveStep faults .staticResult (recordStatic w analysis result)
  return (result, payload)

/-! ## The scan -/

/-- The phase "report", step by step. -/
def liveReport (run : Run) (root : Artifact) (pack : RulePack) (evidence : List Evidence)
    (results : ScanResults) : Live CorrelationResult := do
  liveStep faults .evidenceRows (writeDb fun db => { db with evidence := db.evidence ++ evidence })
  liveStep faults .retainBytes (pure ())
  liveStep faults .identify (pure ())
  let result ← liveStep faults .correlate
    (return correlate run.id (correlationInput (← get).db run pack evidence))
  liveStep faults .findingRows (flush fun db => do
    let findings ← db.findings.insertAll result.findings
    pure { db with findings, locations := db.locations ++ result.locations })
  let tools ← liveStep faults .manifest (do
    let unpackTools ← Eff.ofExcept (toolVersions results.unpackPayload)
    let staticTools ← Eff.ofExcept (toolVersions results.staticPayload)
    return unpackTools ++ staticTools)
  liveStep faults .manifestRow (flush fun db => do
    let manifests ← db.manifests.insert (manifestOf w run root pack results.unpacked
      results.scanned tools)
    pure { db with manifests })
  liveStep faults .link (writeDb fun db => linkPreviousRun db run.id root)
  return result

/-- `_execute`, step by step. -/
def liveExecute (run : Run) : Live ScanOutcome := do
  let pack ← liveStep faults .loadRules (Eff.ofExcept w.pack)
  let root ← liveStep faults .findRoot (do Eff.ofExcept (scanRoot (← get).db run))
  liveStep faults .directories (pure ())
  liveStep faults .stageRules (pure ())
  let content ← liveStep faults .download (Eff.ofExcept (w.download root))
  let (unpacked, unpackPayload, tree) ← liveUnpack faults w run root content
  liveStep faults .indexCommit checkpoint
  let nodes ← liveStep faults .treeNodes (Eff.ofExcept (unpackNodes unpackPayload))
  let byPath ← liveStep faults .treeRows (materialiseTree w run root nodes)
  liveStep faults .indexedCommit checkpoint
  liveStep faults .stageTree (Eff.ofExcept w.staging)
  let (scanned, staticPayload) ← liveStatic faults w run root ⟨root.name, content, tree⟩
  liveStep faults .reportCommit checkpoint
  let evidence ← liveStep faults .readEvidence
    (Eff.ofExcept (toEvidence run staticPayload (stagedPaths root tree nodes byPath) root))
  let result ← liveReport faults w run root pack evidence
    ⟨unpacked, unpackPayload, scanned, staticPayload⟩
  return { runId := run.id
           status := .completed
           findingCount := result.findings.length
           evidenceCount := evidence.length
           suppressedCount := result.suppressed
           artifactCount := 1 + (byPath.map Prod.fst).dedup.length }

/-- The tail of `run_scan`, and the commit of `session_scope`. -/
def liveConclude (run : Run) : Live Unit := do
  liveStep faults .degradedStages (pure ())
  liveStep faults .status (writeDb fun db => conclude db run.id (w.clock "finish"))
  liveStep faults .finalCommit checkpoint

/-- The task `scan_run` on a run it has claimed: what it answers, and what stays committed. -/
def scanTask (run : Run) (db : Db) : ScanAnswer × Db :=
  match Eff.exec (liveExecute faults w run) (.start db) with
  | (.error e, s) =>
    -- the handler writes to the session that raised, and `session_scope` commits that
    if s.broken then (.error e, s.committed)
    else
      (.ok { runId := run.id, status := .failed, error := some e.message },
        abandon s.db run.id e.message (w.clock "finish"))
  | (.ok outcome, s) =>
    match Eff.exec (liveConclude faults w run) s with
    | (.error e, s) => (.error e, s.committed)
    | (.ok (), s) =>
      (.ok { outcome with
          status := ((s.db.runs.get? run.id).map Run.status).getD outcome.status },
        s.committed)

/-- The scan raises this exception at this step. -/
def RaisesAt (run : Run) (db : Db) (step : ScanStep) (e : PyError) : Prop :=
  ∃ s, Eff.exec (liveExecute faults w run >>= fun _ => liveConclude faults w run) (.start db)
    = (.error e, s) ∧ s.reached = step

end Live

end BareAnalysis
