import BareAnalysis.Enrichment.Result
import BareAnalysis.Logs.Redact
import BareAnalysis.Pipeline.Scan
import Mathlib.Data.Finset.Dedup

/-!
# Enrichment/Ghidra — cross-references for findings the static pass already made

    delivery ──▸ stage row ──commit──▸ analyzer ──▸ result.json ──▸ xref_function, status, manifest
                    │                     │             │
             refused: raises      raised: FAILED    malformed: raises

`core/pipeline/ghidra.py`.  One delivery of the task is a function from the database it finds to the
one it leaves and what it answers; what it did before its commit is undone when it raises.
-/

namespace BareAnalysis

/-! ## The rows of a stage -/

/-- What `UniqueConstraint("run_id", "artifact_id", "analyzer")` is about; a null never clashes. -/
def RunStage.uniqueKey (s : RunStage) : Option (String × String × String) :=
  s.artifactId.map fun artifactId => (s.runId, artifactId, s.analyzer)

namespace Db

/-- No stage holds the unique key of this one. -/
def KeyFree (db : Db) (stage : RunStage) : Prop :=
  ∀ s ∈ db.stages.rows, s.uniqueKey = none ∨ s.uniqueKey ≠ stage.uniqueKey

instance (db : Db) (stage : RunStage) : Decidable (db.KeyFree stage) :=
  inferInstanceAs (Decidable (∀ s ∈ db.stages.rows, _))

/-- `session.add(stage)`, once it is flushed: `none` is the `IntegrityError`. -/
def insertStage (db : Db) (stage : RunStage) : Option Db :=
  if db.KeyFree stage then (db.stages.insert stage).map fun stages => { db with stages } else none

/-- The row of a stage, as it is committed. -/
def saveStage (db : Db) (stage : RunStage) : Db :=
  { db with stages := db.stages.modify stage.id (fun s => { stage with id := s.id }) fun _ => rfl }

end Db

/-! ## The deliveries -/

/-- What a worker that takes the task is not the author of: its rules, and its interpreter. -/
structure Enricher where
  interp : Interpreter
  numerals : Numerals
  pack : ScanPack

/-- One delivery: the row's id, the clock, and what the analyzer run gives. -/
structure Delivery where
  stageId : String
  startedAt : ℕ := 0
  endedAt : ℕ := 0
  analysis : Analysis

/-- `EnrichmentOutcome`. -/
structure EnrichmentOutcome where
  runId : String
  status : String
  binaries : ℕ := 0
  resolved : ℕ := 0
  detail : Option String := none
  deriving DecidableEq, Repr

/-- The database a delivery leaves, and how it ended. -/
structure Delivered where
  db : Db
  answer : Except PyError EnrichmentOutcome

/-- `ANALYZER`. -/
def ghidra : String := "ghidra"

/-- `EXECUTABLE_KINDS`. -/
def executableKinds : List ArtifactKind := [.pe, .elf, .macho]

/-- `ENRICHABLE_RUN_STATUSES`. -/
def enrichableRunStatuses : List RunStatus := [.completed, .degraded]

/-- `_ALREADY_HANDLED`. -/
def handledStatuses : List StageStatus := [.running, .completed, .truncated]

/-- The ghidra stages of a run. -/
def ghidraStages (db : Db) (runId : String) : List RunStage :=
  (db.stagesOf runId).filter fun s => s.analyzer == ghidra

/-- `_already_handled`. -/
def alreadyHandled (db : Db) (runId : String) : Bool :=
  (ghidraStages db runId).any fun s => handledStatuses.contains s.status

/-! ## The targets -/

/-- An executable worth analysing, and the offsets to look at. -/
structure BinaryTarget where
  artifactId : String
  pathInTree : String
  storageKey : String
  offsets : List ℤ
  deriving DecidableEq, Repr

/-- The artifact id rather than the file's own name: names come out of the customer's archive. -/
def BinaryTarget.stagedPath (t : BinaryTarget) : String := t.artifactId

/-- `MAX_BINARIES`. -/
def maxBinaries : ℕ := 16

/-- `MAX_OFFSETS_PER_BINARY`. -/
def maxOffsetsPerBinary : ℕ := 256

/-- What Ghidra is worth running on. -/
def Artifact.isExecutable (a : Artifact) : Bool :=
  executableKinds.any fun kind => a.kind == some kind.value

/-- The executables of a run with an offset a finding points to. -/
def targetRows (db : Db) (runId : String) : List (Artifact × ℤ) :=
  (db.locationsOf runId).flatMap fun l => l.offset.toList.flatMap fun offset =>
    ((db.artifactsOf runId).filter fun a => l.artifactId == a.id && a.isExecutable).map (·, offset)

/-- The offsets found in one of them. -/
def offsetsIn (rows : List (Artifact × ℤ)) (artifactId : String) : List ℤ :=
  sortedSet ((rows.filter fun row => row.1.id == artifactId).map Prod.snd).toFinset

/-- The bytes were kept. -/
def Artifact.storedAt? (a : Artifact) : Option String := a.storageKey.filter fun key => key != ""

/-- The note on an executable, if there is one. -/
def offsetNote (rows : List (Artifact × ℤ)) (a : Artifact) : Option String :=
  match a.storedAt? with
  | none => some (a.pathInTree ++ ": bytes not retained, so not analysed")
  | some _ =>
    if maxOffsetsPerBinary < (offsetsIn rows a.id).length then
      some (a.pathInTree ++ ": only the first " ++ toString maxOffsetsPerBinary
        ++ " offsets were analysed")
    else none

/-- The target an executable makes, if its bytes were kept. -/
def targetOf (rows : List (Artifact × ℤ)) (a : Artifact) : Option BinaryTarget :=
  a.storedAt?.map fun storageKey =>
    { artifactId := a.id
      pathInTree := a.pathInTree
      storageKey
      offsets := (offsetsIn rows a.id).take maxOffsetsPerBinary }

/-- `select_targets`: most findings first, then path; and a note for each one left out. -/
def selectTargets (db : Db) (runId : String) : List BinaryTarget × List String :=
  let rows := targetRows db runId
  let described := keepFirst Artifact.id (rows.map Prod.fst)
  let candidates := sortBy
    (fun t : BinaryTarget => (toLex (-(t.offsets.length : ℤ), t.pathInTree) : ℤ ×ₗ String))
    (described.filterMap (targetOf rows))
  let dropped := (candidates.drop maxBinaries).map fun t =>
    t.pathInTree ++ ": over the " ++ toString maxBinaries ++ "-binary cap"
  (candidates.take maxBinaries, sortBy id (described.filterMap (offsetNote rows) ++ dropped))

/-! ## What the result gives -/

section Enrich

variable (lib : Enricher)

/-- `redact_log_text(text, pack=pack)[:limit]`. -/
def redactedTo (limit : ℕ) (text : String) : String :=
  String.ofList ((redactLogText lib.interp lib.pack text.toList).take limit)

/-- `_joined`. -/
def joinedNotes (parts : List String) : String := redactedTo lib 2000 ("; ".intercalate parts)

/-- The functions to write, by artifact and offset. -/
def wantedFunctions (result : GhidraResult) (artifactByPath : Dict String String) :
    Dict (String × ℤ) String :=
  result.xrefFunctions.entries.filterMap fun entry =>
    (Dict.get? artifactByPath entry.1.1).map fun artifactId =>
      ((artifactId, entry.1.2), redactedTo lib 255 entry.2)

/-- The function wanted for a location. -/
def functionFor (runId : String) (wanted : Dict (String × ℤ) String) (l : FindingLocation) :
    Option String :=
  if l.runId = runId ∧ l.offset.isSome then
    (Dict.get? wanted (l.artifactId, l.offset.getD 0)).filter fun function => function != ""
  else none

/-- What `apply_xrefs` does to a location: nothing else of it is written. -/
def FindingLocation.named (l : FindingLocation) (function : Option String) : FindingLocation :=
  match function with
  | none => l
  | some name => { l with xrefFunction := some name }

/-- `apply_xrefs`: the locations with their functions, and how many gained one. -/
def applyXrefs (db : Db) (runId : String) (result : GhidraResult)
    (artifactByPath : Dict String String) : Db × ℕ :=
  let wanted := wantedFunctions lib result artifactByPath
  ({ db with locations := db.locations.map fun l => l.named (functionFor runId wanted l) },
    (db.locations.filter fun l => (functionFor runId wanted l).isSome).length)

/-- The message of a binary that was not analyzed. -/
def BinaryResult.problem (labels : Dict String String) (b : BinaryResult) : String :=
  (Dict.get? labels b.path).getD b.path ++ ": " ++ b.status
    ++ match b.reason with
      | none => ""
      | some reason => if reason = "" then "" else " (" ++ reason ++ ")"

/-- The status `_summarise_stage` gives a stage whose container finished. -/
def GhidraResult.stageStatus (result : GhidraResult) : StageStatus :=
  if result.degradedBinaries ≠ [] ∧ ∀ b ∈ result.binaries, b.status ≠ "analyzed" then .failed
  else if result.truncated then .truncated
  else .completed

/-- `_summarise_stage`: a timeout or an OOM of the container says more than a partial result. -/
def RunStage.summarised (stage : RunStage) (result : GhidraResult) (labels : Dict String String)
    (notes : List String) : RunStage :=
  if stage.status ≠ .completed then stage
  else
    let problems := (result.binaries.filter fun b => b.status != "analyzed").map
      (BinaryResult.problem labels)
    { stage with
      status := result.stageStatus
      error := if problems = [] ∧ notes = [] then none
        else some (joinedNotes lib (problems ++ notes)) }

/-- `_record_in_manifest`. -/
def recordInManifest (db : Db) (runId : String) (result : GhidraResult)
    (imageDigest : Option String) : Db :=
  { db with
    manifests := db.manifests.modify runId
      (fun m => { m with
        toolVersions := m.toolVersions ++ [("ghidra", .str result.ghidraVersion)]
        imageDigests := m.imageDigests
          ++ [(ghidra, (imageDigest.filter fun digest => digest != "").getD "unknown")] })
      fun _ => rfl }

/-! ## One delivery -/

/-- The row a delivery adds, before anything is known about it. -/
def ghidraStage (db : Db) (runId : String) (d : Delivery) : RunStage where
  id := d.stageId
  runId := runId
  artifactId := (rootArtifact db runId).map Artifact.id
  analyzer := ghidra
  startedAt := some d.startedAt

/-- The stage of a run without anything to analyse. -/
def RunStage.skipped (stage : RunStage) (notes : List String) (moment : ℕ) : RunStage :=
  { stage with
    status := .skipped
    finishedAt := some moment
    durationS := some 0
    error := some (joinedNotes lib ("no executable has a finding at a file offset" :: notes)) }

/-- The stage of an analyzer run that raised. -/
def RunStage.failedWith (stage : RunStage) (e : PyError) (moment : ℕ) : RunStage :=
  { stage with
    status := .failed
    finishedAt := some moment
    error := some (redactedTo lib 2000 e.message) }

/-- The stage of an analyzer that exited without writing a result. -/
def RunStage.withoutResult (stage : RunStage) : RunStage :=
  if stage.status = .completed then
    { stage with status := .failed, error := some "the analyzer exited without writing a result" }
  else stage

/-- `_run_analyzer`: the stage as it leaves it, and the document or what was raised. -/
def runGhidra (stage : RunStage) (d : Delivery) : RunStage × Except PyError (Option Json) :=
  match d.analysis.result with
  | .error e => (stage, .error e)
  | .ok result => (stage.recorded result d.endedAt, readResult d.analysis.document)

/-- A delivery that returns with this stage. -/
def stageOutcome (stage : RunStage) (targets : List BinaryTarget) (resolved : ℕ) :
    EnrichmentOutcome where
  runId := stage.runId
  status := stage.status.value
  binaries := targets.length
  resolved := resolved
  detail := stage.error

/-- What follows on a document. -/
def applyDocument (db : Db) (stage : RunStage) (targets : List BinaryTarget) (notes : List String)
    (payload : Json) : Delivered :=
  match GhidraResult.fromJson lib.numerals lib.interp.printable payload with
  -- Raised outside the `try`: only the commit of the running stage is kept.
  | .error e => ⟨db, .error e⟩
  | .ok result =>
    let (named, resolved) := applyXrefs lib db stage.runId result
      (targets.map fun t => (t.stagedPath, t.artifactId))
    let summarised := { stage with evidenceCount := resolved }.summarised lib result
      (targets.map fun t : BinaryTarget => (t.stagedPath, t.pathInTree)) notes
    ⟨(recordInManifest named stage.runId result stage.imageDigest).saveStage summarised,
      .ok (stageOutcome summarised targets resolved)⟩

/-- What follows on the commit of the running stage. -/
def analyse (db : Db) (running : RunStage) (targets : List BinaryTarget) (notes : List String)
    (d : Delivery) : Delivered :=
  let (stage, read) := runGhidra running d
  match read with
  | .error e =>
    let failed := stage.failedWith lib e d.endedAt
    ⟨db.saveStage failed, .ok (stageOutcome failed targets 0)⟩
  | .ok none =>
    ⟨db.saveStage stage.withoutResult, .ok (stageOutcome stage.withoutResult targets 0)⟩
  | .ok (some .null) =>
    ⟨db.saveStage stage.withoutResult, .ok (stageOutcome stage.withoutResult targets 0)⟩
  | .ok (some payload) => applyDocument lib db stage targets notes payload

/-- What follows on the row of the stage. -/
def startStage (db : Db) (stage : RunStage) (d : Delivery) : Delivered :=
  let (targets, notes) := selectTargets db stage.runId
  if targets = [] then
    let skipped := stage.skipped lib notes d.endedAt
    ⟨db.saveStage skipped, .ok (stageOutcome skipped [] 0)⟩
  else
    let running := { stage with status := .running }
    analyse lib (db.saveStage running) running targets notes d

/-- `enrich_run`, in the transaction of one delivery. -/
def enrichRun (runId : String) (db : Db) (d : Delivery) : Delivered :=
  match db.runs.get? runId with
  | none => ⟨db, .error (.lookupError ("run " ++ runId ++ " not found"))⟩
  | some run =>
    if run.status ∉ enrichableRunStatuses then
      ⟨db, .ok
        { runId, status := "not_applicable", detail := some ("run is " ++ run.status.value) }⟩
    else if alreadyHandled db runId then
      ⟨db, .ok { runId, status := "already_handled", detail := some "a ghidra stage exists" }⟩
    else
      -- The row goes in with the first query after it.
      match db.insertStage (ghidraStage db runId d) with
      | none => ⟨db, .error (.database "UNIQUE constraint failed")⟩
      | some opened => startStage lib opened (ghidraStage db runId d) d

end Enrich

end BareAnalysis
