import BareAnalysis.Foundations.Tables
import BareAnalysis.Machinery.Json

/-!
# Foundations/Session — what a database session sees

`Db` is the state a transaction reads and writes: one table a model.  Tables with a primary key the
code reads by are `Table`s; the others are lists in insertion order.
-/

namespace BareAnalysis

/-- Everything that could change a result of a run. -/
structure RunManifest where
  runId : String
  bareVersion : String
  artifactSha256 : String
  rulePackVersion : String
  rulePackHash : String
  imageDigests : Dict String String := []
  toolVersions : Dict String Json := []

/-- The database, as one transaction sees it. -/
structure Db where
  runs : Table Run.id := ∅
  manifests : Table RunManifest.runId := ∅
  stages : Table RunStage.id := ∅
  artifacts : Table Artifact.id := ∅
  evidence : List Evidence := []
  findings : Table Finding.key := ∅
  locations : List FindingLocation := []
  suppressions : List Suppression := []
  auditLog : List AuditLog := []
  recoveries : List RecoveryAudit := []
  deriving Inhabited

namespace Db

/-- `select(Finding).where(Finding.run_id == run_id)`. -/
def findingsOf (db : Db) (runId : String) : List Finding :=
  db.findings.select fun f => f.runId == runId

theorem mem_findingsOf {db : Db} {runId : String} {f : Finding} :
    f ∈ db.findingsOf runId ↔ f ∈ db.findings.rows ∧ f.runId = runId := by
  simp [findingsOf, Table.mem_select]

/-- `select(FindingLocation).where(FindingLocation.run_id == run_id)`. -/
def locationsOf (db : Db) (runId : String) : List FindingLocation :=
  db.locations.filter fun l => l.runId == runId

/-- `select(RunStage).where(RunStage.run_id == run_id)`. -/
def stagesOf (db : Db) (runId : String) : List RunStage :=
  db.stages.select fun s => s.runId == runId

theorem mem_stagesOf {db : Db} {runId : String} {s : RunStage} :
    s ∈ db.stagesOf runId ↔ s ∈ db.stages.rows ∧ s.runId = runId := by
  simp [stagesOf, Table.mem_select]

/-- `select(Artifact).where(Artifact.run_id == run_id)`. -/
def artifactsOf (db : Db) (runId : String) : List Artifact :=
  db.artifacts.select fun a => a.runId == runId

end Db

end BareAnalysis
