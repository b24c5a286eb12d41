import Mathlib.Data.Rat.Floor
import BareAnalysis.Foundations.Vocab
import BareAnalysis.Machinery.Sha256
import BareAnalysis.Machinery.Table

/-!
# Foundations/Tables — the rows of the database

`core/models/tables.py`.  A finding's id is derived from its content and not from its run, so its
primary key is the pair of both; `detected_by` carries the check constraint that no model asserts a
finding into existence.
-/

namespace BareAnalysis

/-- The unit separator `\x1f` the content-derived ids are joined with. -/
def unitSep : String := "\x1f"

/-- Where a finding appears. -/
structure FindingLocation where
  findingId : String
  runId : String
  artifactId : String
  pathInTree : String
  offset : Option ℤ
  «section» : Option String := none
  encoding : Option String := none
  /-- Filled by S4: which function reads the bytes. -/
  xrefFunction : Option String := none
  deriving DecidableEq, Repr

/-- A correlated, deduplicated result. -/
structure Finding where
  id : String
  runId : String
  ruleId : String
  category : String
  title : String
  severity : Severity
  confidence : ℚ
  valueMasked : String
  valueHash : String
  entropy : Option ℚ := none
  contextSnippet : Option String := none
  cwe : Option String := none
  tags : List String := []
  remediationMd : Option String := none
  detectedBy : DetectedBy := .rule
  status : FindingStatus := .open
  llmVerdict : Option LlmVerdict := none
  llmReasoning : Option String := none
  llmModel : Option String := none
  llmAt : Option ℕ := none
  noLlmOnlyFindings : detectedBy ≠ .llm := by first | exact DetectedBy.rule_ne_llm | assumption
  deriving DecidableEq, Repr

namespace Finding

/-- The composite primary key. -/
def key (f : Finding) : String × String := (f.id, f.runId)

/-- What `compute_id` hashes; an offset of `None` reads as 0. -/
def idPayload (ruleId valueHash artifactPath : String) (offset : Option ℤ) : String :=
  unitSep.intercalate [ruleId, valueHash, artifactPath, toString (offset.getD 0)]

/-- `Finding.compute_id`: the first 32 digits of the payload's hash. -/
def computeId (ruleId valueHash artifactPath : String) (offset : Option ℤ) : String :=
  String.ofList ((sha256 (idPayload ruleId valueHash artifactPath offset)).toList.take 32)

end Finding

/-- Raw analyzer output, before correlation. -/
structure Evidence where
  runId : String := ""
  artifactId : String
  analyzer : String := "static"
  ruleId : String
  valueHash : String
  valueMasked : String := ""
  valuePlaintext : Option String := none
  offset : Option ℤ := none
  «section» : Option String := none
  encoding : Option String := none
  entropy : Option ℚ := none
  contextSnippet : Option String := none
  contextPlaintext : Option String := none
  deriving DecidableEq, Repr

/-- A known-benign finding, silenced by rule, value and path pattern. -/
structure Suppression where
  valueHash : String
  ruleId : String
  pathPattern : String := "*"
  reason : String := ""
  expiresAt : Option ℕ := none
  deriving DecidableEq, Repr

/-- A file under analysis, a node of the unpack tree. -/
structure Artifact where
  id : String
  runId : String
  parentId : Option String
  name : String
  pathInTree : String
  depth : ℤ := 0
  sha256 : String := ""
  sizeBytes : ℤ := 0
  storageKey : Option String := none
  kind : Option String := none
  extractedBy : Option String := none
  deriving DecidableEq, Repr

/-- One scan of one submitted artifact. -/
structure Run where
  id : String
  status : RunStatus := .queued
  retainPlaintext : Bool := false
  createdAt : ℕ := 0
  startedAt : Option ℕ := none
  finishedAt : Option ℕ := none
  error : Option String := none
  previousRunId : Option String := none
  deriving DecidableEq, Repr

/-- One analyzer execution. -/
structure RunStage where
  id : String
  runId : String
  artifactId : Option String := none
  analyzer : String
  status : StageStatus := .pending
  startedAt : Option ℕ := none
  finishedAt : Option ℕ := none
  durationS : Option ℚ := none
  exitCode : Option ℤ := none
  imageDigest : Option String := none
  error : Option String := none
  evidenceCount : ℕ := 0
  logKey : Option String := none
  logBytes : Option ℕ := none
  logTruncated : Bool := false
  deriving DecidableEq, Repr

/-- Append-only record of what a person did. -/
structure AuditLog where
  runId : String
  action : String
  findingId : String
  oldStatus : FindingStatus
  newStatus : FindingStatus
  note : Option String
  deriving DecidableEq, Repr

/-- The audit actions of the recovery sweep. -/
inductive RecoveryAction
  | runRequeued | runOrphaned
  deriving DecidableEq, Repr

/-- …with the texts the audit log stores for them. -/
def RecoveryAction.value : RecoveryAction → String
  | runRequeued => "run_requeued"
  | runOrphaned => "run_orphaned"

/-- The audit rows of the recovery sweep: the trail its attempts are counted from. -/
structure RecoveryAudit where
  action : RecoveryAction
  runId : String
  actor : String := "recovery-sweep"
  reason : String
  ageSeconds : Option ℤ := none
  attempt : Option ℕ := none
  deriving DecidableEq, Repr

end BareAnalysis
