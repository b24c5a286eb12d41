import BareAnalysis.Foundations.Session
import BareAnalysis.Machinery.Dict
import BareAnalysis.Machinery.Sorting

/-!
# Api/Views — what the API answers about a run and its findings

    Finding ──_to_out──▸ FindingOut          Run ──_summarise──▸ RunSummary

`api/routers/findings.py` and `api/routers/runs.py`: the projections both routers build from the
rows, each with its own reading of what the run before held.
-/

namespace BareAnalysis

/-- `LocationOut`. -/
structure LocationOut where
  artifactId : String
  pathInTree : String
  offset : Option ℤ := none
  «section» : Option String := none
  encoding : Option String := none
  deriving DecidableEq, Repr

/-- `LocationOut.model_validate`. -/
def FindingLocation.toOut (l : FindingLocation) : LocationOut :=
  ⟨l.artifactId, l.pathInTree, l.offset, l.section, l.encoding⟩

/-- `LlmAssessment`. -/
structure LlmAssessment where
  verdict : String
  reasoning : Option String := none
  model : Option String := none
  assessedAt : Option ℕ := none
  deriving DecidableEq, Repr

/-- `FindingOut`. -/
structure FindingOut where
  id : String
  runId : String
  ruleId : String
  category : String
  title : String
  severity : String
  confidence : ℚ
  valueMasked : String
  entropy : Option ℚ := none
  contextSnippet : Option String := none
  cwe : Option String := none
  tags : List String := []
  remediationMd : Option String := none
  status : String
  isNew : Bool := false
  locations : List LocationOut := []
  locationCount : ℕ := 0
  valuePlaintexts : List String := []
  contextPlaintext : Option String := none
  llm : Option LlmAssessment := none
  deriving DecidableEq, Repr

/-- `RunSummary`. -/
structure RunSummary where
  id : String
  status : String
  createdAt : ℕ
  startedAt : Option ℕ := none
  finishedAt : Option ℕ := none
  error : Option String := none
  artifactName : Option String := none
  artifactSha256 : Option String := none
  artifactSizeBytes : Option ℤ := none
  findingCount : ℕ := 0
  severityCounts : Counter String := []
  artifactCount : ℕ := 1
  newSincePrevious : Option ℕ := none
  deriving DecidableEq, Repr

section Findings

variable (db : Db)

/-- `_previous_finding_ids`. -/
def previousFindingIds (runId : String) : List String :=
  match db.runs.get? runId with
  | none => []
  | some run =>
    match run.previousRunId with
    | none => []
    | some previous => if previous = "" then [] else (db.findingsOf previous).map Finding.id

/-- `MAX_PLAINTEXT_VALUES`. -/
def maxPlaintextValues : ℕ := 500

/-- What a finding's evidence is found by: the places it is located at. -/
def locationKeys (locations : List FindingLocation) : List (String × Option ℤ) :=
  locations.map fun l => (l.artifactId, l.offset)

/-- `_plaintexts`: the retained values at the finding's locations, each once, at most 500. -/
def plaintexts (f : Finding) (locations : List FindingLocation) : List String :=
  let rows := db.evidence.filter fun e =>
    e.runId == f.runId && (locationKeys locations).contains (e.artifactId, e.offset)
  sortBy id ((keepFirst id (rows.filterMap Evidence.valuePlaintext)).take maxPlaintextValues)

/-- `_context_plaintext`: the unmasked text of the row whose snippet the finding shows, or of the
first at its locations; a row without an offset sorts last. -/
def contextPlaintext (f : Finding) (locations : List FindingLocation) : Option String :=
  match f.contextSnippet with
  | none => none
  | some snippet =>
    if snippet = "" then none
    else
      let rows := db.evidence.filter fun e =>
        e.runId == f.runId && e.contextPlaintext.isSome
          && (locationKeys locations).contains (e.artifactId, e.offset)
      let candidates := sortBy (fun e : Evidence =>
        (toLex (e.artifactId, toLex (e.offset.isNone, e.offset.getD 0)) : String ×ₗ Bool ×ₗ ℤ)) rows
      match candidates.find? fun e => e.contextSnippet == some snippet with
      | some e => e.contextPlaintext
      | none => candidates.head?.bind Evidence.contextPlaintext

/-- `_to_out`. -/
def toOut (f : Finding) (previousIds : List String) : FindingOut :=
  let locations := sortBy (fun l : FindingLocation =>
      (toLex (l.pathInTree, l.offset.getD 0) : String ×ₗ ℤ))
    (db.locations.filter fun l => l.findingId == f.id && l.runId == f.runId)
  { id := f.id
    runId := f.runId
    ruleId := f.ruleId
    category := f.category
    title := f.title
    severity := f.severity.value
    confidence := f.confidence
    valueMasked := f.valueMasked
    entropy := f.entropy
    contextSnippet := f.contextSnippet
    cwe := f.cwe
    tags := f.tags
    remediationMd := f.remediationMd
    status := f.status.value
    isNew := !previousIds.isEmpty && !previousIds.contains f.id
    locations := locations.map FindingLocation.toOut
    locationCount := locations.length
    valuePlaintexts := plaintexts db f locations
    contextPlaintext := contextPlaintext db f locations
    llm := f.llmVerdict.map fun verdict =>
      { verdict := verdict.value, reasoning := f.llmReasoning, model := f.llmModel
        assessedAt := f.llmAt } }

/-- What the findings routes answer for a run, before filters and order. -/
def findingsOut (runId : String) : List FindingOut :=
  (db.findingsOf runId).map fun f => toOut db f (previousFindingIds db runId)

end Findings

/-- `_summarise`. -/
def summarise (db : Db) (run : Run) : RunSummary :=
  let root := (db.artifactsOf run.id).find? fun a => a.parentId.isNone
  let counts := countBy (fun f : Finding => f.severity.value) (db.findingsOf run.id)
  let newSince : Option ℕ :=
    match run.previousRunId with
    | none => none
    | some previous =>
      if previous = "" then none
      else
        let previousIds := (db.findingsOf previous).map Finding.id
        let currentIds := keepFirst id ((db.findingsOf run.id).map Finding.id)
        some (currentIds.filter fun i => !previousIds.contains i).length
  { id := run.id
    status := run.status.value
    createdAt := run.createdAt
    startedAt := run.startedAt
    finishedAt := run.finishedAt
    error := run.error
    artifactName := root.map Artifact.name
    artifactSha256 := root.map Artifact.sha256
    artifactSizeBytes := root.map Artifact.sizeBytes
    findingCount := counts.foldl (fun n c => n + c.2) 0
    severityCounts := counts
    artifactCount := if (db.artifactsOf run.id).length = 0 then 1 else (db.artifactsOf run.id).length
    newSincePrevious := newSince }

end BareAnalysis
