import Mathlib.Data.Rat.Floor
import BareAnalysis.Foundations.Tables
import BareAnalysis.Machinery.Dict
import BareAnalysis.Machinery.Fnmatch
import BareAnalysis.Rules.Model

/-!
# Correlation/Correlate — evidence to findings

    evidence ──sorted, grouped by (rule, value)──▸ groups ──addGroup──▸ findings, locations
                                                                │
                              per rule, more than 20 of them ───┴──clusterRule──▸ one cluster

`core/pipeline/correlator.py`.  Everything is sorted before it is merged, so that the order in which
the analyzers report does not reach the output.
-/

namespace BareAnalysis

/-- `CorrelationResult`. -/
structure CorrelationResult where
  findings : List Finding := []
  locations : List FindingLocation := []
  suppressed : ℕ := 0
  deriving DecidableEq, Repr

/-- `_evidence_sort_key`. -/
def evidenceSortKey (e : Evidence) : String ×ₗ String ×ₗ String ×ₗ ℤ :=
  toLex (e.ruleId, toLex (e.valueHash, toLex (e.artifactId, e.offset.getD 0)))

/-- The key evidence is grouped under: the same secret under two rules stays two findings. -/
def Evidence.groupKey (e : Evidence) : String × String := (e.ruleId, e.valueHash)

/-- The evidence for one value of one rule. -/
abbrev EvidenceGroup := Group (String × String) Evidence

/-- `sorted(groups.items())`. -/
def evidenceGroups (evidence : List Evidence) : List EvidenceGroup :=
  sortBy (fun g => (toLex g.key : String ×ₗ String))
    (groupBy Evidence.groupKey (sortBy evidenceSortKey evidence))

/-! ## Confidence -/

/-- `ENTROPY_STRONG`: above it a value is likely key material. -/
def entropyStrong : ℚ := 9 / 2

/-- `ENTROPY_WEAK`: below it a generic match is likely a config string. -/
def entropyWeak : ℚ := 5 / 2

/-- `round(q)`: ties go to the even neighbour. -/
def roundHalfEven (q : ℚ) : ℤ :=
  let floor := ⌊q⌋
  if q - floor < 1 / 2 then floor
  else if 1 / 2 < q - floor then floor + 1
  else if floor % 2 = 0 then floor else floor + 1

/-- `round(q, 3)`. -/
def roundTo3 (q : ℚ) : ℚ := roundHalfEven (q * 1000) / 1000

/-- The step the entropies of a group move the confidence by. -/
def entropyStep (rule : Rule) (items : List Evidence) : ℚ :=
  match (items.filterMap Evidence.entropy).max? with
  | none => 0
  | some peak =>
    if entropyStrong ≤ peak then 15 / 100
    else if peak ≤ entropyWeak ∧ rule.minEntropy = 0 then -15 / 100
    else 0

/-- `_score`: confidence for a group of evidence. -/
def score (rule : Rule) (items : List Evidence) : ℚ :=
  let confidence := rule.confidence + entropyStep rule items
    + (if 1 < items.length then 5 / 100 else 0)
    + (if items.any fun e => e.encoding == some "utf-16le" then 5 / 100 else 0)
  roundTo3 (min (max confidence (5 / 100)) (99 / 100))

/-! ## Suppressions -/

/-- `_index_suppressions`. -/
def indexSuppressions (suppressions : List Suppression) :
    List (Group (String × String) Suppression) :=
  groupBy (fun s => (s.ruleId, s.valueHash)) suppressions

/-- `_is_suppressed`. -/
def isSuppressed (index : List (Group (String × String) Suppression)) (ruleId valueHash path : String) :
    Bool :=
  match index.find? fun g => decide (g.key = (ruleId, valueHash)) with
  | none => false
  | some g => g.items.any fun s => s.pathPattern == "*" || fnmatch path s.pathPattern

/-! ## One group, one finding -/

section Groups

variable (runId : String) (artifactPaths : Dict String String)

/-- `artifact_paths.get(artifact_id, "")`. -/
def pathOf (artifactId : String) : String := (artifactPaths.get? artifactId).getD ""

/-- The path of the group's first item, which its id is anchored at. -/
def anchorPath (g : EvidenceGroup) : String := pathOf artifactPaths g.first.artifactId

/-- The id of the finding a group becomes. -/
def groupId (g : EvidenceGroup) : String :=
  Finding.computeId g.key.1 g.key.2 (anchorPath artifactPaths g) g.first.offset

/-- The finding a group becomes. -/
def plainFinding (rule : Rule) (g : EvidenceGroup) : Finding where
  id := groupId artifactPaths g
  runId := runId
  ruleId := g.key.1
  category := rule.category
  title := rule.name
  severity := rule.severity
  confidence := score rule g.items
  valueMasked := g.first.valueMasked
  valueHash := g.key.2
  entropy := g.first.entropy
  contextSnippet := g.first.contextSnippet
  cwe := rule.cwe
  tags := rule.tags
  remediationMd := some rule.remediation

@[simp] theorem plainFinding_id (rule : Rule) (g : EvidenceGroup) :
    (plainFinding runId artifactPaths rule g).id = groupId artifactPaths g := rfl

/-- The places of a group, each artifact and offset once. -/
def groupLocations (g : EvidenceGroup) : List FindingLocation :=
  (keepFirst (fun e => (e.artifactId, e.offset)) g.items).map fun e =>
    { findingId := groupId artifactPaths g
      runId := runId
      artifactId := e.artifactId
      pathInTree := pathOf artifactPaths e.artifactId
      offset := e.offset
      «section» := e.section
      encoding := e.encoding }

/-- One turn of the loop over the groups; a group whose rule the pack no longer enables is
skipped. -/
def addGroup (rulesById : Dict String Rule) (index : List (Group (String × String) Suppression))
    (result : CorrelationResult) (g : EvidenceGroup) : CorrelationResult :=
  match rulesById.get? g.key.1 with
  | none => result
  | some rule =>
    if isSuppressed index g.key.1 g.key.2 (anchorPath artifactPaths g) then
      { result with suppressed := result.suppressed + 1 }
    else
      { result with
        findings := result.findings ++ [plainFinding runId artifactPaths rule g]
        locations := result.locations ++ groupLocations runId artifactPaths g }

end Groups

/-! ## Clusters -/

/-- `CLUSTER_THRESHOLD`: a rule with more findings than this describes the build, not so many
secrets. -/
def clusterThreshold : ℕ := 20

/-- What a cluster's hash is taken of. -/
def clusterText (ruleId : String) (valueHashes : List String) : String :=
  "cluster:" ++ ruleId ++ ":" ++ ",".intercalate valueHashes

/-- The value hash of a cluster. -/
def clusterHash (ruleId : String) (valueHashes : List String) : String :=
  sha256 (clusterText ruleId valueHashes)

/-- `locations_by_finding[id]`. -/
def locationsUnder (locations : List FindingLocation) (id : String) : List FindingLocation :=
  locations.filter fun l => l.findingId == id

/-- The finding that stands for all findings of a rule; `anchor` is the one with the least id. -/
def clusterFinding (runId : String) (locations : List FindingLocation) (rule : Rule)
    (ruleId : String) (anchor : Finding) (ordered : List Finding) : Finding :=
  let hash := clusterHash ruleId (ordered.map Finding.valueHash)
  let anchorPath := ((locationsUnder locations anchor.id).head?.map
    FindingLocation.pathInTree).getD ""
  let samples := ", ".intercalate ((ordered.take 3).map Finding.valueMasked)
  { id := Finding.computeId ruleId hash anchorPath none
    runId := runId
    ruleId := ruleId
    category := rule.category
    title := rule.name ++ " (" ++ toString ordered.length ++ " distinct values)"
    severity := rule.severity
    confidence := (ordered.map Finding.confidence).max?.getD anchor.confidence
    valueMasked := toString ordered.length ++ " values, e.g. " ++ samples
    valueHash := hash
    entropy := anchor.entropy
    contextSnippet := anchor.contextSnippet
    cwe := rule.cwe
    tags := rule.tags ++ ["clustered"]
    remediationMd := some rule.remediation }

/-- The places of a cluster: those of its findings, each artifact and offset once. -/
def clusterLocations (locations : List FindingLocation) (clusterId : String)
    (ordered : List Finding) : List FindingLocation :=
  (keepFirst (fun l => (l.artifactId, l.offset))
    (ordered.flatMap fun f => locationsUnder locations f.id)).map
    fun l => { l with findingId := clusterId }

/-- The findings of one rule, with their locations, after clustering. -/
def clusterRule (runId : String) (rulesById : Dict String Rule) (locations : List FindingLocation)
    (ruleId : String) (findings : List Finding) : List Finding × List FindingLocation :=
  if findings.length ≤ clusterThreshold then
    (findings, findings.flatMap fun f => locationsUnder locations f.id)
  else
    match rulesById.get? ruleId, sortBy Finding.id findings with
    | some rule, anchor :: rest =>
      let cluster := clusterFinding runId locations rule ruleId anchor (anchor :: rest)
      ([cluster], clusterLocations locations cluster.id (anchor :: rest))
    -- every finding has its rule, and more than 20 findings have a first one
    | _, _ => ([], [])

/-- `_cluster_repetitive_rules`. -/
def clusterRepetitiveRules (runId : String) (rulesById : Dict String Rule)
    (result : CorrelationResult) : CorrelationResult :=
  let kept := (sortBy Group.key (groupBy Finding.ruleId result.findings)).map fun g =>
    clusterRule runId rulesById result.locations g.key g.items
  { result with
    findings := kept.flatMap Prod.fst
    locations := kept.flatMap Prod.snd }

/-! ## The correlator -/

/-- The order findings are reported in. -/
def findingSortKey (f : Finding) : ℕ ×ₗ String ×ₗ String :=
  toLex (f.severity.rank, toLex (f.ruleId, f.id))

/-- What `correlate` is given, but for the run's id. -/
structure CorrelationInput where
  evidence : List Evidence
  pack : RulePack
  artifactPaths : Dict String String
  suppressions : List Suppression := []

/-- `rules_by_id`. -/
def RulePack.rulesById (pack : RulePack) : Dict String Rule := indexBy Rule.id pack.enabledRules

/-- `correlate`: group evidence into findings. -/
def correlate (runId : String) (input : CorrelationInput) : CorrelationResult :=
  let rulesById := input.pack.rulesById
  let index := indexSuppressions input.suppressions
  let result := (evidenceGroups input.evidence).foldl
    (addGroup runId input.artifactPaths rulesById index) {}
  let result := clusterRepetitiveRules runId rulesById result
  { result with findings := sortBy findingSortKey result.findings }

end BareAnalysis
