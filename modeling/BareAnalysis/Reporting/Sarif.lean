import BareAnalysis.Policy.Wire

/-!
# Reporting/Sarif — SARIF 2.1.0 export

    findings ──sorted──▸ ordered ──grouped by rule, rules sorted──▸ descriptors
                            └──▸ results, each with the index of its rule's descriptor

`reporting/sarif.py`.  `sarifConsistent_buildSarif` says what a code-scanning service relies on.
-/

namespace BareAnalysis.Sarif

/-- `_LEVEL_BY_SEVERITY`. -/
def levelBySeverity : Severity → String
  | .critical | .high => "error"
  | .medium => "warning"
  | .low | .info => "note"

/-- `_SECURITY_SEVERITY`. -/
def securitySeverity : Severity → String
  | .critical => "9.5"
  | .high => "7.5"
  | .medium => "5.0"
  | .low => "3.0"
  | .info => "1.0"

/-- `SarifFinding`. -/
structure SarifFinding where
  id : String
  ruleId : String
  title : String
  severity : Severity
  valueMasked : String
  artifactPath : String
  offset : Option ℤ := none
  category : String := ""
  cwe : Option String := none
  remediationMd : Option String := none
  isNew : Bool := true
  status : String := "open"
  blockedRelease : Bool := false
  deriving DecidableEq

section Document

-- `text.lower()`
variable (lower : String → String)

/-- `min(…, key=lambda s: s.rank)`: the first of the least ranks. -/
def worst (g : Group String SarifFinding) : Severity :=
  (g.rest.map (·.severity)).foldl (fun w s => if s.rank < w.rank then s else w) g.first.severity

/-- `_rule_descriptor`. -/
def ruleDescriptor (g : Group String SarifFinding) : Json :=
  let sample := g.first
  let helpText := (sample.remediationMd.filter (· ≠ "")).getD
    "Remove the value from the shipped artifact and rotate it if it is live."
  let cweTags := match sample.cwe.filter (· ≠ "") with
    | some cwe => [Json.str ("external/cwe/" ++ lower cwe)]
    | none => []
  .obj [
    ("id", .str g.key),
    ("name", .str g.key),
    ("shortDescription", .obj [("text", .str sample.title)]),
    ("fullDescription", .obj [("text", .str ("BARE rule " ++ g.key
      ++ " matched in a shipped artifact."))]),
    ("help", .obj [("text", .str helpText), ("markdown", .str helpText)]),
    ("defaultConfiguration", .obj [("level", .str (levelBySeverity (worst g)))]),
    ("properties", .obj [
      ("tags", .arr ((["security", sample.category].filter (· ≠ "")).map Json.str ++ cweTags)),
      ("security-severity", .str (securitySeverity (worst g))),
      ("bare-severity", .str (worst g).value)])]

/-- `_result`. -/
def result (f : SarifFinding) (ruleIndex : ℕ) : Json :=
  let region := match f.offset with
    | some offset => [("region", Json.obj [("byteOffset", .int offset),
        ("byteLength", .int (max f.valueMasked.length 1))])]
    | none => []
  let message := f.title ++ ": " ++ f.valueMasked
    ++ (if f.isNew then " (introduced by this build)" else "")
  .obj [
    ("ruleId", .str f.ruleId),
    ("ruleIndex", .int ruleIndex),
    ("level", .str (levelBySeverity f.severity)),
    ("message", .obj [("text", .str message)]),
    ("locations", .arr [.obj [("physicalLocation", .obj
      (("artifactLocation", .obj [("uri", .str (if f.artifactPath = "" then "unknown"
        else f.artifactPath))]) :: region))]]),
    ("partialFingerprints", .obj [("bareFindingId", .str f.id)]),
    ("properties", .obj [
      ("severity", .str f.severity.value),
      ("category", .str f.category),
      ("status", .str f.status),
      ("isNew", .bool f.isNew),
      ("blocksRelease", .bool f.blockedRelease)])]

/-- The findings in the order of the results. -/
def ordered (findings : List SarifFinding) : List SarifFinding :=
  sortBy (fun f => toLex (f.severity.rank, toLex (f.ruleId, f.id))) findings

/-- The findings by rule, in the order of the rules. -/
def byRule (findings : List SarifFinding) : List (Group String SarifFinding) :=
  sortBy Group.key (groupBy (·.ruleId) (ordered findings))

/-- `rule_index[rule_id]`. -/
def ruleIndex (findings : List SarifFinding) (ruleId : String) : ℕ :=
  ((byRule findings).map Group.key).idxOf ruleId

/-- What the gate said, for the properties of the run. -/
def gateProperties (verdict : GateVerdict) : Json :=
  .obj [
    ("decision", .str verdict.decision.value),
    ("policy", .str verdict.policyName),
    ("violations", .int verdict.violations.length),
    ("waived", .int verdict.waived.length),
    ("inherited", .int verdict.inherited.length),
    ("degradedStages", .arr (verdict.degradedStages.map Json.str))]

/-- What the document says of the run. -/
structure SarifRun where
  toolVersion : String
  verdict : Option GateVerdict := none
  artifactName : String := ""
  runId : String := ""
  informationUri : String := "https://github.com/bare/bare"

/-- `build_sarif`. -/
def buildSarif (findings : List SarifFinding) (run : SarifRun) : Json :=
  let artifact := if run.artifactName = "" then []
    else [("artifact", Json.str run.artifactName)]
  let gate := match run.verdict with
    | some verdict => [("gate", gateProperties verdict)]
    | none => []
  .obj [
    ("$schema", .str "https://json.schemastore.org/sarif-2.1.0.json"),
    ("version", .str "2.1.0"),
    ("runs", .arr [.obj [
      ("tool", .obj [("driver", .obj [
        ("name", .str "BARE"),
        ("version", .str run.toolVersion),
        ("informationUri", .str run.informationUri),
        ("rules", .arr ((byRule findings).map (ruleDescriptor lower)))])]),
      ("results", .arr ((ordered findings).map fun f => result f (ruleIndex findings f.ruleId))),
      ("properties", .obj (("bareRunId", .str run.runId) :: artifact ++ gate))]])]

end Document

/-! ## What a document says -/

/-- What stands under a path of keys. -/
def at? (v : Json) : List String → Option Json
  | [] => some v
  | key :: keys =>
    match v with
    | .obj fields => (Dict.get? fields key).bind fun w => at? w keys
    | _ => none

/-- The runs of a document. -/
def runsOf (document : Json) : List Json :=
  match at? document ["runs"] with
  | some (.arr runs) => runs
  | _ => []

/-- The descriptors of a run… -/
def rulesOf (run : Json) : List Json :=
  match at? run ["tool", "driver", "rules"] with
  | some (.arr rules) => rules
  | _ => []

/-- …and its results. -/
def resultsOf (run : Json) : List Json :=
  match at? run ["results"] with
  | some (.arr results) => results
  | _ => []

/-- How serious a level is. -/
def levelRank (level : String) : ℕ :=
  if level = "error" then 2 else if level = "warning" then 1 else 0

/-- A descriptor is that of a rule, of which these are the findings. -/
structure Describes (findings : List SarifFinding) (ruleId : String) (descriptor : Json) : Prop where
  id : at? descriptor ["id"] = some (.str ruleId)
  worst : ∃ f ∈ findings, f.ruleId = ruleId ∧
    (∀ g ∈ findings, g.ruleId = ruleId → f.severity.rank ≤ g.severity.rank) ∧
    at? descriptor ["defaultConfiguration", "level"] = some (.str (levelBySeverity f.severity)) ∧
    at? descriptor ["properties", "security-severity"] = some (.str (securitySeverity f.severity))

/-- A result is that of a finding, and points at the descriptor of its rule. -/
structure Reports (rules : List Json) (f : SarifFinding) (result : Json) : Prop where
  finding : at? result ["partialFingerprints", "bareFindingId"] = some (.str f.id)
  ruleId : at? result ["ruleId"] = some (.str f.ruleId)
  index : ∃ i : ℕ, at? result ["ruleIndex"] = some (.int i) ∧ ∃ descriptor, rules[i]? = some descriptor ∧
    at? descriptor ["id"] = some (.str f.ruleId) ∧
    ∃ level level', at? result ["level"] = some (.str level) ∧
      at? descriptor ["defaultConfiguration", "level"] = some (.str level') ∧
      levelRank level ≤ levelRank level'

/-- **What a code-scanning service relies on.** -/
structure SarifConsistent (lower : String → String) (findings : List SarifFinding) (run : SarifRun) :
    Prop where
  document : ∃ sarifRun, runsOf (buildSarif lower findings run) = [sarifRun] ∧
    (∃ listed, listed.Perm findings ∧
      List.Forall₂ (Reports (rulesOf sarifRun)) listed (resultsOf sarifRun)) ∧
    (∃ ruleIds : List String, ruleIds.Nodup ∧ (∀ ruleId, ruleId ∈ ruleIds ↔
        ∃ f ∈ findings, f.ruleId = ruleId) ∧
      List.Forall₂ (Describes findings) ruleIds (rulesOf sarifRun))
  orderFree : ∀ findings', findings'.Perm findings →
    buildSarif lower findings' run = buildSarif lower findings run

/-! ## It is consistent -/

section Proofs

variable {lower : String → String} {findings findings' : List SarifFinding} {run : SarifRun}
  {g : Group String SarifFinding}

theorem levelRank_mono {s s' : Severity} (h : s.rank ≤ s'.rank) :
    levelRank (levelBySeverity s') ≤ levelRank (levelBySeverity s) := by
  cases s <;> cases s' <;> revert h <;> decide

/-- **Findings with ids of their own are ordered whatever order they come in.** -/
theorem ordered_perm (hnodup : (findings.map (·.id)).Nodup) (h : findings'.Perm findings) :
    ordered findings' = ordered findings := by
  refine sortBy_eq_of_perm h fun f hf f' hf' hkey => ?_
  have hid : f.id = f'.id :=
    congrArg (fun k => (ofLex (ofLex k).2).2) hkey
  exact List.inj_on_of_nodup_map hnodup (h.mem_iff.mp hf) (h.mem_iff.mp hf') hid

theorem mem_byRule : g ∈ byRule findings ↔ g ∈ groupBy (·.ruleId) (ordered findings) := mem_sortBy

/-- The findings of a group. -/
theorem mem_items {f : SarifFinding} (hg : g ∈ byRule findings) :
    f ∈ g.items ↔ f ∈ findings ∧ f.ruleId = g.key := by
  rw [items_of_mem_groupBy (mem_byRule.mp hg), List.mem_filter, decide_eq_true_eq, ordered,
    mem_sortBy]

theorem nodup_keys_byRule : ((byRule findings).map Group.key).Nodup :=
  ((sortBy_perm Group.key _).map Group.key).nodup_iff.mpr (nodup_keys_groupBy _ _)

theorem mem_keys_byRule {ruleId : String} :
    ruleId ∈ (byRule findings).map Group.key ↔ ∃ f ∈ findings, f.ruleId = ruleId := by
  rw [byRule, ((sortBy_perm Group.key _).map Group.key).mem_iff, mem_keys_groupBy]
  exact exists_congr fun f => and_congr_left' mem_sortBy

theorem foldl_least (s : Severity) (l : List Severity) :
    l.foldl (fun w s => if s.rank < w.rank then s else w) s ∈ s :: l ∧
      ∀ x ∈ s :: l, (l.foldl (fun w s => if s.rank < w.rank then s else w) s).rank ≤ x.rank := by
  induction l generalizing s with
  | nil => simp
  | cons t l ih =>
    rw [List.foldl_cons]
    obtain ⟨hmem, hleast⟩ := ih (if t.rank < s.rank then t else s)
    have hstart : (if t.rank < s.rank then t else s) ∈ [s, t] ∧
        (if t.rank < s.rank then t else s).rank ≤ s.rank ∧
        (if t.rank < s.rank then t else s).rank ≤ t.rank := by
      split
      · exact ⟨by simp, by omega, le_rfl⟩
      · exact ⟨by simp, le_rfl, by omega⟩
    obtain ⟨hpick, hs, ht⟩ := hstart
    constructor
    · obtain hmem | hmem := List.mem_cons.mp hmem
      · rw [hmem]
        exact List.mem_append_left l hpick
      · exact List.mem_cons_of_mem _ (List.mem_cons_of_mem _ hmem)
    · have hfirst := hleast _ List.mem_cons_self
      intro x hx
      obtain rfl | hx := List.mem_cons.mp hx
      · exact hfirst.trans hs
      · obtain rfl | hx := List.mem_cons.mp hx
        · exact hfirst.trans ht
        · exact hleast x (List.mem_cons_of_mem _ hx)

/-- The least rank of a group is that of one of its findings, and of none is it less. -/
theorem worst_spec (g : Group String SarifFinding) :
    (∃ f ∈ g.items, f.severity = worst g) ∧ ∀ f ∈ g.items, (worst g).rank ≤ f.severity.rank := by
  obtain ⟨hmem, hleast⟩ := foldl_least g.first.severity (g.rest.map (·.severity))
  rw [← List.map_cons (f := fun f : SarifFinding => f.severity)] at hmem hleast
  exact ⟨List.mem_map.mp hmem, fun f hf => hleast _ (List.mem_map_of_mem hf)⟩

theorem describes_ruleDescriptor (hg : g ∈ byRule findings) :
    Describes findings g.key (ruleDescriptor lower g) := by
  obtain ⟨⟨f, hf, hworst⟩, hleast⟩ := worst_spec g
  obtain ⟨hmem, hrule⟩ := (mem_items hg).mp hf
  refine ⟨rfl, f, hmem, hrule, fun f' hf' hrule' => ?_, ?_, ?_⟩
  · rw [hworst]
    exact hleast f' ((mem_items hg).mpr ⟨hf', hrule'⟩)
  · rw [hworst]
    rfl
  · rw [hworst]
    rfl

/-- The index of a rule is where its descriptor stands. -/
theorem exists_group_at {f : SarifFinding} (hf : f ∈ findings) :
    ∃ g ∈ byRule findings, g.key = f.ruleId ∧
      (byRule findings)[ruleIndex findings f.ruleId]? = some g := by
  have hmem : f.ruleId ∈ (byRule findings).map Group.key := mem_keys_byRule.mpr ⟨f, hf, rfl⟩
  have hlt : ruleIndex findings f.ruleId < (byRule findings).length := by
    have hidx := List.idxOf_lt_length_of_mem hmem
    rw [List.length_map] at hidx
    exact hidx
  refine ⟨(byRule findings)[ruleIndex findings f.ruleId], List.getElem_mem hlt, ?_,
    List.getElem?_eq_getElem hlt⟩
  rw [← List.getElem_map Group.key]
  exact List.getElem_idxOf (List.idxOf_lt_length_of_mem hmem)

theorem reports_result {f : SarifFinding} (hf : f ∈ findings) :
    Reports ((byRule findings).map (ruleDescriptor lower)) f
      (result f (ruleIndex findings f.ruleId)) := by
  obtain ⟨g, hg, hkey, hat⟩ := exists_group_at hf
  have hitem : f ∈ g.items := (mem_items hg).mpr ⟨hf, hkey.symm⟩
  refine ⟨rfl, rfl, _, rfl, ruleDescriptor lower g, ?_, ?_, _, _, rfl, rfl, ?_⟩
  · rw [List.getElem?_map, hat]
    rfl
  · rw [← hkey]
    rfl
  · exact levelRank_mono ((worst_spec g).2 f hitem)

/-- **The document is consistent**, if no two findings have the same id. -/
theorem sarifConsistent_buildSarif (lower : String → String) (findings : List SarifFinding)
    (run : SarifRun) (hnodup : (findings.map (·.id)).Nodup) :
    SarifConsistent lower findings run where
  document := by
    refine ⟨_, rfl, ⟨ordered findings, sortBy_perm _ _, ?_⟩,
      ⟨(byRule findings).map Group.key, nodup_keys_byRule, fun _ => mem_keys_byRule, ?_⟩⟩
    · refine List.forall₂_map_right_iff.mpr (List.forall₂_same.mpr fun f hf => ?_)
      exact reports_result (mem_sortBy.mp hf)
    · refine List.forall₂_map_left_iff.mpr (List.forall₂_map_right_iff.mpr ?_)
      exact List.forall₂_same.mpr fun g hg => describes_ruleDescriptor hg
  orderFree findings' h := by
    rw [buildSarif, buildSarif]
    simp only [byRule, ruleIndex, ordered_perm hnodup h]

theorem sarifConsistent_two :
    SarifConsistent id
      [⟨"2", "aws-key", "AWS key", .critical, "AKIA••••", "app.bin", some 16, "", none, none, true,
          "open", true⟩,
        ⟨"1", "pdb-path", "PDB path", .medium, "C:•••", "app.bin", none, "", none, none, true, "open",
          false⟩] ⟨"1.0", none, "", "", ""⟩ :=
  sarifConsistent_buildSarif id _ _ (by decide)

end Proofs

end BareAnalysis.Sarif
