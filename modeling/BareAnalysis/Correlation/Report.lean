import BareAnalysis.Correlation.Correlate

/-!
# Correlation/Report — what one rule reports, read off the groups

    groups ──survivors of a rule──▸ at most 20: one entry a value, at its first occurrence
                                ╲
                                 ─▸ more: the value hashes in id order, at the anchor's path

`correlate` merges and clusters in loops over all rules at once.  `report` says what comes out for
one rule, without the loops, and `mem_findings_correlate` connects the two.
-/

namespace BareAnalysis

/-- What an id is computed from. -/
structure Entry where
  ruleId : String
  valueHash : String
  path : String
  offset : ℤ
  deriving DecidableEq, Repr

namespace Entry

/-- The id of an entry. -/
def id (e : Entry) : String := Finding.computeId e.ruleId e.valueHash e.path (some e.offset)

/-- The text the id is the hash of. -/
def payload (e : Entry) : String := Finding.idPayload e.ruleId e.valueHash e.path (some e.offset)

end Entry

section Survivors

variable (input : CorrelationInput)

/-- The group is silenced by a suppression. -/
def silenced (g : EvidenceGroup) : Bool :=
  isSuppressed (indexSuppressions input.suppressions) g.key.1 g.key.2
    (anchorPath input.artifactPaths g)

/-- The groups of one enabled rule that no suppression silences, by value hash. -/
def survivors (ruleId : String) : List EvidenceGroup :=
  if (input.pack.rulesById.get? ruleId).isSome then
    (evidenceGroups input.evidence).filter fun g => g.key.1 == ruleId && !silenced input g
  else []

/-- The finding of a group, if it becomes one. -/
def plainFinding? (runId : String) (g : EvidenceGroup) : Option Finding :=
  (input.pack.rulesById.get? g.key.1).bind fun rule =>
    if silenced input g then none else some (plainFinding runId input.artifactPaths rule g)

/-- The groups that become findings, of every rule. -/
def surviving : List EvidenceGroup :=
  (evidenceGroups input.evidence).filter fun g =>
    (input.pack.rulesById.get? g.key.1).isSome && !silenced input g

/-- The groups a suppression silences. -/
def silencedCount : ℕ :=
  (evidenceGroups input.evidence).countP fun g =>
    (input.pack.rulesById.get? g.key.1).isSome && silenced input g

end Survivors

section Loop

variable (input : CorrelationInput) (runId : String)

/-- The state of `correlate` after the loop over the groups. -/
def beforeClustering : CorrelationResult :=
  (evidenceGroups input.evidence).foldl
    (addGroup runId input.artifactPaths input.pack.rulesById
      (indexSuppressions input.suppressions)) {}

/-- **The loop over the groups, without the loop.** -/
theorem foldl_addGroup (result : CorrelationResult) (gs : List EvidenceGroup) :
    gs.foldl (addGroup runId input.artifactPaths input.pack.rulesById
        (indexSuppressions input.suppressions)) result
      = { findings := result.findings ++ gs.filterMap (plainFinding? input runId)
          locations := result.locations ++ (gs.filter fun g =>
            (input.pack.rulesById.get? g.key.1).isSome && !silenced input g).flatMap
              (groupLocations runId input.artifactPaths)
          suppressed := result.suppressed + gs.countP fun g =>
            (input.pack.rulesById.get? g.key.1).isSome && silenced input g } := by
  induction gs generalizing result with
  | nil => simp
  | cons g gs ih =>
    rw [List.foldl_cons, ih, addGroup]
    cases hrule : input.pack.rulesById.get? g.key.1 with
    | none => simp [plainFinding?, hrule]
    | some rule =>
      cases hs : silenced input g with
      | false =>
        have hs' : isSuppressed (indexSuppressions input.suppressions) g.key.1 g.key.2
            (anchorPath input.artifactPaths g) = false := hs
        simp [plainFinding?, hrule, hs, hs']
      | true =>
        have hs' : isSuppressed (indexSuppressions input.suppressions) g.key.1 g.key.2
            (anchorPath input.artifactPaths g) = true := hs
        simp [plainFinding?, hrule, hs, hs', Nat.add_assoc, Nat.add_comm 1]

theorem beforeClustering_eq :
    beforeClustering input runId
      = { findings := (evidenceGroups input.evidence).filterMap (plainFinding? input runId)
          locations := (surviving input).flatMap (groupLocations runId input.artifactPaths)
          suppressed := silencedCount input } := by
  rw [beforeClustering, foldl_addGroup]
  simp [surviving, silencedCount]

theorem plainFinding?_ruleId {g : EvidenceGroup} {f : Finding}
    (h : plainFinding? input runId g = some f) : f.ruleId = g.key.1 := by
  obtain ⟨rule, -, hf⟩ := Option.bind_eq_some_iff.mp h
  split at hf
  · cases hf
  · rw [← Option.some.inj hf]
    rfl

/-- **The findings of one rule before clustering are its survivors'.** -/
theorem filter_findings {rule : Rule} {ruleId : String}
    (hrule : input.pack.rulesById.get? ruleId = some rule) :
    (beforeClustering input runId).findings.filter (fun f => f.ruleId = ruleId)
      = (survivors input ruleId).map (plainFinding runId input.artifactPaths rule) := by
  rw [beforeClustering_eq, survivors, hrule, Option.isSome_some, if_pos rfl]
  induction evidenceGroups input.evidence with
  | nil => rfl
  | cons g gs ih =>
    by_cases hg : g.key.1 = ruleId
    · cases hs : silenced input g with
      | false =>
        have hf : plainFinding? input runId g
            = some (plainFinding runId input.artifactPaths rule g) := by
          simp [plainFinding?, hg, hrule, hs]
        have hpos : decide ((plainFinding runId input.artifactPaths rule g).ruleId = ruleId)
          = true := decide_eq_true hg
        have hkept : (g.key.1 == ruleId && !silenced input g) = true := by simp [hg, hs]
        simp only [List.filterMap_cons_some hf, List.filter_cons, hpos, hkept, if_true,
          List.map_cons] at ih ⊢
        rw [ih]
      | true =>
        have hf : plainFinding? input runId g = none := by simp [plainFinding?, hg, hrule, hs]
        rw [List.filterMap_cons_none hf, List.filter_cons_of_neg (by simp [hs]), ih]
    · rw [List.filter_cons_of_neg (by simp [hg]), ← ih]
      cases hf : plainFinding? input runId g with
      | none => rw [List.filterMap_cons_none hf]
      | some f =>
        rw [List.filterMap_cons_some hf, List.filter_cons_of_neg]
        rw [decide_eq_true_iff, plainFinding?_ruleId input runId hf]
        exact hg

/-- A rule the pack does not enable has no findings. -/
theorem filter_findings_of_none {ruleId : String}
    (hrule : input.pack.rulesById.get? ruleId = none) :
    (beforeClustering input runId).findings.filter (fun f => f.ruleId = ruleId) = [] := by
  rw [beforeClustering_eq, List.filter_eq_nil_iff]
  intro f hf
  obtain ⟨g, -, hg⟩ := List.mem_filterMap.mp hf
  obtain ⟨rule, hr, -⟩ := Option.bind_eq_some_iff.mp hg
  rw [decide_eq_true_iff, plainFinding?_ruleId input runId hg]
  rintro rfl
  rw [hrule] at hr
  cases hr

end Loop

/-! ## The locations under an id -/

section Locations

variable (runId : String) (paths : Dict String String)

theorem findingId_of_mem_groupLocations {g : EvidenceGroup} {l : FindingLocation}
    (hl : l ∈ groupLocations runId paths g) : l.findingId = groupId paths g := by
  obtain ⟨e, -, rfl⟩ := List.mem_map.mp hl
  rfl

/-- A group has a location, and the first one lies at its anchor. -/
theorem head?_groupLocations (g : EvidenceGroup) :
    (groupLocations runId paths g).head?.map FindingLocation.pathInTree
      = some (anchorPath paths g) := by
  rw [groupLocations, List.head?_map, head?_keepFirst]
  rfl

/-- **The first location under an id is the anchor of the first group with it.** -/
theorem head?_locationsUnder (id : String) (gs : List EvidenceGroup) :
    (locationsUnder (gs.flatMap (groupLocations runId paths)) id).head?.map
        FindingLocation.pathInTree
      = (gs.find? fun g => groupId paths g == id).map (anchorPath paths) := by
  induction gs with
  | nil => rfl
  | cons g gs ih =>
    rw [List.flatMap_cons, locationsUnder, List.filter_append, List.head?_append]
    by_cases hg : groupId paths g = id
    · have hall : (groupLocations runId paths g).filter (fun l => l.findingId == id)
          = groupLocations runId paths g := List.filter_eq_self.mpr fun l hl => by
        rw [findingId_of_mem_groupLocations runId paths hl, hg, beq_self_eq_true]
      have hhead := head?_groupLocations runId paths g
      rw [hall, List.find?_cons_of_pos (by simpa using hg), Option.map_some, ← hhead]
      cases h : (groupLocations runId paths g).head? with
      | none => rw [h] at hhead; cases hhead
      | some l => rfl
    · have hnone : (groupLocations runId paths g).filter (fun l => l.findingId == id) = [] :=
        List.filter_eq_nil_iff.mpr fun l hl => by
          rw [findingId_of_mem_groupLocations runId paths hl]
          simpa using hg
      rw [hnone, List.find?_cons_of_neg (by simpa using hg), ← ih]
      rfl

end Locations

/-! ## The report of one rule -/

/-- What a rule reports: one entry a value, or one cluster of them all. -/
inductive Report
  | values (entries : List Entry)
  | cluster (valueHashes : List String) (anchorPath : String)
  deriving DecidableEq, Repr

/-- What the ids of a report are computed from. -/
def Report.entries (ruleId : String) : Report → List Entry
  | .values es => es
  | .cluster hashes path => [⟨ruleId, clusterHash ruleId hashes, path, 0⟩]

section Spec

variable (input : CorrelationInput)

/-- What the id of a group's finding is computed from: its value, at its first occurrence. -/
def entryOf (g : EvidenceGroup) : Entry :=
  ⟨g.key.1, g.key.2, anchorPath input.artifactPaths g, g.first.offset.getD 0⟩

theorem id_entryOf (g : EvidenceGroup) :
    (entryOf input g).id = groupId input.artifactPaths g := rfl

/-- The survivors of a rule in the order of their ids. -/
def clusterOrder (ruleId : String) : List EvidenceGroup :=
  sortBy (groupId input.artifactPaths) (survivors input ruleId)

/-- The anchor of the first group with this id: another one than the group's own only where two
ids collide. -/
def anchorPathUnder (id : String) : String :=
  (((surviving input).find? fun g => groupId input.artifactPaths g == id).map
    (anchorPath input.artifactPaths)).getD ""

/-- **What one rule reports.** -/
def report (ruleId : String) : Report :=
  if (survivors input ruleId).length ≤ clusterThreshold then
    .values ((survivors input ruleId).map (entryOf input))
  else
    .cluster ((clusterOrder input ruleId).map fun g => g.key.2)
      (((clusterOrder input ruleId).head?.map fun g =>
        anchorPathUnder input (groupId input.artifactPaths g)).getD "")

end Spec

section Reported

variable (input : CorrelationInput) (runId : String)

/-- The findings of one rule after clustering. -/
def reportedFindings (ruleId : String) : List Finding :=
  (clusterRule runId input.pack.rulesById (beforeClustering input runId).locations ruleId
    ((beforeClustering input runId).findings.filter fun f => f.ruleId = ruleId)).1

variable {input runId} {ruleId : String} {rule : Rule}

theorem reportedFindings_of_none (hrule : input.pack.rulesById.get? ruleId = none) :
    reportedFindings input runId ruleId = [] := by
  rw [reportedFindings, filter_findings_of_none input runId hrule]
  rfl

theorem survivors_of_none (hrule : input.pack.rulesById.get? ruleId = none) :
    survivors input ruleId = [] := by
  rw [survivors, hrule]
  rfl

/-- Up to 20 values: one finding each. -/
theorem reportedFindings_of_le (hrule : input.pack.rulesById.get? ruleId = some rule)
    (hn : (survivors input ruleId).length ≤ clusterThreshold) :
    reportedFindings input runId ruleId
      = (survivors input ruleId).map (plainFinding runId input.artifactPaths rule) := by
  rw [reportedFindings, filter_findings input runId hrule, clusterRule,
    if_pos (by simpa using hn)]

/-- The findings of a rule sort by id as its survivors do. -/
theorem sortBy_plainFinding (input : CorrelationInput) (runId ruleId : String) (rule : Rule) :
    sortBy Finding.id ((survivors input ruleId).map (plainFinding runId input.artifactPaths rule))
      = (clusterOrder input ruleId).map (plainFinding runId input.artifactPaths rule) :=
  (map_sortBy (groupId input.artifactPaths) Finding.id
    (plainFinding runId input.artifactPaths rule) _ fun _ _ _ _ => Iff.rfl).symm

variable (runId) in
/-- More: one cluster with all their places, anchored at the least id. -/
theorem clusterRule_of_lt (hrule : input.pack.rulesById.get? ruleId = some rule)
    (hn : clusterThreshold < (survivors input ruleId).length) :
    ∃ anchor rest cluster, clusterOrder input ruleId = anchor :: rest ∧
      cluster = clusterFinding runId (beforeClustering input runId).locations rule ruleId
        (plainFinding runId input.artifactPaths rule anchor)
        ((anchor :: rest).map (plainFinding runId input.artifactPaths rule)) ∧
      clusterRule runId input.pack.rulesById (beforeClustering input runId).locations ruleId
          ((beforeClustering input runId).findings.filter fun f => f.ruleId = ruleId)
        = ([cluster], clusterLocations (beforeClustering input runId).locations cluster.id
            ((anchor :: rest).map (plainFinding runId input.artifactPaths rule))) := by
  cases hord : clusterOrder input ruleId with
  | nil =>
    have hlen := congrArg List.length hord
    rw [clusterOrder, length_sortBy] at hlen
    rw [hlen] at hn
    cases hn
  | cons anchor rest =>
    refine ⟨anchor, rest, _, rfl, rfl, ?_⟩
    rw [filter_findings input runId hrule, clusterRule, if_neg (by simpa using hn), hrule,
      sortBy_plainFinding, hord]
    rfl

variable (runId) in
theorem reportedFindings_of_lt (hrule : input.pack.rulesById.get? ruleId = some rule)
    (hn : clusterThreshold < (survivors input ruleId).length) :
    ∃ anchor rest, clusterOrder input ruleId = anchor :: rest ∧
      reportedFindings input runId ruleId
        = [clusterFinding runId (beforeClustering input runId).locations rule ruleId
            (plainFinding runId input.artifactPaths rule anchor)
            ((anchor :: rest).map (plainFinding runId input.artifactPaths rule))] := by
  obtain ⟨anchor, rest, cluster, hord, rfl, heq⟩ := clusterRule_of_lt runId hrule hn
  exact ⟨anchor, rest, hord, congrArg Prod.fst heq⟩

variable (input runId) in
/-- The anchor path of a cluster. -/
theorem anchorPathUnder_eq (id : String) :
    ((locationsUnder (beforeClustering input runId).locations id).head?.map
      FindingLocation.pathInTree).getD "" = anchorPathUnder input id := by
  rw [beforeClustering_eq, head?_locationsUnder]
  rfl

/-- **The ids and values one rule reports are those of its report's entries.** -/
theorem entries_reportedFindings (input : CorrelationInput) (runId ruleId : String) :
    (reportedFindings input runId ruleId).map (fun f => (f.id, f.valueHash))
      = ((report input ruleId).entries ruleId).map fun e => (e.id, e.valueHash) := by
  cases hrule : input.pack.rulesById.get? ruleId with
  | none =>
    rw [reportedFindings_of_none hrule, report, survivors_of_none hrule]
    rfl
  | some rule =>
    by_cases hn : (survivors input ruleId).length ≤ clusterThreshold
    · rw [reportedFindings_of_le hrule hn, report, if_pos hn, Report.entries, List.map_map,
        List.map_map]
      rfl
    · obtain ⟨anchor, rest, hord, heq⟩ :=
        reportedFindings_of_lt runId hrule (not_le.mp hn)
      rw [heq, report, if_neg hn, hord, Report.entries, List.map_singleton, List.map_singleton]
      have hhash : ((anchor :: rest).map (plainFinding runId input.artifactPaths rule)).map
          Finding.valueHash = (anchor :: rest).map fun g => g.key.2 := by
        rw [List.map_map]; rfl
      have hpath : ((locationsUnder (beforeClustering input runId).locations
          (groupId input.artifactPaths anchor)).head?.map FindingLocation.pathInTree).getD ""
          = anchorPathUnder input (groupId input.artifactPaths anchor) := anchorPathUnder_eq _ _ _
      simp only [clusterFinding, hhash, Entry.id, Finding.computeId, Finding.idPayload]
      rw [plainFinding_id, hpath]
      rfl

theorem ruleId_of_mem_reportedFindings {f : Finding}
    (hf : f ∈ reportedFindings input runId ruleId) : f.ruleId = ruleId := by
  cases hrule : input.pack.rulesById.get? ruleId with
  | none => rw [reportedFindings_of_none hrule] at hf; cases hf
  | some rule =>
    by_cases hn : (survivors input ruleId).length ≤ clusterThreshold
    · rw [reportedFindings_of_le hrule hn] at hf
      obtain ⟨g, hg, rfl⟩ := List.mem_map.mp hf
      rw [survivors, hrule, Option.isSome_some, if_pos rfl] at hg
      have := (List.mem_filter.mp hg).2
      simp only [Bool.and_eq_true, beq_iff_eq] at this
      exact this.1
    · obtain ⟨anchor, rest, -, heq⟩ :=
        reportedFindings_of_lt runId hrule (not_le.mp hn)
      rw [heq] at hf
      rw [List.mem_singleton.mp hf]
      rfl

end Reported

/-! ## All rules together -/

section Whole

variable (input : CorrelationInput) (runId : String)

/-- The rules with findings, sorted. -/
def reportedRules : List String :=
  (sortBy Group.key (groupBy Finding.ruleId (beforeClustering input runId).findings)).map Group.key

/-- **`correlate`, rule by rule.** -/
theorem findings_correlate :
    (correlate runId input).findings
      = sortBy findingSortKey ((reportedRules input runId).flatMap
          (reportedFindings input runId)) := by
  have hgroups : ∀ g ∈ sortBy Group.key (groupBy Finding.ruleId
      (beforeClustering input runId).findings),
      (clusterRule runId input.pack.rulesById (beforeClustering input runId).locations g.key
        g.items).1 = reportedFindings input runId g.key := fun g hg => by
    rw [reportedFindings, items_of_mem_groupBy (mem_sortBy.mp hg)]
  change sortBy findingSortKey (List.flatMap Prod.fst (List.map _ _)) = _
  rw [List.flatMap_map, reportedRules, List.flatMap_map]
  exact congrArg _ (List.flatMap_congr fun g hg => hgroups g hg)

theorem mem_reportedRules {ruleId : String} :
    ruleId ∈ reportedRules input runId ↔ survivors input ruleId ≠ [] := by
  have hmem : ruleId ∈ reportedRules input runId ↔
      (beforeClustering input runId).findings.filter (fun f => f.ruleId = ruleId) ≠ [] := by
    rw [reportedRules, (((sortBy_perm _ _).map Group.key).mem_iff), mem_keys_groupBy, ne_eq,
      List.filter_eq_nil_iff]
    push Not
    simp
  rw [hmem]
  cases hrule : input.pack.rulesById.get? ruleId with
  | none => rw [filter_findings_of_none input runId hrule, survivors_of_none hrule]; simp
  | some rule => rw [filter_findings input runId hrule, ne_eq, List.map_eq_nil_iff]

/-- A rule without findings reports none. -/
theorem reportedFindings_of_not_mem {ruleId : String} (h : ruleId ∉ reportedRules input runId) :
    reportedFindings input runId ruleId = [] := by
  rw [mem_reportedRules, not_not] at h
  cases hrule : input.pack.rulesById.get? ruleId with
  | none => exact reportedFindings_of_none hrule
  | some rule => rw [reportedFindings_of_le hrule (by rw [h]; exact Nat.zero_le _), h]; rfl

/-- **A finding is reported exactly by its rule.** -/
theorem mem_findings_correlate {f : Finding} :
    f ∈ (correlate runId input).findings ↔ f ∈ reportedFindings input runId f.ruleId := by
  rw [findings_correlate, mem_sortBy, List.mem_flatMap]
  constructor
  · rintro ⟨ruleId, -, hf⟩
    rwa [ruleId_of_mem_reportedFindings hf]
  · intro hf
    by_cases hr : f.ruleId ∈ reportedRules input runId
    · exact ⟨_, hr, hf⟩
    · rw [reportedFindings_of_not_mem input runId hr] at hf
      cases hf

end Whole

end BareAnalysis
