import Mathlib.Logic.Equiv.Basic
import BareAnalysis.Correlation.Newness
import BareAnalysis.Correlation.ReadOff

/-!
# Correlation/Rescan — the same artifact, scanned again

    evidence, paths ──fresh artifact ids──▸ evidence, paths
          │                                      │
      correlate                              correlate
          ▾                                      ▾
       findings          =  ?                 findings

A re-scan gives every artifact a fresh id and leaves its path alone.  The groups, their scores and
the rules they belong to do not notice; what may notice is which item of a group comes first, because
evidence is sorted by artifact id.  `sameFindings_iff_report_eq` says that this is all.
-/

namespace BareAnalysis

/-- What a re-scan is compared by. -/
def Finding.view (f : Finding) : String × String × Severity × ℚ × String :=
  (f.id, f.ruleId, f.severity, f.confidence, f.valueHash)

/-- Two scans come to the same findings, in order, suppress as many values, and the second is
nothing new to the first. -/
structure SameFindings (A B : CorrelationInput) : Prop where
  findings : ∀ runA runB, (correlate runB B).findings.map Finding.view
    = (correlate runA A).findings.map Finding.view
  suppressed : ∀ runA runB, (correlate runB B).suppressed = (correlate runA A).suppressed
  gate : IntroducesNothing A B

/-! ## Scans that group and score alike -/

/-- Two scans with the same pack whose groups have the same keys and the same scores. -/
structure GroupAlike (A B : CorrelationInput) : Prop where
  pack : B.pack = A.pack
  keys : (evidenceGroups B.evidence).map Group.key = (evidenceGroups A.evidence).map Group.key
  scores : ∀ rule, ∀ g ∈ evidenceGroups A.evidence, ∀ g' ∈ evidenceGroups B.evidence,
    g.key = g'.key → score rule g.items = score rule g'.items

section Alike

variable {A B : CorrelationInput} (h : GroupAlike A B) {runA runB ruleId : String}

/-- What a rule's survivors are told apart by. -/
theorem survivors_key_eq {g g' : EvidenceGroup} (hg : g ∈ survivors A ruleId)
    (hg' : g' ∈ survivors B ruleId) (hval : g.key.2 = g'.key.2) : g.key = g'.key :=
  Prod.ext ((mem_survivors.mp hg).2.2.1.trans (mem_survivors.mp hg').2.2.1.symm) hval

include h in
/-- Survivors with the same value score the same. -/
theorem GroupAlike.score_eq (rule : Rule) {g g' : EvidenceGroup} (hg : g ∈ survivors A ruleId)
    (hg' : g' ∈ survivors B ruleId) (hval : g.key.2 = g'.key.2) :
    score rule g.items = score rule g'.items :=
  h.scores rule g (mem_survivors.mp hg).2.1 g' (mem_survivors.mp hg').2.1
    (survivors_key_eq hg hg' hval)

include h in
/-- **One rule, the same report, the same findings.** -/
theorem GroupAlike.view_reportedFindings (hreport : report B ruleId = report A ruleId) :
    (reportedFindings B runB ruleId).map Finding.view
      = (reportedFindings A runA ruleId).map Finding.view := by
  cases hrule : A.pack.rulesById.get? ruleId with
  | none =>
    rw [reportedFindings_of_none hrule, reportedFindings_of_none (by rw [h.pack, hrule])]
  | some rule =>
    have hruleB : B.pack.rulesById.get? ruleId = some rule := by rw [h.pack, hrule]
    rcases le_or_gt (survivors A ruleId).length clusterThreshold with hn | hn
    · rw [report_of_le hn] at hreport
      have hnB : (survivors B ruleId).length ≤ clusterThreshold := by
        by_contra hlt
        obtain ⟨path, hr⟩ := report_of_lt (not_le.mp hlt)
        rw [hr] at hreport
        cases hreport
      rw [report_of_le hnB] at hreport
      rw [reportedFindings_of_le hrule hn, reportedFindings_of_le hruleB hnB, List.map_map,
        List.map_map]
      refine map_eq_map_of_map_eq (Report.values.inj hreport) fun g hg g' hg' he => ?_
      have hval : g'.key.2 = g.key.2 := (congrArg Entry.valueHash he).symm
      have hkey := survivors_key_eq hg' hg hval
      have hid : groupId B.artifactPaths g = groupId A.artifactPaths g' := by
        rw [← id_entryOf B, he, id_entryOf A]
      simp only [Function.comp, Finding.view, plainFinding, hid, hkey,
        h.score_eq rule hg' hg hval]
    · have hnB : clusterThreshold < (survivors B ruleId).length := by
        by_contra hle
        obtain ⟨path, hr⟩ := report_of_lt hn
        rw [hr, report_of_le (not_lt.mp hle)] at hreport
        cases hreport
      obtain ⟨a, restA, hordA, heqA⟩ := reportedFindings_of_lt runA hrule hn
      obtain ⟨b, restB, hordB, heqB⟩ := reportedFindings_of_lt runB hruleB hnB
      rw [report, if_neg (not_le.mpr hnB), report, if_neg (not_le.mpr hn)] at hreport
      obtain ⟨hhashes, hpath⟩ := Report.cluster.inj hreport
      -- equal hashes in id order are equal groups, hence equal scores
      have hscores : (clusterOrder B ruleId).map (fun g => score rule g.items)
          = (clusterOrder A ruleId).map fun g => score rule g.items :=
        map_eq_map_of_map_eq hhashes fun g hg g' hg' hval =>
          (h.score_eq rule (mem_clusterOrder.mp hg') (mem_clusterOrder.mp hg) hval.symm).symm
      rw [hordA, hordB] at hhashes hpath hscores
      have hfirst : score rule b.items = score rule a.items := (List.cons.inj hscores).1
      have hreads : ∀ (input : CorrelationInput) (runId : String) (gs : List EvidenceGroup),
          (gs.map (plainFinding runId input.artifactPaths rule)).map Finding.confidence
              = gs.map (fun g => score rule g.items) ∧
            (gs.map (plainFinding runId input.artifactPaths rule)).map Finding.valueHash
              = gs.map fun g => g.key.2 := fun input runId gs => by
        constructor <;> (rw [List.map_map]; rfl)
      have hanchorA := anchorPathUnder_eq A runA (groupId A.artifactPaths a)
      have hanchorB := anchorPathUnder_eq B runB (groupId B.artifactPaths b)
      have hpath : anchorPathUnder B (groupId B.artifactPaths b)
          = anchorPathUnder A (groupId A.artifactPaths a) := hpath
      rw [heqA, heqB, List.map_singleton, List.map_singleton]
      simp only [Finding.view, clusterFinding, (hreads _ _ _).1, (hreads _ _ _).2, plainFinding_id,
        hanchorA, hanchorB, hpath, hhashes, hscores]
      simp only [plainFinding, hfirst]

end Alike

/-! ## All rules -/

section Whole

variable {input : CorrelationInput} {runId ruleId : String}

/-- The rules come strictly sorted. -/
theorem pairwise_reportedRules (input : CorrelationInput) (runId : String) :
    (reportedRules input runId).Pairwise fun r r' => id r < id r' := by
  have hle := pairwise_sortBy Group.key
    (groupBy Finding.ruleId (beforeClustering input runId).findings)
  have hne := ((sortBy_perm Group.key _).map Group.key).nodup_iff.mpr
    (nodup_keys_groupBy Finding.ruleId (beforeClustering input runId).findings)
  exact List.pairwise_map.mpr
    (hle.imp₂ (fun g g' h h' => lt_of_le_of_ne h h') (List.pairwise_map.mp hne))

/-- A rule reports nothing exactly if it has no survivors. -/
theorem report_eq_nil_iff : report input ruleId = .values [] ↔ survivors input ruleId = [] := by
  rcases le_or_gt (survivors input ruleId).length clusterThreshold with hn | hn
  · rw [report_of_le hn, Report.values.injEq, List.map_eq_nil_iff]
  · obtain ⟨path, hr⟩ := report_of_lt hn
    rw [hr]
    constructor
    · intro h
      cases h
    · intro h
      rw [h] at hn
      cases hn

/-- The values a report names. -/
def Report.valueHashes : Report → List String
  | .values es => es.map Entry.valueHash
  | .cluster hashes _ => hashes

theorem mem_valueHashes_report {h : String} :
    h ∈ (report input ruleId).valueHashes ↔ ∃ g ∈ survivors input ruleId, g.key.2 = h := by
  cases hr : report input ruleId with
  | cluster hashes path => exact mem_hashes_of_report hr
  | values es =>
    rcases le_or_gt (survivors input ruleId).length clusterThreshold with hn | hn
    · rw [report_of_le hn] at hr
      rw [← Report.values.inj hr, Report.valueHashes, List.map_map, List.mem_map]
      rfl
    · obtain ⟨path, hr'⟩ := report_of_lt hn
      rw [hr] at hr'
      cases hr'

theorem suppressed_correlate (input : CorrelationInput) (runId : String) :
    (correlate runId input).suppressed = silencedCount input := by
  change (beforeClustering input runId).suppressed = _
  rw [beforeClustering_eq]

/-- **What is suppressed is what the reports leave out**: the enabled keys whose value they do not
name. -/
theorem silencedCount_eq (input : CorrelationInput) :
    silencedCount input
      = ((evidenceGroups input.evidence).map Group.key).countP fun k =>
          (input.pack.rulesById.get? k.1).isSome
            && !(report input k.1).valueHashes.contains k.2 := by
  rw [silencedCount, List.countP_map]
  refine List.countP_congr fun g hg => ?_
  cases hsome : (input.pack.rulesById.get? g.key.1).isSome with
  | false => simp [hsome]
  | true =>
    have hmem : g.key.2 ∈ (report input g.key.1).valueHashes ↔ silenced input g = false := by
      rw [mem_valueHashes_report]
      constructor
      · rintro ⟨g', hg', hval⟩
        obtain ⟨-, hgroup, hr, hsil⟩ := mem_survivors.mp hg'
        rwa [← evidenceGroup_eq hgroup hg (Prod.ext hr hval)]
      · exact fun hsil => ⟨g, mem_survivors.mpr ⟨hsome, hg, rfl, hsil⟩, rfl⟩
    cases hsil : silenced input g with
    | false => simp [hsome, hmem.mpr hsil]
    | true =>
      have hnot : g.key.2 ∉ (report input g.key.1).valueHashes := fun h => by
        rw [hmem.mp h] at hsil
        cases hsil
      simp [hsome, hnot]

end Whole

/-- The order findings are reported in, of what they are compared by. -/
def viewSortKey (v : String × String × Severity × ℚ × String) : ℕ ×ₗ String ×ₗ String :=
  toLex (v.2.2.1.rank, toLex (v.2.1, v.1))

/-- **Scans that group alike and report alike come to the same findings.** -/
theorem GroupAlike.sameFindings {A B : CorrelationInput} (h : GroupAlike A B)
    (hreport : ∀ ruleId, report B ruleId = report A ruleId) : SameFindings A B where
  findings runA runB := by
    have hrules : reportedRules B runB = reportedRules A runA :=
      eq_of_pairwise_key_lt (pairwise_reportedRules B runB) (pairwise_reportedRules A runA)
        fun r => by
          rw [mem_reportedRules, mem_reportedRules, ne_eq, ne_eq, ← report_eq_nil_iff, hreport,
            report_eq_nil_iff]
    have hsorted : ∀ fs : List Finding, (sortBy findingSortKey fs).map Finding.view
        = sortBy viewSortKey (fs.map Finding.view) := fun fs =>
      map_sortBy findingSortKey viewSortKey Finding.view fs fun _ _ _ _ => Iff.rfl
    rw [findings_correlate, findings_correlate, hsorted, hsorted, hrules, List.map_flatMap,
      List.map_flatMap]
    exact congrArg _ (List.flatMap_congr fun r _ => h.view_reportedFindings (hreport r))
  suppressed runA runB := by
    rw [suppressed_correlate, suppressed_correlate, silencedCount_eq, silencedCount_eq, h.keys,
      h.pack]
    exact List.countP_congr fun k _ => by rw [hreport]
  gate := introducesNothing_of_within fun ruleId => by
    rw [hreport]
    cases report A ruleId with
    | values es => exact List.Subset.refl _
    | cluster hashes path => exact ⟨rfl, rfl⟩

/-- **The same ids are the same reports**, between scans whose hashes stand apart. -/
theorem HashesApart.report_eq {A B : CorrelationInput} (h : HashesApart A B) {runA runB : String}
    (hids : findingIds runB B = findingIds runA A) (ruleId : String) :
    report B ruleId = report A ruleId := by
  refine report_eq_of_within (h.within_of_subset (fun e he => ?_) ruleId)
    (h.symm.within_of_subset (fun e he => ?_) ruleId)
  · refine (h.mem_findingIds_iff runA he).mp ?_
    rw [← hids]
    exact mem_findingIds.mpr ⟨e, he, rfl⟩
  · refine (h.symm.mem_findingIds_iff runB he).mp ?_
    rw [hids]
    exact mem_findingIds.mpr ⟨e, he, rfl⟩

/-! ## Fresh artifact ids -/

/-- The same evidence in an artifact of another id. -/
def Evidence.rename (ρ : String → String) (e : Evidence) : Evidence :=
  { e with artifactId := ρ e.artifactId }

/-- The same scan with other artifact ids: every row its new id, every path as it was. -/
def CorrelationInput.rename (ρ : String → String) (input : CorrelationInput) : CorrelationInput :=
  { input with
    evidence := input.evidence.map (Evidence.rename ρ)
    artifactPaths := input.artifactPaths.map fun kv => (ρ kv.1, kv.2) }

section Rename

variable {ρ : String → String} {input : CorrelationInput}

theorem pathOf_rename (hρ : Function.Injective ρ) (input : CorrelationInput) (a : String) :
    pathOf (input.rename ρ).artifactPaths (ρ a) = pathOf input.artifactPaths a := by
  have hkey : (fun kv : String × String => decide (kv.1 = ρ a))
      ∘ (fun kv : String × String => (ρ kv.1, kv.2)) = fun kv => decide (kv.1 = a) := by
    funext kv
    simp [hρ.eq_iff]
  rw [pathOf, pathOf, Dict.get?, Dict.get?, CorrelationInput.rename, ← List.map_reverse,
    List.find?_map, hkey, Option.map_map]
  rfl

/-- The items of a group under fresh ids, in whatever order. -/
theorem items_rename_perm {g g' : EvidenceGroup} (hg : g ∈ evidenceGroups input.evidence)
    (hg' : g' ∈ evidenceGroups (input.rename ρ).evidence) (hkey : g.key = g'.key) :
    g'.items.Perm (g.items.map (Evidence.rename ρ)) := by
  rw [items_evidenceGroup hg, items_evidenceGroup hg', ← hkey]
  refine ((sortBy_perm _ _).filter _).trans ?_
  refine List.Perm.trans ?_ (((sortBy_perm _ _).filter _).map _).symm
  rw [CorrelationInput.rename, List.filter_map]
  rfl

/-- A score does not depend on the order of the items nor on where they are. -/
theorem score_eq_of_perm (rule : Rule) {items items' : List Evidence}
    (h : items'.Perm (items.map (Evidence.rename ρ))) : score rule items = score rule items' := by
  have hentropy : (items'.filterMap Evidence.entropy).max?
      = (items.filterMap Evidence.entropy).max? := by
    rw [max?_eq_of_perm (h.filterMap Evidence.entropy), List.filterMap_map]
    rfl
  have hlen : items'.length = items.length := by rw [h.length_eq, List.length_map]
  have hwide : items'.any (fun e => e.encoding == some "utf-16le")
      = items.any fun e => e.encoding == some "utf-16le" := by
    rw [h.any_eq, List.any_map]
    rfl
  simp only [score, entropyStep, hentropy, hlen, hwide]

/-- **Fresh artifact ids leave the groups and their scores alone.** -/
theorem groupAlike_rename (ρ : String → String) (input : CorrelationInput) :
    GroupAlike input (input.rename ρ) where
  pack := rfl
  keys := keys_evidenceGroups_eq fun k => by
    constructor
    · rintro ⟨_, hmem, rfl⟩
      obtain ⟨e, he, rfl⟩ := List.mem_map.mp hmem
      exact ⟨e, he, rfl⟩
    · rintro ⟨e, he, rfl⟩
      exact ⟨e.rename ρ, List.mem_map_of_mem he, rfl⟩
  scores rule g hg g' hg' hkey := score_eq_of_perm rule (items_rename_perm hg hg' hkey)

/-! ## Ids that keep their order -/

/-- Fresh ids order the artifacts that hold one value of one rule as the old ones did. -/
def KeepsOrder (ρ : String → String) (input : CorrelationInput) : Prop :=
  ∀ a ∈ input.evidence, ∀ b ∈ input.evidence, a.groupKey = b.groupKey →
    (ρ a.artifactId ≤ ρ b.artifactId ↔ a.artifactId ≤ b.artifactId)

/-- Ids that keep their order are other labels for the same evidence. -/
theorem relabels_rename (hρ : Function.Injective ρ) (hkeep : KeepsOrder ρ input) :
    Relabels (Evidence.rename ρ) input (input.rename ρ) where
  pack := rfl
  evidence := rfl
  groupKey _ _ := rfl
  offset _ _ := rfl
  path e _ := pathOf_rename hρ input e.artifactId
  order := hkeep
  silenced _ _ := rfl

/-- **…and so every rule reports the same.** -/
theorem report_rename (hρ : Function.Injective ρ) (hkeep : KeepsOrder ρ input) (ruleId : String) :
    report (input.rename ρ) ruleId = report input ruleId :=
  (relabels_rename hρ hkeep).report_eq ruleId

/-- **A re-scan comes to the same findings exactly when every rule reports the same**: up to 20
values each at the first place of its group, or more in the same order of their ids and anchored at
the same path.  Ids that keep their order within the groups do; only the converse rests on the
hashes. -/
theorem sameFindings_iff_report_eq (input : CorrelationInput) (hρ : Function.Injective ρ) :
    (KeepsOrder ρ input → SameFindings input (input.rename ρ)) ∧
      ((∀ ruleId, report (input.rename ρ) ruleId = report input ruleId) →
        SameFindings input (input.rename ρ)) ∧
      (HashesApart input (input.rename ρ) →
        (SameFindings input (input.rename ρ) ↔
          ∀ ruleId, report (input.rename ρ) ruleId = report input ruleId)) := by
  have halike := groupAlike_rename ρ input
  refine ⟨fun hkeep => halike.sameFindings (report_rename hρ hkeep), halike.sameFindings,
    fun h => ⟨fun hsame => ?_, halike.sameFindings⟩⟩
  -- the first part of what findings are compared by is the id
  have hids : findingIds "" (input.rename ρ) = findingIds "" input := by
    have hfst := congrArg (List.map Prod.fst) (hsame.findings "" "")
    rwa [List.map_map, List.map_map] at hfst
  exact h.report_eq hids

/-- A value in one file keeps its finding whatever id the file gets. -/
theorem sameFindings_oneFile :
    SameFindings (twoFiles [passwordIn "a1" 'a'])
      ((twoFiles [passwordIn "a1" 'a']).rename (Equiv.swap "a1" "a2")) :=
  (sameFindings_iff_report_eq _ (Equiv.swap "a1" "a2").injective).1 (by
    rintro a ha b hb -
    rw [List.mem_singleton.mp ha, List.mem_singleton.mp hb]
    exact ⟨fun _ => le_rfl, fun _ => le_rfl⟩)

/-- **The same value in two files**: when the ids of the files change places, so does the anchor, and
the finding is new. -/
theorem swapped_ids_change_finding :
    Function.Injective (Equiv.swap "a1" "a2") ∧
      ¬ SameFindings (twoFiles [passwordIn "a1" 'a', passwordIn "a2" 'a'])
        ((twoFiles [passwordIn "a1" 'a', passwordIn "a2" 'a']).rename (Equiv.swap "a1" "a2")) := by
  refine ⟨(Equiv.swap "a1" "a2").injective, fun h => ?_⟩
  have hids := (h.gate "a" "b").1
  revert hids
  decide +kernel

end Rename

end BareAnalysis
