import BareAnalysis.Correlation.LosesNothing

/-!
# Correlation/SuppressOnce — suppressing what a scan reported

    finding (rule, value hash) ──suppression──▸ silences the group under that key
                 │
      a cluster's value hash is no group's ▸ silences nothing

Suppressions are held against the groups, before clustering; the value hash a cluster is reported
under is made afterwards.  So suppressing a finding silences it exactly when it is not a cluster
(`staysSuppressed_iff`).
-/

namespace BareAnalysis

/-! ## Suppressions, without the index -/

/-- **A key is suppressed when some suppression of it matches the path.** -/
theorem isSuppressed_eq_any (suppressions : List Suppression) (ruleId valueHash path : String) :
    isSuppressed (indexSuppressions suppressions) ruleId valueHash path
      = suppressions.any fun s => decide ((s.ruleId, s.valueHash) = (ruleId, valueHash))
          && (s.pathPattern == "*" || fnmatch path s.pathPattern) := by
  have hmatch : ∀ matched : Suppression → Bool,
      (suppressions.any fun s => decide ((s.ruleId, s.valueHash) = (ruleId, valueHash)) && matched s)
        = (suppressions.filter fun s =>
            decide ((s.ruleId, s.valueHash) = (ruleId, valueHash))).any matched :=
    fun matched => (List.any_filter ..).symm
  rw [isSuppressed, hmatch]
  rcases hfind : (indexSuppressions suppressions).find?
    fun g => decide (g.key = (ruleId, valueHash)) with - | g
  · have hnone : (suppressions.filter fun s =>
        decide ((s.ruleId, s.valueHash) = (ruleId, valueHash))) = [] :=
      List.filter_eq_nil_iff.mpr fun s hs hkey => by
        obtain ⟨g, hg, hgk, -⟩ :=
          @exists_group_of_mem _ _ _ (fun s : Suppression => (s.ruleId, s.valueHash)) _ _ hs
        have hnot := List.find?_eq_none.mp hfind g hg
        exact hnot (decide_eq_true (hgk.trans (of_decide_eq_true hkey)))
    rw [hnone, hfind]
    rfl
  · have hkey : g.key = (ruleId, valueHash) := by simpa using List.find?_some hfind
    rw [hfind]
    dsimp only
    rw [items_of_mem_groupBy (List.mem_of_find?_eq_some hfind), hkey]

/-! ## Suppressing a finding -/

/-- The scan with the finding suppressed, wherever it occurs. -/
def CorrelationInput.suppress (input : CorrelationInput) (f : Finding) : CorrelationInput :=
  { input with
    suppressions := input.suppressions ++ [{ valueHash := f.valueHash, ruleId := f.ruleId }] }

/-- The finding is not reported again, and no other rule loses one. -/
def StaysSuppressed (runId : String) (input : CorrelationInput) (f : Finding) : Prop :=
  f.id ∉ findingIds runId (input.suppress f) ∧
    ∀ f' ∈ (correlate runId input).findings, f'.ruleId ≠ f.ruleId →
      f' ∈ (correlate runId (input.suppress f)).findings

section Suppress

variable {input : CorrelationInput} {f : Finding}

theorem silenced_suppress (g : EvidenceGroup) :
    silenced (input.suppress f) g
      = (silenced input g || decide (g.key = (f.ruleId, f.valueHash))) := by
  rw [silenced, silenced, isSuppressed_eq_any, isSuppressed_eq_any, CorrelationInput.suppress]
  dsimp only
  rw [List.any_append, List.any_cons, List.any_nil, Bool.or_false]
  have hstar : (("*" : String) == "*") = true := rfl
  rw [hstar, Bool.true_or, Bool.and_true]
  congr 1
  exact decide_eq_decide.mpr eq_comm

/-- What survives is what survived under other keys. -/
theorem survivors_suppress (ruleId : String) :
    survivors (input.suppress f) ruleId
      = (survivors input ruleId).filter fun g => decide (g.key ≠ (f.ruleId, f.valueHash)) := by
  unfold survivors
  rw [apply_ite (List.filter _), List.filter_nil, List.filter_filter]
  congr 1
  refine List.filter_congr fun g _ => ?_
  rw [silenced_suppress, decide_not]
  rcases silenced input g with - | - <;> simp [Bool.and_comm]

/-- A rule the key does not belong to keeps its survivors. -/
theorem survivors_suppress_of_ne {ruleId : String}
    (h : ∀ g ∈ survivors input ruleId, g.key ≠ (f.ruleId, f.valueHash)) :
    survivors (input.suppress f) ruleId = survivors input ruleId := by
  rw [survivors_suppress]
  exact List.filter_eq_self.mpr fun g hg => decide_eq_true (h g hg)

/-- The anchor of a survivor no other survivor shares its id with. -/
theorem anchorPathUnder_of_unique {input : CorrelationInput} {a : EvidenceGroup}
    (ha : a ∈ surviving input)
    (huniq : ∀ g ∈ surviving input,
      groupId input.artifactPaths g = groupId input.artifactPaths a → g = a) :
    anchorPathUnder input (groupId input.artifactPaths a) = anchorPath input.artifactPaths a := by
  rw [anchorPathUnder]
  rcases hfind : (surviving input).find?
    fun g => groupId input.artifactPaths g == groupId input.artifactPaths a with - | g
  · exact absurd (beq_self_eq_true _) (List.find?_eq_none.mp hfind a ha)
  · have hid : groupId input.artifactPaths g = groupId input.artifactPaths a :=
      by simpa using List.find?_some hfind
    rw [huniq g (List.mem_of_find?_eq_some hfind) hid]
    rfl

/-- **A rule that keeps its survivors reports the same findings**, where ids do not collide. -/
theorem reportedFindings_suppress (h : PayloadsApart input) (runId : String) {ruleId : String}
    (hkeep : ∀ g ∈ survivors input ruleId, g.key ≠ (f.ruleId, f.valueHash)) :
    reportedFindings (input.suppress f) runId ruleId = reportedFindings input runId ruleId := by
  have hsurvivors := survivors_suppress_of_ne hkeep
  rcases hrule : input.pack.rulesById.get? ruleId with - | rule
  · rw [reportedFindings_of_none hrule]
    exact reportedFindings_of_none hrule
  have hrule' : (input.suppress f).pack.rulesById.get? ruleId = some rule := hrule
  rcases le_or_gt (survivors input ruleId).length clusterThreshold with hn | hn
  · rw [reportedFindings_of_le hrule hn,
      reportedFindings_of_le hrule' (by rw [hsurvivors]; exact hn), hsurvivors]
    rfl
  · obtain ⟨a, rest, hord, heq⟩ := reportedFindings_of_lt runId hrule hn
    obtain ⟨b, rest', hord', heq'⟩ :=
      reportedFindings_of_lt runId hrule' (by rw [hsurvivors]; exact hn)
    have hsame : clusterOrder (input.suppress f) ruleId = clusterOrder input ruleId := by
      rw [clusterOrder, hsurvivors]
      rfl
    rw [hord, hord'] at hsame
    obtain ⟨rfl, rfl⟩ := List.cons.inj hsame
    have ha : b ∈ survivors input ruleId :=
      mem_clusterOrder.mp (by rw [hord]; exact List.mem_cons_self)
    have hpath : ((locationsUnder (beforeClustering (input.suppress f) runId).locations
          (groupId input.artifactPaths b)).head?.map FindingLocation.pathInTree).getD ""
        = ((locationsUnder (beforeClustering input runId).locations
          (groupId input.artifactPaths b)).head?.map FindingLocation.pathInTree).getD "" := by
      have hsub : ∀ {r : String} {g : EvidenceGroup}, g ∈ survivors (input.suppress f) r →
          g ∈ survivors input r := fun hg => by
        rw [survivors_suppress] at hg
        exact (List.mem_filter.mp hg).1
      have hb : b ∈ surviving input := by
        rw [mem_surviving, (mem_survivors.mp ha).2.2.1]
        exact ha
      have hb' : b ∈ surviving (input.suppress f) := by
        rw [mem_surviving, (mem_survivors.mp ha).2.2.1, hsurvivors]
        exact ha
      rw [anchorPathUnder_eq, anchorPathUnder_eq]
      rw [anchorPathUnder_of_unique hb fun _ hg hid =>
        h.survivor_eq ((mem_surviving _).mp hg) ha hid]
      exact anchorPathUnder_of_unique hb' fun _ hg hid =>
        h.survivor_eq (hsub ((mem_surviving _).mp hg)) ha hid
    rw [heq, heq']
    simp only [clusterFinding, plainFinding_id]
    rw [show (input.suppress f).artifactPaths = input.artifactPaths from rfl, hpath]

/-- Another rule's survivors lie under other keys. -/
theorem key_ne_of_ruleId_ne {ruleId : String} (hne : ruleId ≠ f.ruleId) :
    ∀ g ∈ survivors input ruleId, g.key ≠ (f.ruleId, f.valueHash) := fun _ hg hkey =>
  hne ((mem_survivors.mp hg).2.2.1.symm.trans (congrArg Prod.fst hkey))

/-- **A suppression that matches no group changes nothing.** -/
theorem correlate_suppress_of_unmatched (runId : String)
    (hkeep : ∀ g ∈ evidenceGroups input.evidence, g.key ≠ (f.ruleId, f.valueHash)) :
    correlate runId (input.suppress f) = correlate runId input := by
  have hsilenced : ∀ g ∈ evidenceGroups input.evidence,
      silenced (input.suppress f) g = silenced input g := fun g hg => by
    rw [silenced_suppress, decide_eq_false (hkeep g hg), Bool.or_false]
  have hbefore : beforeClustering (input.suppress f) runId = beforeClustering input runId := by
    rw [beforeClustering_eq, beforeClustering_eq, surviving, surviving, silencedCount,
      silencedCount]
    congr 1
    · refine List.filterMap_congr fun g hg => ?_
      rw [plainFinding?, plainFinding?, hsilenced g hg]
      rfl
    · refine congrArg (List.flatMap (groupLocations runId input.artifactPaths))
        (List.filter_congr fun g hg => ?_)
      rw [hsilenced g hg]
      rfl
    · refine List.countP_congr fun g hg => ?_
      rw [hsilenced g hg]
      rfl
  have hcorrelate : ∀ scan : CorrelationInput, correlate runId scan
      = { clusterRepetitiveRules runId scan.pack.rulesById (beforeClustering scan runId) with
          findings := sortBy findingSortKey (clusterRepetitiveRules runId scan.pack.rulesById
            (beforeClustering scan runId)).findings } := fun _ => rfl
  rw [hcorrelate, hcorrelate, hbefore]
  rfl

/-- **A cluster is reported again**: its value hash is no group's, so nothing is silenced. -/
theorem mem_findings_suppress_of_lt (runId : String)
    (happart : ∀ e ∈ input.evidence, ∀ text ∈ clusterTexts input, e.valueHash ≠ sha256 text)
    (hf : f ∈ (correlate runId input).findings)
    (hn : clusterThreshold < (survivors input f.ruleId).length) :
    f ∈ (correlate runId (input.suppress f)).findings := by
  obtain ⟨e, he, hrule, -, hvalue⟩ := exists_entry_of_mem_findings hf
  rw [correlate_suppress_of_unmatched]
  · exact hf
  intro g hg hkey
  obtain ⟨hev, hgk⟩ := (mem_items_evidenceGroup hg).mp g.first_mem_items
  have hmem := mem_entries.mp he
  rw [hrule] at hmem
  rcases mem_entries_cases hmem with ⟨hle, -⟩ | ⟨-, hashes, path, hr, heq⟩
  · exact absurd hn (not_lt.mpr hle)
  · refine happart g.first hev _ (clusterText_mem hr) ?_
    calc g.first.valueHash = g.key.2 := congrArg Prod.snd hgk
      _ = f.valueHash := congrArg Prod.snd hkey
      _ = e.valueHash := hvalue.symm
      _ = sha256 (clusterText f.ruleId hashes) := by rw [heq]; rfl

/-- **Suppress once stays suppressed exactly for what is not a cluster.** -/
theorem staysSuppressed_iff (h : PayloadsApart input) (runId : String)
    (happart : ∀ e ∈ input.evidence, ∀ text ∈ clusterTexts input, e.valueHash ≠ sha256 text)
    (hf : f ∈ (correlate runId input).findings) :
    StaysSuppressed runId input f ↔ (survivors input f.ruleId).length ≤ clusterThreshold := by
  constructor
  · rintro ⟨hgone, -⟩
    by_contra hn
    have hagain := mem_findings_suppress_of_lt runId happart hf (not_le.mp hn)
    exact hgone (List.mem_map_of_mem hagain)
  · intro hn
    have hother : ∀ f' : Finding, f'.ruleId ≠ f.ruleId →
        (f' ∈ (correlate runId (input.suppress f)).findings ↔
          f' ∈ (correlate runId input).findings) := fun f' hne => by
      rw [mem_findings_correlate, mem_findings_correlate,
        reportedFindings_suppress h runId (key_ne_of_ruleId_ne hne)]
    refine ⟨fun hid => ?_, fun f' hf' hne => (hother f' hne).mpr hf'⟩
    obtain ⟨f', hf', hid⟩ := List.mem_map.mp hid
    by_cases hne : f'.ruleId ≠ f.ruleId
    · have hsame := List.inj_on_of_nodup_map (h.nodup_findingIds runId) ((hother f' hne).mp hf') hf hid
      exact hne (by rw [hsame])
    · -- of its own rule only the other values are left, each under its own id
      have hreported := (mem_findings_correlate input runId).mp hf
      have hreported' := (mem_findings_correlate (input.suppress f) runId).mp hf'
      rw [not_not.mp hne] at hreported'
      rcases hrule : input.pack.rulesById.get? f.ruleId with - | rule
      · rw [reportedFindings_of_none hrule] at hreported
        cases hreported
      have hle : (survivors (input.suppress f) f.ruleId).length ≤ clusterThreshold := by
        rw [survivors_suppress]
        exact (List.length_filter_le _ _).trans hn
      have hleft : reportedFindings (input.suppress f) runId f.ruleId
          = (survivors (input.suppress f) f.ruleId).map
              (plainFinding runId input.artifactPaths rule) := reportedFindings_of_le hrule hle
      rw [reportedFindings_of_le hrule hn] at hreported
      rw [hleft] at hreported'
      obtain ⟨g, hg, hplain⟩ := List.mem_map.mp hreported
      obtain ⟨g', hg', hplain'⟩ := List.mem_map.mp hreported'
      rw [survivors_suppress] at hg'
      obtain ⟨hg', hkey⟩ := List.mem_filter.mp hg'
      refine of_decide_eq_true hkey ?_
      have hgid : groupId input.artifactPaths g' = groupId input.artifactPaths g := by
        rw [← hplain, ← hplain'] at hid
        exact hid
      rw [h.survivor_eq hg' hg hgid]
      exact Prod.ext (congrArg Finding.ruleId hplain) (congrArg Finding.valueHash hplain)

end Suppress

/-- A value in two files is one finding; suppressed, it is not reported again. -/
theorem staysSuppressed_iff_twoFiles :
    ∃ f ∈ (correlate "run" (twoFiles [passwordIn "a1" 'a', passwordIn "a2" 'a'])).findings,
      StaysSuppressed "run" (twoFiles [passwordIn "a1" 'a', passwordIn "a2" 'a']) f := by
  have hnone : clusterTexts (twoFiles [passwordIn "a1" 'a', passwordIn "a2" 'a']) = [] := by
    decide +kernel
  have hg : (survivors (twoFiles [passwordIn "a1" 'a', passwordIn "a2" 'a']) "password").length = 1 := by
    decide +kernel
  obtain ⟨g, hg'⟩ := List.exists_mem_of_length_pos (hg ▸ Nat.one_pos)
  have hentry : entryOf _ g ∈ entries (twoFiles [passwordIn "a1" 'a', passwordIn "a2" 'a']) :=
    mem_entries.mpr <| by
      rw [show (entryOf _ g).ruleId = "password" from (mem_survivors.mp hg').2.2.1,
        report_of_le (hg ▸ by decide)]
      exact List.mem_map_of_mem hg'
  obtain ⟨f, hf, hrule, -⟩ := exists_finding_of_mem_entries "run" hentry
  refine ⟨f, hf, (staysSuppressed_iff payloadsApart_twoFiles "run" ?_ hf).mpr ?_⟩
  · rw [hnone]
    rintro e - text ⟨⟩
  · rw [hrule, show (entryOf _ g).ruleId = "password" from (mem_survivors.mp hg').2.2.1, hg]
    decide

/-! ## Twenty-one passwords -/

/-- A rule that fired on 21 values of one file. -/
def manyPasswords : CorrelationInput where
  evidence := (List.range 21).map fun n =>
    { artifactId := "a1", ruleId := "password", valueHash := String.singleton (Char.ofNat (97 + n))
      offset := some n }
  pack := passwordPack
  artifactPaths := [("a1", "x.cfg")]

/-- **A cluster comes back**: the finding that stands for 21 values is reported again after it was
suppressed. -/
theorem suppressed_cluster_is_reported :
    ∃ f ∈ (correlate "run" manyPasswords).findings,
      f.id ∈ findingIds "run" (manyPasswords.suppress f) ∧
        ¬StaysSuppressed "run" manyPasswords f := by
  have hlen : (survivors manyPasswords "password").length = 21 := by decide +kernel
  have hn : clusterThreshold < (survivors manyPasswords "password").length := by
    rw [hlen]
    decide
  obtain ⟨path, hr⟩ := report_of_lt hn
  have hentry : ⟨"password", clusterHash "password" _, path, 0⟩ ∈ entries manyPasswords :=
    mem_entries.mpr (by rw [hr]; exact List.mem_singleton_self _)
  obtain ⟨f, hf, hrule, -⟩ := exists_finding_of_mem_entries "run" hentry
  have happart : ∀ e ∈ manyPasswords.evidence, ∀ text ∈ clusterTexts manyPasswords,
      e.valueHash ≠ sha256 text := fun e he text _ heq => by
    obtain ⟨n, -, rfl⟩ := List.mem_map.mp he
    have hdigest := (isDigest_sha256 text).1
    rw [← heq] at hdigest
    simp at hdigest
  have hagain : f.id ∈ findingIds "run" (manyPasswords.suppress f) :=
    List.mem_map_of_mem (mem_findings_suppress_of_lt "run" happart hf (by rw [hrule]; exact hn))
  exact ⟨f, hf, hagain, fun h => h.1 hagain⟩

end BareAnalysis
