import BareAnalysis.Correlation.Places
import BareAnalysis.Correlation.Rescan

/-!
# Correlation/OrderFree — the order of the evidence does not reach the output

    evidence  ~  evidence'          the same rows in another order
        │            │
      groups  ≈  groups'            same keys, same anchors, same items up to order
        │            │
     report   =   report'

A group's first item is not fixed by the sort key, which merges a missing offset with 0, but what a
report reads of it is (`groupAnchor_eq`).  Everything a finding is known by is read off the anchors;
with no two rows under one key the whole result is the same.
-/

namespace BareAnalysis

/-- The same scan with its evidence in another order. -/
def CorrelationInput.reorder (input : CorrelationInput) (evidence : List Evidence) :
    CorrelationInput := { input with evidence := evidence }

/-- What the reports read of a group: its key, and the artifact and offset it is anchored at. -/
def groupAnchor (g : EvidenceGroup) : (String × String) × String × ℤ :=
  (g.key, g.first.artifactId, g.first.offset.getD 0)

/-! ## The groups of reordered evidence -/

section Groups

variable {evidence evidence' : List Evidence} (h : evidence.Perm evidence')

include h in
/-- The items of a group, up to order. -/
theorem items_perm {g g' : EvidenceGroup} (hg : g ∈ evidenceGroups evidence)
    (hg' : g' ∈ evidenceGroups evidence') (hkey : g.key = g'.key) : g.items.Perm g'.items := by
  rw [items_evidenceGroup hg, items_evidenceGroup hg', hkey]
  exact ((sortBy_perm _ _).trans (h.trans (sortBy_perm _ _).symm)).filter _

include h in
/-- **The anchor of a group does not depend on the order of the evidence.** -/
theorem groupAnchor_eq {g g' : EvidenceGroup} (hg : g ∈ evidenceGroups evidence)
    (hg' : g' ∈ evidenceGroups evidence') (hkey : g.key = g'.key) :
    groupAnchor g = groupAnchor g' := by
  have hitems := items_perm h hg hg' hkey
  have hsort : evidenceSortKey g.first = evidenceSortKey g'.first := le_antisymm
    (evidenceSortKey_first_le hg (hitems.mem_iff.mpr g'.first_mem_items))
    (evidenceSortKey_first_le hg' (hitems.mem_iff.mp g.first_mem_items))
  obtain ⟨-, htail⟩ := Prod.mk.inj (congrArg ofLex hsort)
  obtain ⟨-, htail⟩ := Prod.mk.inj (congrArg ofLex htail)
  obtain ⟨hartifact, hoffset⟩ := Prod.mk.inj (congrArg ofLex htail)
  exact Prod.ext hkey (Prod.ext hartifact hoffset)

include h in
theorem keys_evidenceGroups_perm :
    (evidenceGroups evidence').map Group.key = (evidenceGroups evidence).map Group.key :=
  keys_evidenceGroups_eq fun _ => exists_congr fun _ => and_congr_left' h.mem_iff.symm

end Groups

/-! ## The reports of reordered evidence -/

section Reordered

variable {input : CorrelationInput} {evidence' : List Evidence}
  (h : input.evidence.Perm evidence')

include h in
/-- **…and so the groups come in the same order, at the same places.** -/
theorem groupEntries_reorder : groupEntries (input.reorder evidence') = groupEntries input := by
  refine map_eq_map_of_map_eq (keys_evidenceGroups_perm h) fun g' hg' g hg hkey => ?_
  obtain ⟨-, hanchor⟩ := Prod.mk.inj (groupAnchor_eq h hg hg' hkey.symm)
  obtain ⟨hartifact, hoffset⟩ := Prod.mk.inj hanchor
  rw [entryOf, entryOf, anchorPath, anchorPath, hkey, hartifact, hoffset]
  rfl

include h in
theorem survivors_reorder (ruleId : String) :
    (survivors (input.reorder evidence') ruleId).map (entryOf (input.reorder evidence'))
      = (survivors input ruleId).map (entryOf input) :=
  @survivors_eq_of_groupEntries input (input.reorder evidence') rfl (groupEntries_reorder h)
    (fun _ _ => rfl) ruleId

include h in
/-- **Every rule reports the same.** -/
theorem report_reorder (ruleId : String) :
    report (input.reorder evidence') ruleId = report input ruleId :=
  @report_eq_of_groupEntries input (input.reorder evidence') rfl (groupEntries_reorder h)
    (fun _ _ => rfl) ruleId

include h in
/-- Reordered evidence groups and scores alike. -/
theorem groupAlike_reorder : GroupAlike input (input.reorder evidence') where
  pack := rfl
  keys := keys_evidenceGroups_perm h
  scores rule g hg g' hg' hkey := by
    have hperm : g'.items.Perm (g.items.map (Evidence.rename id)) := by
      rw [show Evidence.rename id = id from rfl, List.map_id]
      exact (items_perm h hg hg' hkey).symm
    exact score_eq_of_perm rule hperm

include h in
/-- A survivor corresponds to one with the same id and the same places. -/
theorem exists_survivor_reorder {ruleId : String} {g : EvidenceGroup}
    (hg : g ∈ survivors input ruleId) :
    ∃ g' ∈ survivors (input.reorder evidence') ruleId,
      groupId input.artifactPaths g' = groupId input.artifactPaths g ∧
        ∀ artifactId offset, OccursAt g artifactId offset → OccursAt g' artifactId offset := by
  have hmem : entryOf input g
      ∈ (survivors (input.reorder evidence') ruleId).map (entryOf (input.reorder evidence')) := by
    rw [survivors_reorder h]
    exact List.mem_map_of_mem hg
  obtain ⟨g', hg', hentry⟩ := List.mem_map.mp hmem
  have hkey : g.key = g'.key :=
    Prod.ext (congrArg Entry.ruleId hentry).symm (congrArg Entry.valueHash hentry).symm
  have hid : groupId input.artifactPaths g' = groupId input.artifactPaths g := by
    rw [← id_entryOf input g, ← hentry]
    rfl
  refine ⟨g', hg', hid, ?_⟩
  rintro artifactId offset ⟨e, he, hat⟩
  have hitems := items_perm h (mem_survivors.mp hg).2.1 (mem_survivors.mp hg').2.1 hkey
  exact ⟨e, hitems.mem_iff.mp he, hat⟩

include h in
/-- What is located by the one scan is located by the other. -/
theorem locatedAt_reorder {runId id artifactId : String} {offset : Option ℤ}
    (hloc : LocatedAt (correlate runId input).locations id artifactId offset) :
    LocatedAt (correlate runId (input.reorder evidence')).locations id artifactId offset := by
  obtain ⟨ruleId, hloc⟩ := (locatedAt_correlate input runId id artifactId offset).mp hloc
  obtain ⟨g, hg, hbefore, hid⟩ :=
    (locatedAt_ruleLocations input runId ruleId id artifactId offset).mp hloc
  obtain ⟨g₀, hg₀, hid₀, hocc⟩ :=
    (locatedAt_beforeClustering input runId _ artifactId offset).mp hbefore
  obtain ⟨g', hg', hid', -⟩ := exists_survivor_reorder h hg
  obtain ⟨g₀', hg₀', hid₀', hocc'⟩ := exists_survivor_reorder h ((mem_surviving input).mp hg₀)
  have hbefore' : LocatedAt (beforeClustering (input.reorder evidence') runId).locations
      (groupId input.artifactPaths g') artifactId offset := by
    refine (locatedAt_beforeClustering (input.reorder evidence') runId _ artifactId offset).mpr
      ⟨g₀', (mem_surviving _).mpr ?_, ?_, hocc' _ _ hocc⟩
    · rwa [(mem_survivors.mp hg₀').2.2.1]
    · rw [hid']
      exact hid₀'.trans hid₀
  have hlen : (survivors (input.reorder evidence') ruleId).length
      = (survivors input ruleId).length := by
    simpa using congrArg List.length (survivors_reorder h ruleId)
  refine (locatedAt_correlate _ runId id artifactId offset).mpr ⟨ruleId,
    (locatedAt_ruleLocations _ runId ruleId id artifactId offset).mpr ⟨g', hg', hbefore', ?_⟩⟩
  rw [hlen, report_reorder h]
  exact hid.imp_left fun hplain => ⟨hplain.1, hplain.2.trans hid'.symm⟩

end Reordered

/-! ## Titles -/

/-- The title of a rule's findings: its name, and for a cluster how many values it stands for. -/
def reportTitle (input : CorrelationInput) (ruleId : String) : String :=
  match input.pack.rulesById.get? ruleId with
  | none => ""
  | some rule =>
    if (survivors input ruleId).length ≤ clusterThreshold then rule.name
    else rule.name ++ " (" ++ toString (survivors input ruleId).length ++ " distinct values)"

theorem title_of_mem_findings {input : CorrelationInput} {runId : String} {f : Finding}
    (hf : f ∈ (correlate runId input).findings) : f.title = reportTitle input f.ruleId := by
  have hf := (mem_findings_correlate input runId).mp hf
  rcases hrule : input.pack.rulesById.get? f.ruleId with - | rule
  · rw [reportedFindings_of_none hrule] at hf
    cases hf
  rcases le_or_gt (survivors input f.ruleId).length clusterThreshold with hn | hn
  · rw [reportedFindings_of_le hrule hn] at hf
    obtain ⟨g, -, hg⟩ := List.mem_map.mp hf
    rw [reportTitle, hrule]
    dsimp only
    rw [if_pos hn, ← hg]
    rfl
  · obtain ⟨anchor, rest, hord, heq⟩ := reportedFindings_of_lt runId hrule hn
    have hlen := congrArg List.length hord
    rw [clusterOrder, length_sortBy] at hlen
    rw [heq] at hf
    rw [reportTitle, hrule]
    dsimp only
    rw [if_neg (not_le.mpr hn), hlen, List.mem_singleton.mp hf]
    simp [clusterFinding]

/-! ## The result -/

/-- What reordered evidence leaves alone of a finding. -/
def Finding.settled (f : Finding) : String × String × Severity × ℚ × String × String :=
  (f.id, f.ruleId, f.severity, f.confidence, f.valueHash, f.title)

/-- **Correlation does not depend on the order of the evidence**: the same findings in the same order,
the same number suppressed, the same places; and where no two rows share rule, value, artifact and
offset (a missing one counting as 0), the same result altogether. -/
theorem correlate_orderFree (runId : String) (input : CorrelationInput) {evidence' : List Evidence}
    (h : input.evidence.Perm evidence') :
    (correlate runId (input.reorder evidence')).findings.map Finding.settled
        = (correlate runId input).findings.map Finding.settled ∧
      (correlate runId (input.reorder evidence')).suppressed
        = (correlate runId input).suppressed ∧
      (∀ id artifactId offset,
        LocatedAt (correlate runId (input.reorder evidence')).locations id artifactId offset ↔
          LocatedAt (correlate runId input).locations id artifactId offset) ∧
      ((input.evidence.map evidenceSortKey).Nodup →
        correlate runId (input.reorder evidence') = correlate runId input) := by
  have hsame := (groupAlike_reorder h).sameFindings (report_reorder h)
  refine ⟨?_, hsame.suppressed runId runId, fun id artifactId offset => ⟨fun hloc => ?_, ?_⟩, ?_⟩
  · refine map_eq_map_of_map_eq (hsame.findings runId runId) fun f' hf' f hf hview => ?_
    obtain ⟨hid, hview⟩ := Prod.mk.inj hview
    obtain ⟨hruleId, hview⟩ := Prod.mk.inj hview
    obtain ⟨hseverity, hview⟩ := Prod.mk.inj hview
    obtain ⟨hconfidence, hvalue⟩ := Prod.mk.inj hview
    have htitle : f'.title = f.title := by
      have hlen := congrArg List.length (survivors_reorder h f.ruleId)
      rw [List.length_map, List.length_map] at hlen
      rw [title_of_mem_findings hf', title_of_mem_findings hf, hruleId, reportTitle, reportTitle,
        hlen]
      rfl
    rw [Finding.settled, Finding.settled, hid, hruleId, hseverity, hconfidence, hvalue, htitle]
  · have hback : (input.reorder evidence').evidence.Perm input.evidence := h.symm
    exact locatedAt_reorder hback hloc
  · exact locatedAt_reorder h
  · intro hnodup
    have hsort : sortBy evidenceSortKey evidence' = sortBy evidenceSortKey input.evidence :=
      (sortBy_eq_of_perm h fun a ha b hb hkey => List.inj_on_of_nodup_map hnodup ha hb hkey).symm
    have hgroups : evidenceGroups evidence' = evidenceGroups input.evidence := by
      rw [evidenceGroups, evidenceGroups, hsort]
    unfold correlate CorrelationInput.reorder
    dsimp only
    rw [hgroups]

/-- One value in two files, reported in either order. -/
theorem correlate_orderFree_twoFiles :
    correlate "run" ((twoFiles [passwordIn "a1" 'a', passwordIn "a2" 'a']).reorder
        [passwordIn "a2" 'a', passwordIn "a1" 'a'])
      = correlate "run" (twoFiles [passwordIn "a1" 'a', passwordIn "a2" 'a']) := by
  have hperm : (twoFiles [passwordIn "a1" 'a', passwordIn "a2" 'a']).evidence.Perm
      [passwordIn "a2" 'a', passwordIn "a1" 'a'] := List.Perm.swap ..
  exact (correlate_orderFree "run" _ hperm).2.2.2 (by decide +kernel)

end BareAnalysis
