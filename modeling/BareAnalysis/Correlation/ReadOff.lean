import BareAnalysis.Correlation.Identity

/-!
# Correlation/ReadOff — reports are read off the entries of the groups

    evidence ──▸ groups ──entryOf──▸ entries ──enabled, not silenced──▸ report

All a report says of a scan is in the list of its groups' entries: rule, value, path and offset of
the first occurrence.  Artifact ids and run ids are gone there, so a scan whose ids are fresh but
whose groups start at the same places reports the same (`Relabels.report_eq`).
-/

namespace BareAnalysis

/-! ## The entries of all groups -/

/-- What the groups' ids would be computed from, suppressed or not. -/
def groupEntries (input : CorrelationInput) : List Entry :=
  (evidenceGroups input.evidence).map (entryOf input)

/-- A suppression silences a group with this entry. -/
def entrySilenced (input : CorrelationInput) (e : Entry) : Bool :=
  isSuppressed (indexSuppressions input.suppressions) e.ruleId e.valueHash e.path

section Entries

variable (input : CorrelationInput)

theorem map_entryOf_survivors (ruleId : String) :
    (survivors input ruleId).map (entryOf input) =
      if (input.pack.rulesById.get? ruleId).isSome then
        (groupEntries input).filter fun e => e.ruleId == ruleId && !entrySilenced input e
      else [] := by
  unfold survivors
  rw [groupEntries, List.filter_map, apply_ite (List.map (entryOf input)), List.map_nil]
  rfl

theorem map_entryOf_surviving :
    (surviving input).map (entryOf input) = (groupEntries input).filter fun e =>
      (input.pack.rulesById.get? e.ruleId).isSome && !entrySilenced input e := by
  rw [groupEntries, List.filter_map]
  rfl

theorem map_entryOf_clusterOrder (ruleId : String) :
    (clusterOrder input ruleId).map (entryOf input)
      = sortBy Entry.id ((survivors input ruleId).map (entryOf input)) :=
  map_sortBy _ _ _ _ fun _ _ _ _ => Iff.rfl

theorem anchorPathUnder_eq_entries (id : String) :
    anchorPathUnder input id = ((((surviving input).map (entryOf input)).find?
      fun e => e.id == id).map Entry.path).getD "" := by
  rw [anchorPathUnder, List.find?_map, Option.map_map]
  rfl

theorem report_eq_entries (ruleId : String) : report input ruleId =
    if ((survivors input ruleId).map (entryOf input)).length ≤ clusterThreshold then
      .values ((survivors input ruleId).map (entryOf input))
    else
      .cluster (((clusterOrder input ruleId).map (entryOf input)).map Entry.valueHash)
        ((((clusterOrder input ruleId).map (entryOf input)).head?.map fun e =>
          anchorPathUnder input e.id).getD "") := by
  rw [List.length_map, List.map_map, List.head?_map, Option.map_map]
  rfl

end Entries

section Same

variable {A B : CorrelationInput} (hpack : B.pack = A.pack) (hentries : groupEntries B = groupEntries A)
  (hsilenced : ∀ e ∈ groupEntries A, entrySilenced B e = entrySilenced A e)

include hpack hentries hsilenced in
/-- Entries that are silenced alike survive alike. -/
theorem survivors_eq_of_groupEntries (ruleId : String) :
    (survivors B ruleId).map (entryOf B) = (survivors A ruleId).map (entryOf A) := by
  rw [map_entryOf_survivors, map_entryOf_survivors, hpack, hentries]
  refine if_congr Iff.rfl (List.filter_congr fun e he => ?_) rfl
  rw [hsilenced e he]

include hpack hentries hsilenced in
/-- **Scans with the same pack, the same entries and the same suppressions of them report the
same.** -/
theorem report_eq_of_groupEntries (ruleId : String) : report B ruleId = report A ruleId := by
  have hsurviving : (surviving B).map (entryOf B) = (surviving A).map (entryOf A) := by
    rw [map_entryOf_surviving, map_entryOf_surviving, hpack, hentries]
    refine List.filter_congr fun e he => ?_
    rw [hsilenced e he]
  have hpath : anchorPathUnder B = anchorPathUnder A := by
    funext id
    rw [anchorPathUnder_eq_entries, anchorPathUnder_eq_entries, hsurviving]
  rw [report_eq_entries, report_eq_entries, map_entryOf_clusterOrder, map_entryOf_clusterOrder,
    survivors_eq_of_groupEntries hpack hentries hsilenced, hpath]

end Same

/-! ## Where a group starts -/

section First

variable {evidence evidence' : List Evidence}

/-- A group's first item has the least sort key. -/
theorem evidenceSortKey_first_le {g : EvidenceGroup} (hg : g ∈ evidenceGroups evidence)
    {e : Evidence} (he : e ∈ g.items) : evidenceSortKey g.first ≤ evidenceSortKey e := by
  have hsorted : g.items.Pairwise fun a b => evidenceSortKey a ≤ evidenceSortKey b := by
    rw [items_evidenceGroup hg]
    exact (pairwise_sortBy evidenceSortKey evidence).filter _
  obtain rfl | he := List.mem_cons.mp he
  · exact le_rfl
  · exact (List.pairwise_cons.mp hsorted).1 e he

theorem mem_keys_evidenceGroups {k : String × String} :
    k ∈ (evidenceGroups evidence).map Group.key ↔ ∃ e ∈ evidence, e.groupKey = k := by
  rw [evidenceGroups, ((sortBy_perm _ _).map Group.key).mem_iff, mem_keys_groupBy]
  simp only [mem_sortBy]

/-- **The same values of the same rules come in the same order.** -/
theorem keys_evidenceGroups_eq
    (h : ∀ k, (∃ e ∈ evidence', e.groupKey = k) ↔ ∃ e ∈ evidence, e.groupKey = k) :
    (evidenceGroups evidence').map Group.key = (evidenceGroups evidence).map Group.key := by
  have hstrict : ∀ evidence : List Evidence, ((evidenceGroups evidence).map Group.key).Pairwise
      fun k k' => (toLex k : String ×ₗ String) < toLex k' := fun evidence =>
    List.pairwise_map.mpr (pairwise_evidenceGroups evidence)
  refine eq_of_pairwise_key_lt (hstrict _) (hstrict _) fun k => ?_
  rw [mem_keys_evidenceGroups, mem_keys_evidenceGroups]
  exact h k

end First

/-! ## Other labels -/

/-- Scan `B` has the evidence of scan `A` under other labels: the artifacts that hold one value keep
their order and their paths, and the same groups are suppressed. -/
structure Relabels (φ : Evidence → Evidence) (A B : CorrelationInput) : Prop where
  pack : B.pack = A.pack
  evidence : B.evidence = A.evidence.map φ
  groupKey : ∀ e ∈ A.evidence, (φ e).groupKey = e.groupKey
  offset : ∀ e ∈ A.evidence, (φ e).offset = e.offset
  path : ∀ e ∈ A.evidence,
    pathOf B.artifactPaths (φ e).artifactId = pathOf A.artifactPaths e.artifactId
  order : ∀ a ∈ A.evidence, ∀ b ∈ A.evidence, a.groupKey = b.groupKey →
    ((φ a).artifactId ≤ (φ b).artifactId ↔ a.artifactId ≤ b.artifactId)
  silenced : ∀ e ∈ groupEntries A, entrySilenced B e = entrySilenced A e

namespace Relabels

variable {φ : Evidence → Evidence} {A B : CorrelationInput} (h : Relabels φ A B)

include h in
theorem keys_eq :
    (evidenceGroups B.evidence).map Group.key = (evidenceGroups A.evidence).map Group.key := by
  refine keys_evidenceGroups_eq fun k => ?_
  rw [h.evidence]
  constructor
  · rintro ⟨_, hmem, rfl⟩
    obtain ⟨e, he, rfl⟩ := List.mem_map.mp hmem
    exact ⟨e, he, (h.groupKey e he).symm⟩
  · rintro ⟨e, he, rfl⟩
    exact ⟨φ e, List.mem_map_of_mem he, h.groupKey e he⟩

include h in
/-- Within a group the sort keys compare as they did. -/
theorem evidenceSortKey_le {a b : Evidence} (ha : a ∈ A.evidence) (hb : b ∈ A.evidence)
    (hk : a.groupKey = b.groupKey) :
    evidenceSortKey a ≤ evidenceSortKey b ↔ evidenceSortKey (φ a) ≤ evidenceSortKey (φ b) := by
  have hab := h.order a ha b hb hk
  have hba := h.order b hb a ha hk.symm
  have hlt : (φ a).artifactId < (φ b).artifactId ↔ a.artifactId < b.artifactId := by
    rw [← not_le, ← not_le, hba]
  have heq : (φ a).artifactId = (φ b).artifactId ↔ a.artifactId = b.artifactId := by
    rw [le_antisymm_iff, le_antisymm_iff, hab, hba]
  obtain ⟨hra, hva⟩ := Prod.mk.inj (h.groupKey a ha)
  obtain ⟨hrb, hvb⟩ := Prod.mk.inj (h.groupKey b hb)
  simp only [evidenceSortKey, Prod.Lex.toLex_le_toLex, hlt, heq, hra, hva, hrb, hvb,
    h.offset a ha, h.offset b hb]

include h in
/-- A group of the relabelled evidence is the old one, item by item. -/
theorem items_eq {g g' : EvidenceGroup} (hg : g ∈ evidenceGroups A.evidence)
    (hg' : g' ∈ evidenceGroups B.evidence) (hkey : g.key = g'.key) : g'.items = g.items.map φ := by
  have hfilter : (A.evidence.map φ).filter (fun e => decide (e.groupKey = g.key))
      = (A.evidence.filter fun e => decide (e.groupKey = g.key)).map φ := by
    rw [List.filter_map]
    refine congrArg (List.map φ) (List.filter_congr fun e he => ?_)
    rw [Function.comp_apply, h.groupKey e he]
  rw [items_evidenceGroup hg, items_evidenceGroup hg', ← hkey, filter_sortBy, filter_sortBy,
    h.evidence, hfilter]
  refine (map_sortBy evidenceSortKey evidenceSortKey φ _ fun a ha b hb => ?_).symm
  obtain ⟨ha, hka⟩ := List.mem_filter.mp ha
  obtain ⟨hb, hkb⟩ := List.mem_filter.mp hb
  exact h.evidenceSortKey_le ha hb ((of_decide_eq_true hka).trans (of_decide_eq_true hkb).symm)

include h in
/-- **The groups start at the same places.** -/
theorem groupEntries_eq : groupEntries B = groupEntries A := by
  refine map_eq_map_of_map_eq h.keys_eq fun g' hg' g hg hkey => ?_
  have hfirst : g'.first = φ g.first := (List.cons.inj (h.items_eq hg hg' hkey.symm)).1
  have hmem := ((mem_items_evidenceGroup hg).mp g.first_mem_items).1
  simp only [entryOf, anchorPath, hkey, hfirst, h.path _ hmem, h.offset _ hmem]

include h in
/-- **…and every rule reports the same.** -/
theorem report_eq (ruleId : String) : report B ruleId = report A ruleId :=
  report_eq_of_groupEntries h.pack h.groupEntries_eq h.silenced ruleId

end Relabels

end BareAnalysis
