import BareAnalysis.Correlation.Places
import BareAnalysis.Correlation.Rescan

/-!
# Correlation/LosesNothing — every occurrence is somewhere, under a key of its own

    evidence item ──its group──▸ finding ◂──one id each──
          │                         ▴
          └──artifact, offset──▸ location, one each

`findings` has a composite primary key and `finding_locations` a unique constraint, so a scan whose
ids or places repeat is lost as a whole.  Between texts whose hashes do not collide neither happens,
clustered or not (`correlate_losesNothing`).
-/

namespace BareAnalysis

/-- The texts the ids of a scan are hashes of do not collide, before clustering or after, and what
they are joined from does not imitate the separator. -/
structure PayloadsApart (input : CorrelationInput) : Prop where
  ruleIds : ∀ e ∈ input.evidence, unitSepChar ∉ e.ruleId.toList
  valueHashes : ∀ e ∈ input.evidence, unitSepChar ∉ e.valueHash.toList
  ids : NoCollision cutHash
    (((surviving input).map (entryOf input) ++ entries input).map Entry.payload)

section Apart

variable {input : CorrelationInput} (h : PayloadsApart input)

/-- The entries ids are computed from, before clustering and after. -/
def allEntries (input : CorrelationInput) : List Entry :=
  (surviving input).map (entryOf input) ++ entries input

theorem entryOf_mem_allEntries {ruleId : String} {g : EvidenceGroup}
    (hg : g ∈ survivors input ruleId) : entryOf input g ∈ allEntries input := by
  refine List.mem_append_left _ (List.mem_map_of_mem ((mem_surviving input).mpr ?_))
  rwa [(mem_survivors.mp hg).2.2.1]

theorem entry_mem_allEntries {ruleId : String} {e : Entry}
    (he : e ∈ (report input ruleId).entries ruleId) : e ∈ allEntries input := by
  refine List.mem_append_right _ (mem_entries.mpr ?_)
  rwa [ruleId_of_mem_entries he]

include h in
/-- The parts of an entry keep clear of the separator. -/
theorem PayloadsApart.clear {e : Entry} (he : e ∈ allEntries input) :
    unitSepChar ∉ e.ruleId.toList ∧ unitSepChar ∉ e.valueHash.toList := by
  have hgroup : ∀ {ruleId : String} {g : EvidenceGroup}, g ∈ survivors input ruleId →
      unitSepChar ∉ ruleId.toList ∧ unitSepChar ∉ g.key.2.toList := fun hg => by
    obtain ⟨ev, hev, hr, hv⟩ := exists_evidence_of_mem_survivors hg
    exact ⟨hr ▸ h.ruleIds ev hev, hv ▸ h.valueHashes ev hev⟩
  rcases List.mem_append.mp he with he | he
  · obtain ⟨g, hg, rfl⟩ := List.mem_map.mp he
    exact hgroup ((mem_surviving input).mp hg)
  · have hmem := mem_entries.mp he
    obtain ⟨ev, hev, hr⟩ := exists_evidence_of_mem_entries hmem
    refine ⟨hr ▸ h.ruleIds ev hev, ?_⟩
    rcases mem_entries_cases hmem with ⟨-, g, hg, heq⟩ | ⟨-, hashes, path, -, heq⟩
    · rw [heq]
      exact (hgroup hg).2
    · rw [heq]
      exact (isDigest_sha256 _).not_mem (by decide)

include h in
/-- **Equal ids are equal entries.** -/
theorem PayloadsApart.entry_eq {e e' : Entry} (he : e ∈ allEntries input)
    (he' : e' ∈ allEntries input) (hid : e.id = e'.id) : e = e' := by
  have hpayload : e.payload = e'.payload :=
    h.ids _ (List.mem_map_of_mem he) _ (List.mem_map_of_mem he') hid
  obtain ⟨hrule, hvalue, hpath, hoffset⟩ := idPayload_inj (h.clear he).1 (h.clear he').1
    (h.clear he).2 (h.clear he').2 hpayload
  obtain ⟨r, v, p, o⟩ := e
  obtain ⟨r', v', p', o'⟩ := e'
  obtain rfl : r = r' := hrule
  obtain rfl : v = v' := hvalue
  obtain rfl : p = p' := hpath
  obtain rfl : o = o' := hoffset
  rfl

include h in
/-- Survivors with the same id are the same. -/
theorem PayloadsApart.survivor_eq {r r' : String} {g g' : EvidenceGroup}
    (hg : g ∈ survivors input r) (hg' : g' ∈ survivors input r')
    (hid : groupId input.artifactPaths g = groupId input.artifactPaths g') : g = g' := by
  have hentry := h.entry_eq (entryOf_mem_allEntries hg) (entryOf_mem_allEntries hg') hid
  refine evidenceGroup_eq (mem_survivors.mp hg).2.1 (mem_survivors.mp hg').2.1 ?_
  exact Prod.ext (congrArg Entry.ruleId hentry) (congrArg Entry.valueHash hentry)

/-! ## The ids -/

theorem nodup_entries (input : CorrelationInput) (ruleId : String) :
    ((report input ruleId).entries ruleId).Nodup := by
  rcases hr : report input ruleId with es | ⟨hashes, path⟩
  · exact (pairwise_entries hr).imp fun {a b} hlt heq => by
      rw [heq] at hlt
      exact lt_irrefl _ hlt
  · exact List.nodup_singleton _

include h in
/-- **No two findings of a scan share an id.** -/
theorem PayloadsApart.nodup_findingIds (runId : String) : (findingIds runId input).Nodup := by
  have hids : ∀ ruleId, (reportedFindings input runId ruleId).map Finding.id
      = ((report input ruleId).entries ruleId).map Entry.id := fun ruleId => by
    have hpairs := congrArg (List.map Prod.fst) (entries_reportedFindings input runId ruleId)
    rwa [List.map_map, List.map_map] at hpairs
  rw [findingIds, findings_correlate, ((sortBy_perm _ _).map Finding.id).nodup_iff,
    List.map_flatMap, List.nodup_flatMap]
  constructor
  · intro ruleId _
    rw [hids]
    exact (nodup_entries input ruleId).map_on fun e he e' he' hid =>
      h.entry_eq (entry_mem_allEntries he) (entry_mem_allEntries he') hid
  · refine (pairwise_reportedRules input runId).imp fun {r r'} hlt => ?_
    intro id hid hid'
    dsimp only at hid hid'
    rw [hids] at hid hid'
    obtain ⟨e, he, rfl⟩ := List.mem_map.mp hid
    obtain ⟨e', he', heq⟩ := List.mem_map.mp hid'
    have hsame := h.entry_eq (entry_mem_allEntries he) (entry_mem_allEntries he') heq.symm
    rw [← ruleId_of_mem_entries he, ← ruleId_of_mem_entries he', hsame] at hlt
    exact lt_irrefl _ hlt

/-! ## The places -/

/-- Of a list without repetitions, one item's share. -/
theorem flatMap_ite_self {α β : Type*} [DecidableEq α] {l : List α} (hnd : l.Nodup) {a : α}
    (ha : a ∈ l) (f : α → List β) : (l.flatMap fun b => if b = a then f b else []) = f a := by
  induction l with
  | nil => cases ha
  | cons b l ih =>
    obtain ⟨hb, hl⟩ := List.nodup_cons.mp hnd
    rw [List.flatMap_cons]
    by_cases hba : b = a
    · subst hba
      have hnil : (l.flatMap fun c => if c = b then f c else []) = [] :=
        List.flatMap_eq_nil_iff.mpr fun c hc => if_neg fun hcb : c = b => hb (hcb ▸ hc)
      rw [hnil, if_pos rfl, List.append_nil]
    · rw [if_neg hba, List.nil_append, ih hl ((List.mem_cons.mp ha).resolve_left fun h => hba h.symm)]

include h in
/-- Under a survivor's id lie the survivor's own locations. -/
theorem PayloadsApart.locationsUnder_eq (runId : String) {ruleId : String} {g : EvidenceGroup}
    (hg : g ∈ survivors input ruleId) :
    locationsUnder (beforeClustering input runId).locations (groupId input.artifactPaths g)
      = groupLocations runId input.artifactPaths g := by
  have hsurviving : g ∈ surviving input := by
    rw [mem_surviving, (mem_survivors.mp hg).2.2.1]
    exact hg
  have hnodup : (surviving input).Nodup := by
    refine List.Nodup.filter _ ?_
    exact (pairwise_evidenceGroups input.evidence).imp fun {a b} hlt heq => by
      rw [heq] at hlt
      exact lt_irrefl _ hlt
  have hown : ∀ g' ∈ surviving input, (groupLocations runId input.artifactPaths g').filter
      (fun l => l.findingId == groupId input.artifactPaths g)
        = if g' = g then groupLocations runId input.artifactPaths g' else [] := fun g' hg' => by
    split
    · rename_i heq
      refine List.filter_eq_self.mpr fun l hl => ?_
      rw [findingId_of_mem_groupLocations runId _ hl, heq]
      exact beq_self_eq_true _
    · rename_i hne
      refine List.filter_eq_nil_iff.mpr fun l hl hid => hne ?_
      rw [findingId_of_mem_groupLocations runId _ hl] at hid
      exact h.survivor_eq ((mem_surviving input).mp hg') hg (beq_iff_eq.mp hid)
  rw [locationsUnder, beforeClustering_eq, List.filter_flatMap, List.flatMap_congr hown]
  exact flatMap_ite_self hnodup hsurviving _

theorem place_nodup_of_keys {ls : List FindingLocation}
    (hkeys : (ls.map fun l => (l.artifactId, l.offset)).Nodup) :
    (ls.map FindingLocation.place).Nodup := by
  have hsnd : (ls.map fun l => (l.artifactId, l.offset))
      = (ls.map FindingLocation.place).map Prod.snd := by
    rw [List.map_map]
    rfl
  rw [hsnd] at hkeys
  exact List.Nodup.of_map _ hkeys

/-- The locations of a group are at different places. -/
theorem nodup_groupLocations (runId : String) (paths : Dict String String) (g : EvidenceGroup) :
    ((groupLocations runId paths g).map FindingLocation.place).Nodup := by
  refine place_nodup_of_keys ?_
  rw [groupLocations, List.map_map]
  exact nodup_keys_keepFirst (fun e : Evidence => (e.artifactId, e.offset)) g.items

/-- A rule's locations belong to its entries. -/
theorem exists_entry_of_mem_ruleLocations {runId ruleId : String} {l : FindingLocation}
    (hl : l ∈ ruleLocations input runId ruleId) :
    ∃ e ∈ (report input ruleId).entries ruleId, l.findingId = e.id := by
  obtain ⟨g, hg, -, ⟨hn, hid⟩ | ⟨hn, e, he, hid⟩⟩ :=
    (locatedAt_ruleLocations input runId ruleId _ _ _).mp ⟨l, hl, rfl⟩
  · refine ⟨entryOf input g, ?_, hid⟩
    rw [report_of_le hn]
    exact List.mem_map_of_mem hg
  · exact ⟨e, he, hid⟩

include h in
/-- **No two locations of a scan are at one place of one finding.** -/
theorem PayloadsApart.nodup_places (runId : String) :
    ((correlate runId input).locations.map FindingLocation.place).Nodup := by
  rw [locations_correlate, List.map_flatMap, List.nodup_flatMap]
  constructor
  · intro ruleId _
    rcases hrule : input.pack.rulesById.get? ruleId with - | rule
    · rw [ruleLocations_of_none input runId hrule]
      exact List.nodup_nil
    rcases le_or_gt (survivors input ruleId).length clusterThreshold with hn | hn
    · rw [ruleLocations_of_le runId hrule hn, List.map_flatMap, List.nodup_flatMap]
      constructor
      · intro g hg
        rw [h.locationsUnder_eq runId hg]
        exact nodup_groupLocations runId _ g
      · refine (pairwise_survivors input ruleId).imp_of_mem fun {g g'} hg hg' hlt => ?_
        intro place hplace hplace'
        obtain ⟨l, hl, rfl⟩ := List.mem_map.mp hplace
        obtain ⟨l', hl', heq⟩ := List.mem_map.mp hplace'
        have hid : groupId input.artifactPaths g = groupId input.artifactPaths g' := by
          rw [← (locatedAt_locationsUnder hl).2, ← (locatedAt_locationsUnder hl').2]
          exact (congrArg Prod.fst heq).symm
        rw [h.survivor_eq hg hg' hid] at hlt
        exact lt_irrefl _ hlt
    · obtain ⟨e, -, hlocs⟩ := ruleLocations_of_lt runId hrule hn
      rw [hlocs]
      refine place_nodup_of_keys ?_
      rw [List.map_map]
      exact nodup_keys_keepFirst (fun l : FindingLocation => (l.artifactId, l.offset)) _
  · refine (pairwise_reportedRules input runId).imp fun {r r'} hlt => ?_
    intro place hplace hplace'
    obtain ⟨l, hl, rfl⟩ := List.mem_map.mp hplace
    obtain ⟨l', hl', heq⟩ := List.mem_map.mp hplace'
    obtain ⟨e, he, hid⟩ := exists_entry_of_mem_ruleLocations hl
    obtain ⟨e', he', hid'⟩ := exists_entry_of_mem_ruleLocations hl'
    have hsame : e = e' := h.entry_eq (entry_mem_allEntries he) (entry_mem_allEntries he') <| by
      rw [← hid, ← hid']
      exact (congrArg Prod.fst heq).symm
    rw [id, id, ← ruleId_of_mem_entries he, ← ruleId_of_mem_entries he', hsame] at hlt
    exact lt_irrefl _ hlt

include h in
/-- **A location belongs to a finding, and lies where evidence of its rule does.** -/
theorem PayloadsApart.exists_finding_and_evidence {runId : String} {l : FindingLocation}
    (hl : l ∈ (correlate runId input).locations) :
    ∃ f ∈ (correlate runId input).findings, f.id = l.findingId ∧
      ∃ e ∈ input.evidence, e.ruleId = f.ruleId ∧ e.artifactId = l.artifactId ∧
        e.offset = l.offset := by
  obtain ⟨ruleId, hloc⟩ := (locatedAt_correlate input runId _ _ _).mp ⟨l, hl, rfl⟩
  obtain ⟨g, hg, hbefore, -⟩ := (locatedAt_ruleLocations input runId ruleId _ _ _).mp hloc
  obtain ⟨g', hg', hid, e, he, ha, ho⟩ := (locatedAt_beforeClustering input runId _ _ _).mp hbefore
  obtain rfl : g' = g := h.survivor_eq ((mem_surviving input).mp hg') hg hid
  obtain ⟨hev, hkey⟩ := (mem_items_evidenceGroup (mem_survivors.mp hg).2.1).mp he
  obtain ⟨l', hl', hplace⟩ := hloc
  obtain ⟨entry, hentry, hentryId⟩ := exists_entry_of_mem_ruleLocations hl'
  have hrule := ruleId_of_mem_entries hentry
  obtain ⟨f, hf, hfrule, hfid, -⟩ :=
    exists_finding_of_mem_entries runId (mem_entries.mpr (by rwa [hrule]))
  refine ⟨f, hf, ?_, e, hev, ?_, ha, ho⟩
  · exact (hfid.trans hentryId.symm).trans (congrArg Prod.fst hplace)
  · rw [hfrule, hrule, ← (mem_survivors.mp hg).2.2.1, ← hkey]
    rfl

include h in
/-- **Correlation loses nothing and keeps its keys apart**: the ids differ, the places differ, every
location belongs to a finding, every unsuppressed item of an enabled rule is located by a finding of
that rule, and every location comes from an item. -/
theorem correlate_losesNothing (runId : String) :
    ((correlate runId input).findings.map Finding.id).Nodup ∧
      (∀ l ∈ (correlate runId input).locations,
        ∃ f ∈ (correlate runId input).findings, f.id = l.findingId) ∧
      ((correlate runId input).locations.map FindingLocation.place).Nodup ∧
      (∀ e ∈ input.evidence, (input.pack.rulesById.get? e.ruleId).isSome = true →
        (∀ g ∈ evidenceGroups input.evidence, g.key = e.groupKey → silenced input g = false) →
          ∃ f ∈ (correlate runId input).findings, f.ruleId = e.ruleId ∧
            (correlate runId input).LocatesAt f e) ∧
      ∀ l ∈ (correlate runId input).locations,
        ∃ e ∈ input.evidence, e.artifactId = l.artifactId ∧ e.offset = l.offset := by
  refine ⟨h.nodup_findingIds runId, fun l hl => ?_, h.nodup_places runId,
    fun e he henabled hreported => ?_, fun l hl => ?_⟩
  · obtain ⟨f, hf, hid, -⟩ := h.exists_finding_and_evidence hl
    exact ⟨f, hf, hid⟩
  · obtain ⟨g, hgroup, hkey, hitem⟩ := exists_evidenceGroup he
    have hg : g ∈ survivors input e.ruleId := mem_survivors.mpr
      ⟨henabled, hgroup, congrArg Prod.fst hkey, hreported g hgroup hkey⟩
    obtain ⟨f, hf, -, hloc⟩ := exists_finding_locatesAt runId hg hitem
    have hrule := ruleId_of_mem_reportedFindings hf
    exact ⟨f, (mem_findings_correlate input runId).mpr (by rwa [hrule]), hrule, hloc⟩
  · obtain ⟨-, -, -, e, he, -, ha, ho⟩ := h.exists_finding_and_evidence hl
    exact ⟨e, he, ha, ho⟩

end Apart

theorem payloadsApart_twoFiles :
    PayloadsApart (twoFiles [passwordIn "a1" 'a', passwordIn "a2" 'a']) where
  ruleIds := by decide
  valueHashes := fun e he => by
    have hdigest : IsDigest e.valueHash := by
      rcases List.mem_pair.mp he with rfl | rfl
      · exact isDigest_digestOf (by decide)
      · exact isDigest_digestOf (by decide)
    exact hdigest.not_mem (by decide)
  ids := by
    unfold NoCollision
    decide +kernel

/-- One value in two files is one finding with two places. -/
theorem correlate_losesNothing_twoFiles :
    ((correlate "run" (twoFiles [passwordIn "a1" 'a', passwordIn "a2" 'a'])).locations.map
        FindingLocation.place).Nodup ∧
      ∃ f ∈ (correlate "run" (twoFiles [passwordIn "a1" 'a', passwordIn "a2" 'a'])).findings,
        f.ruleId = "password" ∧
          (correlate "run" (twoFiles [passwordIn "a1" 'a', passwordIn "a2" 'a'])).LocatesAt f
            (passwordIn "a2" 'a') := by
  have h := correlate_losesNothing payloadsApart_twoFiles "run"
  exact ⟨h.2.2.1, h.2.2.2.1 (passwordIn "a2" 'a') (by simp [twoFiles]) (by decide) (by decide)⟩

end BareAnalysis
