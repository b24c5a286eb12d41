import BareAnalysis.Correlation.Identity

/-!
# Correlation/Places — where the findings of a scan are

    groups ──first of each place──▸ locations under the group's id
                                        │
                      at most 20 values ┴ more: all of them, under the cluster's id

`locatedAt_correlate` reads the locations of `correlate` off the groups: which id, which artifact,
which offset.
-/

namespace BareAnalysis

/-- Where a location points: its finding, the artifact and the offset. -/
def FindingLocation.place (l : FindingLocation) : String × String × Option ℤ :=
  (l.findingId, l.artifactId, l.offset)

/-- The locations point an id to this artifact and offset. -/
def LocatedAt (locations : List FindingLocation) (id artifactId : String) (offset : Option ℤ) :
    Prop := ∃ l ∈ locations, l.place = (id, artifactId, offset)

/-- Some item of the group is at this artifact and offset. -/
def OccursAt (g : EvidenceGroup) (artifactId : String) (offset : Option ℤ) : Prop :=
  ∃ e ∈ g.items, e.artifactId = artifactId ∧ e.offset = offset

section Before

variable (input : CorrelationInput) (runId : String)

theorem mem_surviving {g : EvidenceGroup} :
    g ∈ surviving input ↔ g ∈ survivors input g.key.1 := by
  rw [mem_survivors, surviving, List.mem_filter, Bool.and_eq_true, Bool.not_eq_true']
  tauto

/-- **Before clustering**, an id is located where a group with that id occurs. -/
theorem locatedAt_beforeClustering (id artifactId : String) (offset : Option ℤ) :
    LocatedAt (beforeClustering input runId).locations id artifactId offset ↔
      ∃ g ∈ surviving input, groupId input.artifactPaths g = id ∧
        OccursAt g artifactId offset := by
  rw [LocatedAt, beforeClustering_eq]
  constructor
  · rintro ⟨l, hl, hplace⟩
    obtain ⟨g, hg, hl⟩ := List.mem_flatMap.mp hl
    obtain ⟨e, he, rfl⟩ := List.mem_map.mp hl
    obtain ⟨hid, hat⟩ := Prod.mk.inj hplace
    obtain ⟨ha, ho⟩ := Prod.mk.inj hat
    exact ⟨g, hg, hid, e, mem_of_mem_keepFirst he, ha, ho⟩
  · rintro ⟨g, hg, hid, e, he, ha, ho⟩
    obtain ⟨e', he', hk⟩ :=
      @exists_mem_keepFirst _ _ _ (fun e : Evidence => (e.artifactId, e.offset)) _ _ he
    obtain ⟨hka, hko⟩ := Prod.mk.inj hk
    refine ⟨_, List.mem_flatMap.mpr ⟨g, hg, List.mem_map.mpr ⟨e', he', rfl⟩⟩, ?_⟩
    exact Prod.ext hid (Prod.ext (hka.trans ha) (hko.trans ho))

theorem locatedAt_locationsUnder {locations : List FindingLocation} {id : String}
    {l : FindingLocation} (hl : l ∈ locationsUnder locations id) : l ∈ locations ∧ l.findingId = id :=
  ⟨(List.mem_filter.mp hl).1, by simpa using (List.mem_filter.mp hl).2⟩

end Before

/-! ## After clustering -/

section Rule

variable (input : CorrelationInput) (runId : String)

/-- The locations of one rule after clustering. -/
def ruleLocations (ruleId : String) : List FindingLocation :=
  (clusterRule runId input.pack.rulesById (beforeClustering input runId).locations ruleId
    ((beforeClustering input runId).findings.filter fun f => f.ruleId = ruleId)).2

theorem ruleLocations_of_none {ruleId : String}
    (hrule : input.pack.rulesById.get? ruleId = none) : ruleLocations input runId ruleId = [] := by
  rw [ruleLocations, filter_findings_of_none input runId hrule]
  rfl

variable {input} {ruleId : String} {rule : Rule}

/-- Up to 20 values: the locations under each group's id. -/
theorem ruleLocations_of_le (hrule : input.pack.rulesById.get? ruleId = some rule)
    (hn : (survivors input ruleId).length ≤ clusterThreshold) :
    ruleLocations input runId ruleId = (survivors input ruleId).flatMap fun g =>
      locationsUnder (beforeClustering input runId).locations (groupId input.artifactPaths g) := by
  rw [ruleLocations, filter_findings input runId hrule, clusterRule, if_pos (by simpa using hn),
    List.flatMap_map]
  rfl

/-- More: all of them, each artifact and offset once, under the id of the rule's one entry. -/
theorem ruleLocations_of_lt (hrule : input.pack.rulesById.get? ruleId = some rule)
    (hn : clusterThreshold < (survivors input ruleId).length) :
    ∃ e, (report input ruleId).entries ruleId = [e] ∧
      ruleLocations input runId ruleId
        = (keepFirst (fun l => (l.artifactId, l.offset))
            ((clusterOrder input ruleId).flatMap fun g =>
              locationsUnder (beforeClustering input runId).locations
                (groupId input.artifactPaths g))).map fun l => { l with findingId := e.id } := by
  obtain ⟨anchor, rest, cluster, hord, -, heq⟩ := clusterRule_of_lt runId hrule hn
  obtain ⟨path, hr⟩ := report_of_lt hn
  have hentries := entries_reportedFindings input runId ruleId
  rw [hr, reportedFindings, heq] at hentries
  refine ⟨_, by rw [hr]; rfl, ?_⟩
  have hid : cluster.id = Entry.id _ := (Prod.mk.inj (List.cons.inj hentries).1).1
  rw [ruleLocations, heq, ← hid, hord, clusterLocations, List.flatMap_map]
  rfl

variable (input ruleId)

/-- **Where one rule's findings are located.** -/
theorem locatedAt_ruleLocations (id artifactId : String) (offset : Option ℤ) :
    LocatedAt (ruleLocations input runId ruleId) id artifactId offset ↔
      ∃ g ∈ survivors input ruleId,
        LocatedAt (beforeClustering input runId).locations (groupId input.artifactPaths g)
            artifactId offset ∧
          ((survivors input ruleId).length ≤ clusterThreshold ∧
              id = groupId input.artifactPaths g ∨
            clusterThreshold < (survivors input ruleId).length ∧
              ∃ e ∈ (report input ruleId).entries ruleId, id = e.id) := by
  rcases hrule : input.pack.rulesById.get? ruleId with - | rule
  · rw [ruleLocations_of_none input runId hrule, survivors_of_none hrule]
    constructor
    · rintro ⟨l, hl, -⟩
      cases hl
    · rintro ⟨g, hg, -⟩
      cases hg
  rcases le_or_gt (survivors input ruleId).length clusterThreshold with hn | hn
  · rw [ruleLocations_of_le runId hrule hn]
    constructor
    · rintro ⟨l, hl, hplace⟩
      obtain ⟨g, hg, hl⟩ := List.mem_flatMap.mp hl
      obtain ⟨hmem, hid⟩ := locatedAt_locationsUnder hl
      have hid' : id = groupId input.artifactPaths g := by
        rw [← hid]
        exact (congrArg Prod.fst hplace).symm
      exact ⟨g, hg, ⟨l, hmem, by rw [hplace, hid']⟩, Or.inl ⟨hn, hid'⟩⟩
    · rintro ⟨g, hg, ⟨l, hl, hplace⟩, ⟨-, rfl⟩ | ⟨hlt, -⟩⟩
      · refine ⟨l, List.mem_flatMap.mpr ⟨g, hg, List.mem_filter.mpr ⟨hl, ?_⟩⟩, hplace⟩
        exact beq_iff_eq.mpr (congrArg Prod.fst hplace)
      · exact absurd hlt (not_lt.mpr hn)
  · obtain ⟨e, he, hlocs⟩ := ruleLocations_of_lt runId hrule hn
    rw [hlocs, he]
    constructor
    · rintro ⟨_, hmapped, hplace⟩
      obtain ⟨l, hkept, rfl⟩ := List.mem_map.mp hmapped
      obtain ⟨g, hg, hl⟩ := List.mem_flatMap.mp (mem_of_mem_keepFirst hkept)
      obtain ⟨hmem, hid⟩ := locatedAt_locationsUnder hl
      obtain ⟨hplace, hat⟩ := Prod.mk.inj hplace
      exact ⟨g, mem_clusterOrder.mp hg, ⟨l, hmem, Prod.ext hid hat⟩,
        Or.inr ⟨hn, e, List.mem_singleton_self _, hplace.symm⟩⟩
    · rintro ⟨g, hg, ⟨l, hl, hplace⟩, ⟨hle, -⟩ | ⟨-, e', he', rfl⟩⟩
      · exact absurd hn (not_lt.mpr hle)
      · obtain rfl := List.mem_singleton.mp he'
        obtain ⟨hid, hat⟩ := Prod.mk.inj hplace
        have hl' : l ∈ (clusterOrder input ruleId).flatMap fun g =>
            locationsUnder (beforeClustering input runId).locations
              (groupId input.artifactPaths g) :=
          List.mem_flatMap.mpr ⟨g, mem_clusterOrder.mpr hg,
            List.mem_filter.mpr ⟨hl, beq_iff_eq.mpr hid⟩⟩
        obtain ⟨l', hkept, hk⟩ :=
          @exists_mem_keepFirst _ _ _ (fun l : FindingLocation => (l.artifactId, l.offset)) _ _ hl'
        exact ⟨_, List.mem_map.mpr ⟨l', hkept, rfl⟩, Prod.ext rfl (hk.trans hat)⟩

end Rule

section Whole

variable (input : CorrelationInput) (runId : String)

/-- **The locations of `correlate`, rule by rule.** -/
theorem locations_correlate : (correlate runId input).locations
    = (reportedRules input runId).flatMap (ruleLocations input runId) := by
  have hgroups : ∀ g ∈ sortBy Group.key (groupBy Finding.ruleId
      (beforeClustering input runId).findings),
      (clusterRule runId input.pack.rulesById (beforeClustering input runId).locations g.key
        g.items).2 = ruleLocations input runId g.key := fun g hg => by
    rw [ruleLocations, items_of_mem_groupBy (mem_sortBy.mp hg)]
  change List.flatMap Prod.snd (List.map _ _) = _
  rw [List.flatMap_map, reportedRules, List.flatMap_map]
  exact List.flatMap_congr fun g hg => hgroups g hg

/-- **Where the findings of a scan are located.** -/
theorem locatedAt_correlate (id artifactId : String) (offset : Option ℤ) :
    LocatedAt (correlate runId input).locations id artifactId offset ↔
      ∃ ruleId, LocatedAt (ruleLocations input runId ruleId) id artifactId offset := by
  rw [locations_correlate]
  constructor
  · rintro ⟨l, hl, hplace⟩
    obtain ⟨r, -, hl⟩ := List.mem_flatMap.mp hl
    exact ⟨r, l, hl, hplace⟩
  · rintro ⟨r, hloc⟩
    obtain ⟨g, hg, -⟩ := (locatedAt_ruleLocations input runId r id artifactId offset).mp hloc
    obtain ⟨l, hl, hplace⟩ := hloc
    exact ⟨l, List.mem_flatMap.mpr ⟨r, (mem_reportedRules input runId).mpr
      (List.ne_nil_of_mem hg), hl⟩, hplace⟩

end Whole

end BareAnalysis
