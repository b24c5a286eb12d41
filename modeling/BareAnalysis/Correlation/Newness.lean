import BareAnalysis.Correlation.Identity
import BareAnalysis.Pipeline.Gate

/-!
# Correlation/Newness — what counts as introduced by this build

    baseline A ──ids──▸ old          scan B ──ids──▸ f is new ⟺ f.id not old

The gate compares ids.  A value that occurs nowhere in the baseline is always new
(`new_value_is_new`); the converse fails, because the id of a finding also holds the place of its
first occurrence, and a cluster's the whole set of values (`introducesNothing_iff_within`).
-/

namespace BareAnalysis

/-! ## Where a finding's locations are -/

/-- The result lists a location of the finding at the place of the evidence. -/
def CorrelationResult.LocatesAt (result : CorrelationResult) (f : Finding) (e : Evidence) : Prop :=
  ∃ l ∈ result.locations, l.findingId = f.id ∧ l.artifactId = e.artifactId ∧ l.offset = e.offset

section Locations

variable {input : CorrelationInput} {runId ruleId : String} {rule : Rule}

/-- The locations of one rule after clustering. -/
theorem locations_subset_correlate (h : ruleId ∈ reportedRules input runId) :
    (clusterRule runId input.pack.rulesById (beforeClustering input runId).locations ruleId
      ((beforeClustering input runId).findings.filter fun f => f.ruleId = ruleId)).2
        ⊆ (correlate runId input).locations := by
  intro l hl
  obtain ⟨g, hg, rfl⟩ := List.mem_map.mp h
  rw [← items_of_mem_groupBy (mem_sortBy.mp hg)] at hl
  exact List.mem_flatMap.mpr ⟨_, List.mem_map.mpr ⟨g, hg, rfl⟩, hl⟩

/-- A group has a location at each of its items. -/
theorem exists_groupLocation (runId : String) (paths : Dict String String) {g : EvidenceGroup} {e : Evidence}
    (he : e ∈ g.items) :
    ∃ l ∈ groupLocations runId paths g,
      l.findingId = groupId paths g ∧ l.artifactId = e.artifactId ∧ l.offset = e.offset := by
  obtain ⟨e', he', hk⟩ :=
    @exists_mem_keepFirst _ _ _ (fun e : Evidence => (e.artifactId, e.offset)) _ _ he
  obtain ⟨ha, ho⟩ := Prod.mk.inj hk
  exact ⟨_, List.mem_map.mpr ⟨e', he', rfl⟩, rfl, ha, ho⟩

variable (runId) in
/-- …and so has its rule before clustering, under the group's id. -/
theorem exists_locationUnder {g : EvidenceGroup} (hg : g ∈ survivors input ruleId) {e : Evidence}
    (he : e ∈ g.items) :
    ∃ l ∈ locationsUnder (beforeClustering input runId).locations (groupId input.artifactPaths g),
      l.artifactId = e.artifactId ∧ l.offset = e.offset := by
  obtain ⟨l, hl, hid, ha, ho⟩ := exists_groupLocation runId input.artifactPaths he
  obtain ⟨hsome, hgroup, hr, hsil⟩ := mem_survivors.mp hg
  refine ⟨l, List.mem_filter.mpr ⟨?_, by rw [hid]; exact beq_self_eq_true _⟩, ha, ho⟩
  rw [beforeClustering_eq]
  refine List.mem_flatMap.mpr ⟨g, List.mem_filter.mpr ⟨hgroup, ?_⟩, hl⟩
  rw [hr, hsome, hsil]
  rfl

variable (runId) in
/-- **Every item of a survivor is located**, by its own finding or by its rule's cluster. -/
theorem exists_finding_locatesAt {g : EvidenceGroup} (hg : g ∈ survivors input ruleId)
    {e : Evidence} (he : e ∈ g.items) :
    ∃ f ∈ reportedFindings input runId ruleId,
      ((survivors input ruleId).length ≤ clusterThreshold → f.valueHash = g.key.2) ∧
        (correlate runId input).LocatesAt f e := by
  obtain ⟨rule, hrule⟩ := Option.isSome_iff_exists.mp (mem_survivors.mp hg).1
  have hmem : ruleId ∈ reportedRules input runId :=
    (mem_reportedRules input runId).mpr (List.ne_nil_of_mem hg)
  have hsub := locations_subset_correlate hmem
  obtain ⟨l, hl, ha, ho⟩ := exists_locationUnder runId hg he
  rw [← plainFinding_id runId input.artifactPaths rule g] at hl
  rcases le_or_gt (survivors input ruleId).length clusterThreshold with hn | hn
  · refine ⟨plainFinding runId input.artifactPaths rule g, ?_, fun _ => rfl, l, hsub ?_, ?_, ha, ho⟩
    · rw [reportedFindings_of_le hrule hn]
      exact List.mem_map_of_mem hg
    · rw [filter_findings input runId hrule, clusterRule, if_pos (by simpa using hn)]
      exact List.mem_flatMap.mpr ⟨_, List.mem_map_of_mem hg, hl⟩
    · exact beq_iff_eq.mp (List.mem_filter.mp hl).2
  · obtain ⟨anchor, rest, cluster, hord, -, heq⟩ := clusterRule_of_lt runId hrule hn
    have hgord : plainFinding runId input.artifactPaths rule g
        ∈ (anchor :: rest).map (plainFinding runId input.artifactPaths rule) :=
      List.mem_map_of_mem (by rw [← hord]; exact mem_clusterOrder.mpr hg)
    have hall : l ∈ ((anchor :: rest).map (plainFinding runId input.artifactPaths rule)).flatMap
        fun f => locationsUnder (beforeClustering input runId).locations f.id :=
      List.mem_flatMap.mpr ⟨_, hgord, hl⟩
    obtain ⟨l', hl', hk⟩ :=
      @exists_mem_keepFirst _ _ _ (fun l : FindingLocation => (l.artifactId, l.offset)) _ _ hall
    obtain ⟨hka, hko⟩ := Prod.mk.inj hk
    refine ⟨cluster, ?_, fun hle => absurd hn (not_lt.mpr hle), { l' with findingId := cluster.id },
      hsub ?_, rfl, hka.trans ha, hko.trans ho⟩
    · rw [reportedFindings, heq]
      exact List.mem_singleton_self _
    · rw [heq]
      exact List.mem_map.mpr ⟨l', hl', rfl⟩

end Locations

/-! ## A new value is new -/

/-- The finding stands for the evidence: its own, or the cluster of its rule. -/
def StandsFor (input : CorrelationInput) (f : Finding) (e : Evidence) : Prop :=
  f.ruleId = e.ruleId ∧
    (f.valueHash = e.valueHash ∨ clusterThreshold < (survivors input e.ruleId).length)

/-- **A secret introduced by this build is never counted as inherited.**  The value of an enabled
rule that nothing suppresses and that the baseline does not hold is located by a finding that stands
for it, and every such finding has an id the baseline does not know, so the gate marks it new. -/
theorem new_value_is_new {A B : CorrelationInput} (h : HashesApart A B) {e : Evidence}
    (he : e ∈ B.evidence) (henabled : (B.pack.rulesById.get? e.ruleId).isSome)
    (hreported : ∀ g ∈ evidenceGroups B.evidence, g.key = e.groupKey → silenced B g = false)
    (hnew : ∀ a ∈ A.evidence, a.groupKey ≠ e.groupKey) (runA runB : String) :
    (∃ f ∈ (correlate runB B).findings,
        StandsFor B f e ∧ (correlate runB B).LocatesAt f e) ∧
      ∀ f ∈ (correlate runB B).findings, StandsFor B f e →
        f.id ∉ findingIds runA A ∧
          ∀ db baseline, baseline.findingIds = findingIds runA A →
            ∀ g ∈ collectGateFindings db runB baseline, g.id = f.id → g.isNew = true := by
  obtain ⟨g, hgroup, hkey, hitem⟩ := exists_evidenceGroup he
  have hkey1 : g.key.1 = e.ruleId := congrArg Prod.fst hkey
  have hkey2 : g.key.2 = e.valueHash := congrArg Prod.snd hkey
  have hg : g ∈ survivors B e.ruleId :=
    mem_survivors.mpr ⟨henabled, hgroup, hkey1, hreported g hgroup hkey⟩
  -- no survivor of the baseline has this rule and this value
  have hfresh : ∀ gA ∈ survivors A e.ruleId, gA.key.2 ≠ e.valueHash := fun gA hgA hval => by
    obtain ⟨a, ha, hr, hv⟩ := exists_evidence_of_mem_survivors hgA
    exact hnew a ha (Prod.ext hr (hv.trans hval))
  have hout : ∀ f ∈ (correlate runB B).findings, StandsFor B f e → f.id ∉ findingIds runA A := by
    rintro f hf ⟨hrule, hstands⟩ hin
    obtain ⟨entry, hentry, hr, hid, hv⟩ := exists_entry_of_mem_findings hf
    rw [← hid, h.mem_findingIds_iff _ hentry] at hin
    have hinA := mem_entries.mp hin
    have hinB := mem_entries.mp hentry
    rw [hr, hrule] at hinA hinB
    rcases mem_entries_cases hinB with ⟨hn, gB, hgB, heqB⟩ | ⟨hn, hs, p, hrB, heqB⟩
    · -- plain in B: the entry holds the value itself
      have hval : entry.valueHash = e.valueHash :=
        hv.trans (hstands.resolve_right (not_lt.mpr hn))
      rcases mem_entries_cases hinA with ⟨-, gA, hgA, heqA⟩ | ⟨-, hsA, pA, hrA, heqA⟩
      · exact hfresh gA hgA (by rw [← hval, heqA]; rfl)
      · refine h.apart e (List.mem_append_right _ he) _
          (List.mem_append_left _ (clusterText_mem hrA)) ?_
        rw [← hval, heqA]
        rfl
    · -- a cluster in B: the entry holds the hash over all values
      rcases mem_entries_cases hinA with ⟨-, gA, hgA, heqA⟩ | ⟨-, hsA, pA, hrA, heqA⟩
      · obtain ⟨a, ha, -, hva⟩ := exists_evidence_of_mem_survivors hgA
        refine h.apart a (List.mem_append_left _ ha) _
          (List.mem_append_right _ (clusterText_mem hrB)) ?_
        have hsame := congrArg Entry.valueHash (heqA.symm.trans heqB)
        exact hva.trans hsame
      · have hhash := congrArg Entry.valueHash (heqA.symm.trans heqB)
        have hlists := h.hashes_eq hrA hrB hhash
        have hmem : e.valueHash ∈ hsA := by
          rw [hlists]
          exact (mem_hashes_of_report hrB).mpr ⟨g, hg, hkey2⟩
        obtain ⟨gA, hgA, hvalA⟩ := (mem_hashes_of_report hrA).mp hmem
        exact hfresh gA hgA hvalA
  refine ⟨?_, fun f hf hstands => ⟨hout f hf hstands, fun db baseline hbase gf hgf hid => ?_⟩⟩
  · obtain ⟨f, hf, hval, hloc⟩ := exists_finding_locatesAt runB hg hitem
    have hrule := ruleId_of_mem_reportedFindings hf
    refine ⟨f, (mem_findings_correlate B runB).mpr (by rwa [hrule]), ⟨hrule, ?_⟩, hloc⟩
    rcases le_or_gt (survivors B e.ruleId).length clusterThreshold with hn | hn
    · exact Or.inl ((hval hn).trans hkey2)
    · exact Or.inr hn
  · obtain ⟨row, -, rfl⟩ := List.mem_map.mp hgf
    have hnot : row.id ∉ baseline.findingIds := by
      rw [hbase, show row.id = f.id from hid]
      exact hout f hf hstands
    change (!baseline.findingIds.contains row.id) = true
    simpa using hnot

/-! ## A new value, in numbers -/

/-- One enabled rule. -/
def passwordPack : RulePack where
  version := "1"
  rules := [{ id := "password", name := "Password", category := "credential", severity := .high }]
  hash := "pack"

/-- The value hash of a repeated digit. -/
def digestOf (digit : Char) : String := String.ofList (List.replicate 64 digit)

theorem isDigest_digestOf {digit : Char} (h : isHexDigit digit = true) :
    IsDigest (digestOf digit) := by
  refine ⟨by simp [digestOf], fun c hc => ?_⟩
  rw [digestOf, String.toList_ofList] at hc
  rwa [List.eq_of_mem_replicate hc]

/-- An occurrence of a value of the rule in an artifact. -/
def passwordIn (artifactId : String) (digit : Char) : Evidence :=
  { artifactId := artifactId, ruleId := "password", valueHash := digestOf digit, offset := some 7 }

/-- A scan of two files, `x.cfg` and `y.cfg`. -/
def twoFiles (evidence : List Evidence) : CorrelationInput where
  evidence := evidence
  pack := passwordPack
  artifactPaths := [("a1", "x.cfg"), ("a2", "y.cfg")]

theorem hashesApart_twoFiles :
    HashesApart (twoFiles [passwordIn "a1" 'a']) (twoFiles [passwordIn "a1" 'b']) where
  ruleIds := by decide
  valueHashes := by
    intro e he
    rcases List.mem_pair.mp he with rfl | rfl
    · exact isDigest_digestOf (by decide)
    · exact isDigest_digestOf (by decide)
  ids := noCollision_of_nodup (by decide +kernel)
  clusters := noCollision_of_nodup (by decide +kernel)
  apart := by
    have hnone : clusterTexts (twoFiles [passwordIn "a1" 'a'])
        ++ clusterTexts (twoFiles [passwordIn "a1" 'b']) = [] := by decide +kernel
    rw [hnone]
    rintro _ _ _ ⟨⟩

/-- A second value in a file of the baseline is new. -/
theorem new_value_is_new_twoFiles :
    (∃ f ∈ (correlate "b" (twoFiles [passwordIn "a1" 'b'])).findings,
        StandsFor (twoFiles [passwordIn "a1" 'b']) f (passwordIn "a1" 'b') ∧
          (correlate "b" (twoFiles [passwordIn "a1" 'b'])).LocatesAt f (passwordIn "a1" 'b')) ∧
      ∀ f ∈ (correlate "b" (twoFiles [passwordIn "a1" 'b'])).findings,
        StandsFor (twoFiles [passwordIn "a1" 'b']) f (passwordIn "a1" 'b') →
          f.id ∉ findingIds "a" (twoFiles [passwordIn "a1" 'a']) ∧
            ∀ db baseline, baseline.findingIds = findingIds "a" (twoFiles [passwordIn "a1" 'a']) →
              ∀ g ∈ collectGateFindings db "b" baseline, g.id = f.id → g.isNew = true :=
  new_value_is_new hashesApart_twoFiles (List.mem_singleton_self _) (by decide)
    (by decide) (by decide) "a" "b"

/-! ## A removed value may make others new -/

/-- Nothing of scan `B` is new against baseline `A`: no id, no finding the gate marks, and no gate
that looks at new findings only is blocked. -/
def IntroducesNothing (A B : CorrelationInput) : Prop :=
  ∀ runA runB, findingIds runB B ⊆ findingIds runA A ∧
    ∀ db baseline, (∀ f ∈ db.findingsOf runB, f.id ∈ findingIds runB B) →
      baseline.findingIds = findingIds runA A →
        (∀ g ∈ collectGateFindings db runB baseline, g.isNew = false) ∧
          ∀ policy waivers stages today, policy.baselineMode = .newOnly →
            (evaluate (collectGateFindings db runB baseline) policy waivers stages
              today).decision ≠ .blocked

/-- A scan whose reports lie within the baseline's introduces nothing. -/
theorem introducesNothing_of_within {A B : CorrelationInput}
    (h : ∀ ruleId, (report B ruleId).Within (report A ruleId)) : IntroducesNothing A B := by
  intro runA runB
  have hids : findingIds runB B ⊆ findingIds runA A := fun id hid => by
    obtain ⟨e, he, rfl⟩ := mem_findingIds.mp hid
    exact mem_findingIds.mpr
      ⟨e, mem_entries.mpr ((h e.ruleId).subset e.ruleId (mem_entries.mp he)), rfl⟩
  refine ⟨hids, fun db baseline hrows hbase => ?_⟩
  have hold : ∀ g ∈ collectGateFindings db runB baseline, g.isNew = false := fun g hg => by
    obtain ⟨row, hrow, rfl⟩ := List.mem_map.mp hg
    have hmem : row.id ∈ baseline.findingIds := by
      rw [hbase]
      exact hids (hrows row hrow)
    change (!baseline.findingIds.contains row.id) = false
    simpa using hmem
  exact ⟨hold, fun policy waivers stages today hmode =>
    decision_ne_blocked_of_inherited _ _ _ _ _ hmode hold⟩

/-- **Nothing is new exactly when every report lies within the baseline's**: rule by rule, either at
most 20 values on both sides and each value's first occurrence at the same place, or the same
cluster.  Only the converse rests on the hashes. -/
theorem introducesNothing_iff_within (A B : CorrelationInput) :
    ((∀ ruleId, (report B ruleId).Within (report A ruleId)) → IntroducesNothing A B) ∧
      (HashesApart A B →
        (IntroducesNothing A B ↔ ∀ ruleId, (report B ruleId).Within (report A ruleId))) := by
  refine ⟨introducesNothing_of_within, fun h => ⟨fun hnone => ?_, introducesNothing_of_within⟩⟩
  refine h.within_of_subset fun e he => ?_
  exact (h.mem_findingIds_iff "" he).mp
    ((hnone "" "").1 (mem_findingIds.mpr ⟨e, he, rfl⟩))

/-- The places a scan found values at. -/
def places (input : CorrelationInput) : List (String × String × String × Option ℤ) :=
  input.evidence.map fun e =>
    (e.ruleId, e.valueHash, pathOf input.artifactPaths e.artifactId, e.offset)

/-- **Removing one of two copies**: the build keeps a value in `y.cfg` and drops it from `x.cfg`, and
the finding that is left is new. -/
theorem removed_copy_makes_new :
    places (twoFiles [passwordIn "a2" 'a'])
        ⊆ places (twoFiles [passwordIn "a1" 'a', passwordIn "a2" 'a']) ∧
      ¬ IntroducesNothing (twoFiles [passwordIn "a1" 'a', passwordIn "a2" 'a'])
        (twoFiles [passwordIn "a2" 'a']) := by
  refine ⟨by decide, fun h => ?_⟩
  have hids := (h "a" "b").1
  revert hids
  decide +kernel

end BareAnalysis
