import BareAnalysis.Api.Views
import BareAnalysis.Correlation.Answers
import BareAnalysis.Correlation.Places
import Mathlib.Data.Finset.Card

/-!
# Api/Plaintexts — whose values a finding reveals

    evidence ──correlate──▸ finding ──▸ locations (artifact, offset)
        ▲                                   │
        └────────── every row there ────────┘

`_plaintexts` of `api/routers/findings.py` goes back from a finding to its evidence by place alone,
and several rules may match at one place.
-/

namespace BareAnalysis

/-! ## Sets of values, cut -/

/-- A cut that leaves room for a subset lists it exactly when there is nothing else. -/
theorem sortBy_take_keepFirst_iff {κ : Type*} [LinearOrder κ] {rows : List κ} {values : Finset κ}
    {n : ℕ} (hsub : ∀ v ∈ values, v ∈ rows) (hroom : values.card < n) :
    sortBy id ((keepFirst id rows).take n) = sortedSet values ↔ ∀ v ∈ rows, v ∈ values := by
  have hnodup : (keepFirst id rows).Nodup := by
    have h := nodup_keys_keepFirst id rows
    rwa [List.map_id] at h
  have hmem : ∀ v, v ∈ keepFirst id rows ↔ v ∈ rows := by
    refine fun v => ⟨mem_of_mem_keepFirst, fun hv => ?_⟩
    obtain ⟨w, hw, hkey⟩ := @exists_mem_keepFirst _ _ _ id _ _ hv
    rwa [← show w = v from hkey]
  constructor
  · intro heq
    have hperm : ((keepFirst id rows).take n).Perm (sortedSet values) := by
      rw [← heq]
      exact (sortBy_perm _ _).symm
    have hlength : ((keepFirst id rows).take n).length = values.card := by
      rw [hperm.length_eq, ← Finset.card_val, ← coe_sortedSet, Multiset.coe_card]
    -- Fewer than `n` are taken, so all are.
    have hall : (keepFirst id rows).take n = keepFirst id rows := by
      rw [List.length_take] at hlength
      exact List.take_of_length_le (by omega)
    rw [hall] at hperm
    exact fun v hv => mem_sortedSet.mp (hperm.mem_iff.mp ((hmem v).mpr hv))
  · intro hall
    obtain rfl : values = ⟨(keepFirst id rows : Multiset κ), Multiset.coe_nodup.mpr hnodup⟩ := by
      refine Finset.ext fun v => ?_
      rw [Finset.mem_mk]
      exact ⟨fun hv => (hmem v).mpr (hsub v hv), fun hv => hall v ((hmem v).mp hv)⟩
    rw [List.take_of_length_le (Nat.le_of_lt hroom)]
    rfl

/-! ## The evidence of a finding -/

/-- The groups `correlate` made a finding of: that of its value, or all that survive of a rule that
is clustered. -/
def memberGroups (input : CorrelationInput) (f : Finding) : List EvidenceGroup :=
  (survivors input f.ruleId).filter fun g =>
    decide (clusterThreshold < (survivors input f.ruleId).length) || g.key.2 == f.valueHash

/-- The evidence grouped into a finding. -/
def members (input : CorrelationInput) (f : Finding) : List Evidence :=
  (memberGroups input f).flatMap Group.items

/-- The retained values of that evidence. -/
def memberValues (input : CorrelationInput) (f : Finding) : Finset String :=
  ((members input f).filterMap Evidence.valuePlaintext).toFinset

/-- The group is reported under this id: its own, or that of its rule's cluster. -/
def ReportedUnder (input : CorrelationInput) (id : String) (g : EvidenceGroup) : Prop :=
  (survivors input g.key.1).length ≤ clusterThreshold ∧ id = groupId input.artifactPaths g ∨
    clusterThreshold < (survivors input g.key.1).length ∧
      ∃ e ∈ (report input g.key.1).entries g.key.1, id = e.id

/-- The item is at the artifact and offset of an item of a group reported under the id, or of one
whose own id collides with such a group's. -/
def SharesPlace (input : CorrelationInput) (id : String) (e : Evidence) : Prop :=
  ∃ g ∈ surviving input, ReportedUnder input id g ∧
    ∃ g' ∈ surviving input, groupId input.artifactPaths g' = groupId input.artifactPaths g ∧
      OccursAt g' e.artifactId e.offset

section Members

variable {input : CorrelationInput} {runId : String} {f : Finding}

theorem mem_memberValues {value : String} :
    value ∈ memberValues input f ↔ ∃ g ∈ memberGroups input f, ∃ e ∈ g.items,
      e.valuePlaintext = some value := by
  simp only [memberValues, members, List.mem_toFinset, List.mem_filterMap, List.mem_flatMap]
  constructor
  · rintro ⟨e, ⟨g, hg, he⟩, hvalue⟩
    exact ⟨g, hg, e, he, hvalue⟩
  · rintro ⟨g, hg, e, he, hvalue⟩
    exact ⟨e, ⟨g, hg, he⟩, hvalue⟩

/-- **The places a finding is located at** are those of the groups reported under its id. -/
theorem locatedAt_iff_sharesPlace {id : String} {e : Evidence} :
    LocatedAt (correlate runId input).locations id e.artifactId e.offset ↔
      SharesPlace input id e := by
  rw [locatedAt_correlate, SharesPlace]
  constructor
  · rintro ⟨ruleId, hrule⟩
    obtain ⟨g, hg, hbefore, hunder⟩ := (locatedAt_ruleLocations input runId ruleId _ _ _).mp hrule
    obtain rfl : g.key.1 = ruleId := (mem_survivors.mp hg).2.2.1
    exact ⟨g, (mem_surviving input).mpr hg, hunder,
      (locatedAt_beforeClustering input runId _ _ _).mp hbefore⟩
  · rintro ⟨g, hg, hunder, hat⟩
    exact ⟨g.key.1, (locatedAt_ruleLocations input runId _ _ _ _).mpr
      ⟨g, (mem_surviving input).mp hg, (locatedAt_beforeClustering input runId _ _ _).mpr hat,
        hunder⟩⟩

/-- The groups a finding is made of are reported under its id. -/
theorem reportedUnder_of_mem_memberGroups (hf : f ∈ (correlate runId input).findings)
    {g : EvidenceGroup} (hg : g ∈ memberGroups input f) :
    g ∈ surviving input ∧ ReportedUnder input f.id g := by
  obtain ⟨hsurvives, hmember⟩ := List.mem_filter.mp hg
  have hrule : g.key.1 = f.ruleId := (mem_survivors.mp hsurvives).2.2.1
  obtain ⟨entry, hentry, hruleId, hid, hvalue⟩ := exists_entry_of_mem_findings hf
  rw [mem_entries, hruleId] at hentry
  refine ⟨(mem_surviving input).mpr (by rwa [hrule]), ?_⟩
  rw [ReportedUnder, hrule]
  obtain hn | hn := le_or_gt (survivors input f.ruleId).length clusterThreshold
  · refine Or.inl ⟨hn, ?_⟩
    rw [report_of_le hn] at hentry
    obtain ⟨g', hg', rfl⟩ := List.mem_map.mp hentry
    rw [Bool.or_eq_true, decide_eq_true_eq, beq_iff_eq, or_iff_right (not_lt.mpr hn)] at hmember
    -- One group has this rule and this value.
    obtain rfl : g' = g := evidenceGroup_eq (mem_survivors.mp hg').2.1
      (mem_survivors.mp hsurvives).2.1
      (Prod.ext (((mem_survivors.mp hg').2.2.1).trans hrule.symm) (hvalue.trans hmember.symm))
    exact hid.symm
  · exact Or.inr ⟨hn, entry, hentry, hid.symm⟩

/-- No member is left out: each is at a place of its finding. -/
theorem sharesPlace_of_mem_items (hf : f ∈ (correlate runId input).findings) {g : EvidenceGroup}
    (hg : g ∈ memberGroups input f) {e : Evidence} (he : e ∈ g.items) :
    e ∈ input.evidence ∧ SharesPlace input f.id e := by
  obtain ⟨hsurvives, hunder⟩ := reportedUnder_of_mem_memberGroups hf hg
  have hgroup := (List.mem_filter.mp hsurvives).1
  exact ⟨((mem_items_evidenceGroup hgroup).mp he).1,
    g, hsurvives, hunder, g, hsurvives, rfl, e, he, rfl, rfl⟩

end Members

/-! ## The rows of a scan -/

/-- The database holds a scan: its evidence, and the locations `correlate` gave it. -/
structure HoldsScan (db : Db) (runId : String) (input : CorrelationInput) : Prop where
  evidence : ∀ e, e ∈ input.evidence ↔ e ∈ db.evidence ∧ e.runId = runId
  locations : ∀ l, l ∈ (correlate runId input).locations ↔ l ∈ db.locations ∧ l.runId = runId

section Rows

variable {db : Db} {runId : String} {input : CorrelationInput} {f : Finding}

/-- A scan's locations are those of its run. -/
theorem runId_of_mem_locations {l : FindingLocation} (hl : l ∈ (correlate runId input).locations) :
    l.runId = runId := by
  have hbefore : ∀ l ∈ (beforeClustering input runId).locations, l.runId = runId := by
    intro l hl
    rw [beforeClustering_eq] at hl
    obtain ⟨g, -, hl⟩ := List.mem_flatMap.mp hl
    obtain ⟨e, -, rfl⟩ := List.mem_map.mp hl
    rfl
  rw [locations_correlate] at hl
  obtain ⟨ruleId, -, hl⟩ := List.mem_flatMap.mp hl
  rw [ruleLocations, clusterRule] at hl
  split at hl
  · obtain ⟨f, -, hl⟩ := List.mem_flatMap.mp hl
    exact hbefore l (locatedAt_locationsUnder hl).1
  · split at hl
    · obtain ⟨l', hl', rfl⟩ := List.mem_map.mp hl
      obtain ⟨f, -, hl'⟩ := List.mem_flatMap.mp (mem_of_mem_keepFirst hl')
      exact hbefore l' (locatedAt_locationsUnder hl').1
    · cases hl

/-- **What a scan adds to a database that has nothing of its run.** -/
theorem holdsScan_append (hfresh : (∀ e ∈ db.evidence, e.runId ≠ runId) ∧
      ∀ l ∈ db.locations, l.runId ≠ runId) (hown : ∀ e ∈ input.evidence, e.runId = runId) :
    HoldsScan { db with
      evidence := db.evidence ++ input.evidence
      locations := db.locations ++ (correlate runId input).locations } runId input where
  evidence e := by
    rw [List.mem_append]
    exact ⟨fun he => ⟨Or.inr he, hown e he⟩,
      fun ⟨he, hrun⟩ => he.resolve_left fun hold => hfresh.1 e hold hrun⟩
  locations l := by
    rw [List.mem_append]
    exact ⟨fun hl => ⟨Or.inr hl, runId_of_mem_locations hl⟩,
      fun ⟨hl, hrun⟩ => hl.resolve_left fun hold => hfresh.2 l hold hrun⟩

/-- The rows `_plaintexts` goes through, for the locations of the finding. -/
def revealedRows (db : Db) (f : Finding) : List String :=
  (db.evidence.filter fun e => e.runId == f.runId
    && (locationKeys (db.locations.filter fun l => l.findingId == f.id && l.runId == f.runId)).contains
      (e.artifactId, e.offset)).filterMap Evidence.valuePlaintext

/-- The order of the locations does not matter. -/
theorem plaintexts_perm {locations locations' : List FindingLocation}
    (h : locations.Perm locations') : plaintexts db f locations = plaintexts db f locations' := by
  have hcontains : ∀ key, (locationKeys locations).contains key
      = (locationKeys locations').contains key := by
    intro key
    rw [Bool.eq_iff_iff, List.contains_iff_mem, List.contains_iff_mem]
    exact (h.map _).mem_iff
  simp only [plaintexts, hcontains]

theorem valuePlaintexts_toOut (previousIds : List String) :
    (toOut db f previousIds).valuePlaintexts
      = sortBy id ((keepFirst id (revealedRows db f)).take maxPlaintextValues) :=
  plaintexts_perm (sortBy_perm _ _)

/-- **The rows at a finding's places.** -/
theorem mem_revealedRows (h : HoldsScan db runId input) (hf : f ∈ (correlate runId input).findings)
    {value : String} :
    value ∈ revealedRows db f ↔
      ∃ e ∈ input.evidence, e.valuePlaintext = some value ∧ SharesPlace input f.id e := by
  have hrun : f.runId = runId := (of_mem_findings hf).1
  have hplace : ∀ e : Evidence, (locationKeys (db.locations.filter fun l =>
      l.findingId == f.id && l.runId == runId)).contains (e.artifactId, e.offset) = true ↔
        SharesPlace input f.id e := by
    intro e
    rw [← @locatedAt_iff_sharesPlace input runId, List.contains_iff_mem, locationKeys]
    constructor
    · intro hkey
      obtain ⟨l, hl, hat⟩ := List.mem_map.mp hkey
      obtain ⟨hmem, hown⟩ := List.mem_filter.mp hl
      rw [Bool.and_eq_true, beq_iff_eq, beq_iff_eq] at hown
      exact ⟨l, (h.locations l).mpr ⟨hmem, hown.2⟩, Prod.ext hown.1 hat⟩
    · rintro ⟨l, hl, hat⟩
      obtain ⟨hid, hat⟩ := Prod.mk.inj hat
      obtain ⟨hmem, hown⟩ := (h.locations l).mp hl
      refine List.mem_map.mpr ⟨l, List.mem_filter.mpr ⟨hmem, ?_⟩, Prod.ext_iff.mpr (Prod.mk.inj hat)⟩
      rw [Bool.and_eq_true, beq_iff_eq, beq_iff_eq]
      exact ⟨hid, hown⟩
  rw [revealedRows, hrun]
  simp only [List.mem_filterMap, List.mem_filter, Bool.and_eq_true, beq_iff_eq, hplace, h.evidence,
    and_assoc]
  constructor
  · rintro ⟨e, he, howner, hat, hvalue⟩
    exact ⟨e, he, howner, hvalue, hat⟩
  · rintro ⟨e, he, howner, hvalue, hat⟩
    exact ⟨e, he, howner, hat, hvalue⟩

/-- The members' values are among them. -/
theorem mem_revealedRows_of_memberValues (h : HoldsScan db runId input)
    (hf : f ∈ (correlate runId input).findings) {value : String}
    (hvalue : value ∈ memberValues input f) : value ∈ revealedRows db f := by
  obtain ⟨g, hg, e, he, hvalue⟩ := mem_memberValues.mp hvalue
  obtain ⟨hmem, hat⟩ := sharesPlace_of_mem_items hf hg he
  exact (mem_revealedRows h hf).mpr ⟨e, hmem, hvalue, hat⟩

/-- **The values revealed are the finding's own exactly when no other value is retained at one of its
places.** -/
theorem valuePlaintexts_eq_iff (h : HoldsScan db runId input)
    (hf : f ∈ (correlate runId input).findings)
    (hfew : (memberValues input f).card < maxPlaintextValues) (previousIds : List String) :
    (toOut db f previousIds).valuePlaintexts = sortedSet (memberValues input f) ↔
      ∀ e ∈ input.evidence, SharesPlace input f.id e → ∀ value ∈ e.valuePlaintext,
        value ∈ memberValues input f := by
  rw [valuePlaintexts_toOut,
    sortBy_take_keepFirst_iff (fun _ => mem_revealedRows_of_memberValues h hf) hfew]
  simp only [mem_revealedRows h hf]
  constructor
  · intro hrows e he hat value hvalue
    exact hrows value ⟨e, he, hvalue, hat⟩
  · rintro hplaces value ⟨e, he, hvalue, hat⟩
    exact hplaces e he hat value hvalue

end Rows

/-! ## Two rules at one place -/

/-- A rule for passwords and one for whole assignments. -/
def assignmentPack : RulePack where
  version := "1"
  rules :=
    [{ id := "assignment", name := "Assignment", category := "credential", severity := .high },
      { id := "password", name := "Password", category := "credential", severity := .high }]
  hash := "pack"

/-- Both rules match at the start of a file, each with its value. -/
def overlapping (password assignment : String) : CorrelationInput where
  evidence :=
    [{ runId := "run", artifactId := "a1", ruleId := "password", valueHash := "01"
       valuePlaintext := some password, offset := some 0 },
      { runId := "run", artifactId := "a1", ruleId := "assignment", valueHash := "02"
        valuePlaintext := some assignment, offset := some 0 }]
  pack := assignmentPack
  artifactPaths := [("a1", "x.cfg")]

/-- The database after the scan. -/
def overlappingScan (password assignment : String) : Db where
  evidence := [] ++ (overlapping password assignment).evidence
  locations := [] ++ (correlate "run" (overlapping password assignment)).locations

theorem holdsScan_overlapping (password assignment : String) :
    HoldsScan (overlappingScan password assignment) "run" (overlapping password assignment) := by
  refine @holdsScan_append {} "run" _ ⟨fun e he => (nomatch he), fun l hl => (nomatch hl)⟩ ?_
  intro e he
  obtain rfl | rfl := List.mem_pair.mp he <;> rfl

/-- The finding of the password, with the values grouped into it. -/
theorem exists_password_finding (password assignment : String)
    (h : (correlate "run" (overlapping password assignment)).findings.map
      (fun f => (f.ruleId, f.valueHash)) = [("assignment", "02"), ("password", "01")]) :
    ∃ f ∈ (correlate "run" (overlapping password assignment)).findings,
      f.ruleId = "password" ∧ f.valueHash = "01" := by
  have hmem : (("password", "01") : String × String) ∈
      (correlate "run" (overlapping password assignment)).findings.map
        fun f => (f.ruleId, f.valueHash) := by
    rw [h]
    exact List.mem_cons_of_mem _ (List.mem_singleton_self _)
  obtain ⟨f, hf, heq⟩ := List.mem_map.mp hmem
  exact ⟨f, hf, Prod.mk.inj heq⟩

theorem valuePlaintexts_one_value :
    ∃ f ∈ (correlate "run" (overlapping "hunter2" "hunter2")).findings,
      (toOut (overlappingScan "hunter2" "hunter2") f []).valuePlaintexts
        = sortedSet (memberValues (overlapping "hunter2" "hunter2") f) := by
  obtain ⟨f, hf, hrule, hvalue⟩ := exists_password_finding "hunter2" "hunter2" (by decide +kernel)
  have hvalues : memberValues (overlapping "hunter2" "hunter2") f = {"hunter2"} := by
    rw [memberValues, members, memberGroups, hrule, hvalue]
    decide +kernel
  refine ⟨f, hf, (valuePlaintexts_eq_iff (holdsScan_overlapping _ _) hf ?_ []).mpr ?_⟩
  · rw [hvalues]
    decide
  · intro e he _ value hvalue
    rw [hvalues, Finset.mem_singleton]
    obtain rfl | rfl := List.mem_pair.mp he <;> exact (Option.some_inj.mp hvalue).symm

/-- The finding of the password reveals the assignment as well. -/
theorem valuePlaintexts_of_another_rule :
    ¬∀ (db : Db) (runId : String) (input : CorrelationInput) (f : Finding)
      (previousIds : List String), HoldsScan db runId input →
        f ∈ (correlate runId input).findings →
          (memberValues input f).card < maxPlaintextValues →
            (toOut db f previousIds).valuePlaintexts = sortedSet (memberValues input f) := by
  intro hclaim
  obtain ⟨f, hf, hrule, hvalue⟩ :=
    exists_password_finding "hunter2" "key=hunter2" (by decide +kernel)
  have hholds := holdsScan_overlapping "hunter2" "key=hunter2"
  have hvalues : memberValues (overlapping "hunter2" "key=hunter2") f = {"hunter2"} := by
    rw [memberValues, members, memberGroups, hrule, hvalue]
    decide +kernel
  have hfew : (memberValues (overlapping "hunter2" "key=hunter2") f).card < maxPlaintextValues := by
    rw [hvalues]
    decide
  have heq := hclaim _ _ _ f [] hholds hf hfew
  rw [valuePlaintexts_toOut,
    sortBy_take_keepFirst_iff (fun _ => mem_revealedRows_of_memberValues hholds hf) hfew] at heq
  -- The password's own row gives its place.
  obtain ⟨g, hg, e, he, -⟩ := mem_memberValues.mp (show "hunter2" ∈ memberValues _ f by
    rw [hvalues]; exact Finset.mem_singleton_self _)
  obtain ⟨hmem, hat⟩ := sharesPlace_of_mem_items hf hg he
  have hother := heq "key=hunter2" ((mem_revealedRows hholds hf).mpr
    ⟨_, List.mem_cons_of_mem _ (List.mem_singleton_self _), rfl, by
      obtain rfl | rfl := List.mem_pair.mp hmem <;> exact hat⟩)
  rw [hvalues] at hother
  exact absurd hother (by decide)

end BareAnalysis
