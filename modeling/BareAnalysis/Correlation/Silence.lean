import BareAnalysis.Correlation.SuppressOnce

/-!
# Correlation/Silence — what a suppression hides beside what it names

    e₁ at a/x.cfg ─┐
    e₂ at b/x.cfg ─┴ one group ──path of e₁──▸ matched? ──▸ both hidden, or both reported

A suppression names a rule, a value, a pattern of paths and a time it ends.  The correlator asks once
for a group, on the path of its first item, and never for the time; so an item is reported where the
group of some item at its place starts at a path that no suppression matches, expired ones included.
-/

namespace BareAnalysis

/-! ## What a suppression names -/

/-- The pattern is `*`, or matches the path. -/
def Suppression.Matches (s : Suppression) (path : String) : Prop :=
  s.pathPattern = "*" ∨ fnmatch path s.pathPattern = true

/-- `expires_at` is absent or in the future. -/
def Suppression.Unexpired (s : Suppression) (now : ℕ) : Prop := ∀ t ∈ s.expiresAt, now < t

namespace CorrelationInput

variable (input : CorrelationInput)

/-- The pack has the item's rule, and it is enabled. -/
def IsEnabled (e : Evidence) : Prop := (input.pack.rulesById.get? e.ruleId).isSome = true

/-- A suppression that has not expired names the item: its rule, its value and its own path. -/
def Covers (now : ℕ) (e : Evidence) : Prop :=
  ∃ s ∈ input.suppressions, s.Unexpired now ∧ s.ruleId = e.ruleId ∧ s.valueHash = e.valueHash ∧
    s.Matches (pathOf input.artifactPaths e.artifactId)

/-- The item of the same rule and value that comes first by artifact and offset. -/
def firstAlike (e : Evidence) : Option Evidence :=
  (sortBy evidenceSortKey input.evidence).find? fun e' => decide (e'.groupKey = e.groupKey)

/-- Some suppression of the item's rule and value, expired or not, matches the path of the first
item alike. -/
def FirstIsMatched (e : Evidence) : Prop :=
  ∃ s ∈ input.suppressions, s.ruleId = e.ruleId ∧ s.valueHash = e.valueHash ∧
    ∃ first ∈ input.firstAlike e, s.Matches (pathOf input.artifactPaths first.artifactId)

end CorrelationInput

/-- The result has a location at the item's artifact and offset. -/
def CorrelationResult.ReportsPlace (result : CorrelationResult) (e : Evidence) : Prop :=
  ∃ l ∈ result.locations, l.artifactId = e.artifactId ∧ l.offset = e.offset

section Silence

variable {input : CorrelationInput}

/-- A group starts with the first item alike. -/
theorem firstAlike_eq {g : EvidenceGroup} (hg : g ∈ evidenceGroups input.evidence) {e : Evidence}
    (hk : g.key = e.groupKey) : input.firstAlike e = some g.first := by
  have hitems := items_evidenceGroup hg
  rw [CorrelationInput.firstAlike, ← List.head?_filter, ← hk, ← hitems]
  rfl

/-- **A group is silenced when a suppression of its key matches the path it starts at.** -/
theorem silenced_iff {g : EvidenceGroup} (hg : g ∈ evidenceGroups input.evidence) {e : Evidence}
    (hk : g.key = e.groupKey) : silenced input g = true ↔ input.FirstIsMatched e := by
  rw [silenced, isSuppressed_eq_any, List.any_eq_true, CorrelationInput.FirstIsMatched,
    firstAlike_eq hg hk, hk]
  refine exists_congr fun s => and_congr_right fun _ => ?_
  simp [Evidence.groupKey, Suppression.Matches, anchorPath, and_assoc]

/-- Where a result has a location, a surviving group occurs, and conversely. -/
theorem reportsPlace_iff_surviving (runId : String) (e : Evidence) :
    (correlate runId input).ReportsPlace e ↔
      ∃ g ∈ surviving input, OccursAt g e.artifactId e.offset := by
  constructor
  · rintro ⟨l, hl, ha, ho⟩
    have hlocated : LocatedAt (correlate runId input).locations l.findingId e.artifactId e.offset :=
      ⟨l, hl, by rw [FindingLocation.place, ha, ho]⟩
    obtain ⟨ruleId, hrule⟩ := (locatedAt_correlate input runId _ _ _).mp hlocated
    obtain ⟨g, -, hbefore, -⟩ := (locatedAt_ruleLocations input runId ruleId _ _ _).mp hrule
    obtain ⟨g', hg', -, hat⟩ := (locatedAt_beforeClustering input runId _ _ _).mp hbefore
    exact ⟨g', hg', hat⟩
  · rintro ⟨g, hg, hat⟩
    have hsurvives := mem_surviving input |>.mp hg
    have hbefore := (locatedAt_beforeClustering input runId (groupId input.artifactPaths g) _ _).mpr
      ⟨g, hg, rfl, hat⟩
    obtain ⟨id, hid⟩ : ∃ id, LocatedAt (ruleLocations input runId g.key.1) id e.artifactId e.offset := by
      obtain hn | hn := le_or_gt (survivors input g.key.1).length clusterThreshold
      · exact ⟨_, (locatedAt_ruleLocations input runId g.key.1 _ _ _).mpr
          ⟨g, hsurvives, hbefore, Or.inl ⟨hn, rfl⟩⟩⟩
      · obtain ⟨path, hreport⟩ := report_of_lt hn
        exact ⟨_, (locatedAt_ruleLocations input runId g.key.1 _ _ _).mpr
          ⟨g, hsurvives, hbefore, Or.inr ⟨hn, _, by rw [hreport]; exact List.mem_singleton_self _,
            rfl⟩⟩⟩
    obtain ⟨l, hl, hplace⟩ := (locatedAt_correlate input runId id _ _).mpr ⟨_, hid⟩
    obtain ⟨-, hat⟩ := Prod.mk.inj hplace
    exact ⟨l, hl, Prod.mk.inj hat⟩

/-- **A place is reported exactly when an item of an enabled rule is there whose group starts at a
path that no suppression matches.** -/
theorem reportsPlace_iff (runId : String) (e : Evidence) :
    (correlate runId input).ReportsPlace e ↔ ∃ e' ∈ input.evidence, input.IsEnabled e' ∧
      e'.artifactId = e.artifactId ∧ e'.offset = e.offset ∧ ¬ input.FirstIsMatched e' := by
  rw [reportsPlace_iff_surviving]
  constructor
  · rintro ⟨g, hg, e', he', ha, ho⟩
    obtain ⟨hgroup, hsurvives⟩ := List.mem_filter.mp hg
    obtain ⟨hmem, hk⟩ := (mem_items_evidenceGroup hgroup).mp he'
    obtain ⟨henabled, hspoken⟩ := Bool.and_eq_true_iff.mp hsurvives
    refine ⟨e', hmem, ?_, ha, ho, fun hmatched => ?_⟩
    · rw [CorrelationInput.IsEnabled, show e'.ruleId = g.key.1 from congrArg Prod.fst hk]
      exact henabled
    · rw [(silenced_iff hgroup hk.symm).mpr hmatched] at hspoken
      cases hspoken
  · rintro ⟨e', hmem, henabled, ha, ho, hspoken⟩
    obtain ⟨g, hgroup, hk, hitem⟩ := exists_evidenceGroup hmem
    refine ⟨g, List.mem_filter.mpr ⟨hgroup, Bool.and_eq_true_iff.mpr ⟨?_, ?_⟩⟩, e', hitem, ha, ho⟩
    · rw [hk]
      exact henabled
    · rw [Bool.not_eq_true', Bool.eq_false_iff]
      exact fun h => hspoken ((silenced_iff hgroup hk).mp h)

/-- What a suppression does not name is reported. -/
def HidesOnlyNamed (runId : String) (now : ℕ) (input : CorrelationInput) : Prop :=
  ∀ e ∈ input.evidence, input.IsEnabled e → ¬ input.Covers now e →
    (correlate runId input).ReportsPlace e

/-- **A suppression hides only what it names** exactly when at the place of each item that none
names there is one, of an enabled rule, whose first item alike is at a path that none matches. -/
theorem hidesOnlyNamed_iff (runId : String) (now : ℕ) (input : CorrelationInput) :
    HidesOnlyNamed runId now input ↔
      ∀ e ∈ input.evidence, input.IsEnabled e → ¬ input.Covers now e →
        ∃ e' ∈ input.evidence, input.IsEnabled e' ∧ e'.artifactId = e.artifactId ∧
          e'.offset = e.offset ∧ ¬ input.FirstIsMatched e' := by
  refine forall₂_congr fun e _ => imp_congr_right fun _ => imp_congr_right fun _ => ?_
  exact reportsPlace_iff runId e

end Silence

/-! ## One value in two files, and a suppression that has expired -/

/-- A value in a test and in a production file, suppressed in the tests. -/
def testsSuppressed : CorrelationInput where
  evidence := [passwordIn "a1" 'a', passwordIn "a2" 'a']
  pack := passwordPack
  artifactPaths := [("a1", "test/x.cfg"), ("a2", "prod/x.cfg")]
  suppressions :=
    [{ valueHash := digestOf 'a', ruleId := "password", pathPattern := "test/*" }]

/-- A value whose suppression ended at a time. -/
def onceSuppressed (expiresAt : ℕ) : CorrelationInput where
  evidence := [passwordIn "a1" 'a']
  pack := passwordPack
  artifactPaths := [("a1", "x.cfg")]
  suppressions :=
    [{ valueHash := digestOf 'a', ruleId := "password", expiresAt := some expiresAt }]

/-- **Two suppressions that hide what they do not name**: that of the tests hides the value in the
production file as well, and the expired one hides what it hid before. -/
theorem hides_unnamed :
    ¬ HidesOnlyNamed "run" 1000 testsSuppressed ∧
      ¬ HidesOnlyNamed "run" 1000 (onceSuppressed 999) := by
  have hnothing : (correlate "run" testsSuppressed).locations = [] ∧
      (correlate "run" (onceSuppressed 999)).locations = [] := by
    constructor <;> decide +kernel
  constructor
  · intro h
    obtain ⟨l, hl, -⟩ := h (passwordIn "a2" 'a') (by simp [testsSuppressed]) rfl <| by
      rintro ⟨s, hs, -, -, -, hstar | hmatch⟩
      · obtain rfl := List.mem_singleton.mp hs
        exact absurd hstar (by decide)
      · obtain rfl := List.mem_singleton.mp hs
        revert hmatch
        decide +kernel
    rw [hnothing.1] at hl
    cases hl
  · intro h
    obtain ⟨l, hl, -⟩ := h (passwordIn "a1" 'a') (by simp [onceSuppressed]) rfl <| by
      rintro ⟨s, hs, hunexpired, -⟩
      obtain rfl := List.mem_singleton.mp hs
      exact absurd (hunexpired 999 rfl) (by decide)
    rw [hnothing.2] at hl
    cases hl

end BareAnalysis
