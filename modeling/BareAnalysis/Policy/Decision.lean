import BareAnalysis.Policy.Engine

/-!
# Policy/Decision — the verdict, characterised

    actionable ──in scope──▸ blocking ──no waiver in force──▸ BLOCKED
         │                      │
     inherited              budgets ──over a finite one──▸ BLOCKED, else degraded ▸ INCONCLUSIVE

`evaluate_decision_cases` gives each of the three decisions its exact condition, `evaluate_account`
each actionable finding its one place in the verdict.
-/

namespace BareAnalysis

/-! ## The conditions -/

/-- Some clause of the policy blocks the finding: its rule, its category or its severity. -/
def Policy.isBlocking (p : Policy) (f : GateFinding) : Bool :=
  p.blockRules.contains f.ruleId || p.blockCategories.contains f.category || p.blocks f.severity

/-- The finding has no waiver, or an expired one. -/
def Unwaived (waivers : List Waiver) (today : Date) (f : GateFinding) : Prop :=
  (∀ w ∈ waivers, w.findingId ≠ f.id) ∨
    ∃ w ∈ waivers, w.findingId = f.id ∧ w.isExpired today = true

/-- How many in-scope findings of a severity no clause blocks. -/
def unblockedCount (fs : List GateFinding) (p : Policy) (severity : Severity) : ℕ :=
  fs.countP fun f => inScope p f && !p.isBlocking f && f.severity == severity

/-- The ceiling of a severity is finite, and more findings than it allows were counted. -/
def Budgets.ExceededBy (b : Budgets) (severity : Severity) (count : ℕ) : Prop :=
  b.limitFor severity ≠ unlimited ∧ b.limitFor severity < count

/-- What the loader lets through: it rejects a limit under `UNLIMITED`. -/
def Budgets.Loadable (b : Budgets) : Prop := ∀ severity, unlimited ≤ b.limitFor severity

/-- `waiver_index.get(finding_id)`: of two waivers for one finding, the index keeps the last. -/
def waiverFor (waivers : List Waiver) (findingId : String) : Option Waiver :=
  Dict.get? (indexBy Waiver.findingId waivers) findingId

/-- Something blocks the release, as the code reads it off any waiver list and any budgets: a budget
is only asked about severities that occur. -/
def HasBlocker (fs : List GateFinding) (p : Policy) (waivers : List Waiver) (today : Date) : Prop :=
  (∃ f ∈ fs, inScope p f = true ∧ p.isBlocking f = true ∧
      ∀ w, waiverFor waivers f.id = some w → w.isExpired today = true) ∨
    ∃ severity, 0 < unblockedCount fs p severity ∧
      p.budgets.ExceededBy severity (unblockedCount fs p severity)

/-- **What blocks a release**: a blocking finding without a waiver in force, or a budget. -/
def BlocksRelease (fs : List GateFinding) (p : Policy) (waivers : List Waiver) (today : Date) :
    Prop :=
  (∃ f ∈ fs, inScope p f = true ∧ p.isBlocking f = true ∧ Unwaived waivers today f) ∨
    ∃ severity, p.budgets.ExceededBy severity (unblockedCount fs p severity)

/-- **What leaves it open**: a degraded stage, under a posture that minds. -/
def LeavesOpen (p : Policy) (stages : List String) : Prop :=
  stages ≠ [] ∧ (p.onDegraded = .fail ∨ p.onDegraded = .warn)

theorem isSome_blockingReason (f : GateFinding) (p : Policy) :
    (blockingReason f p).isSome = p.isBlocking f := by
  unfold blockingReason Policy.isBlocking
  split_ifs with hrule hcategory hseverity
  · rw [hrule, Bool.true_or, Bool.true_or, Option.isSome_some]
  · rw [hcategory, Bool.or_true, Bool.true_or, Option.isSome_some]
  · rw [hseverity, Bool.or_true, Option.isSome_some]
  · rw [Bool.not_eq_true] at hrule hcategory hseverity
    rw [hrule, hcategory, hseverity]
    rfl

/-! ## Dispositions, read off the conditions -/

section Disposition

variable (p : Policy) {waivers : List Waiver} (today : Date) (f : GateFinding)

theorem dispositionIn_considered :
    (dispositionIn p waivers today f).isConsidered = (inScope p f && !p.isBlocking f) := by
  rw [dispositionIn, disposition, ← isSome_blockingReason]
  rcases inScope p f with - | -
  · rw [if_neg (by simp)]
    split <;> rfl
  · rw [if_pos rfl]
    rcases blockingReason f p with - | reason
    · rfl
    · dsimp only [blockedDisposition]
      split
      · rfl
      · split <;> rfl

/-- **A finding is violated exactly when it is in scope, blocking, and no waiver is in force.** -/
theorem dispositionIn_violated :
    (dispositionIn p waivers today f).violation?.isSome = true ↔
      inScope p f = true ∧ p.isBlocking f = true ∧
        ∀ w, waiverFor waivers f.id = some w → w.isExpired today = true := by
  rw [dispositionIn, disposition, ← isSome_blockingReason]
  rcases inScope p f with - | -
  · rw [if_neg (by simp)]
    split <;> simp [Disposition.violation?]
  · rw [if_pos rfl]
    rcases blockingReason f p with - | reason
    · simp [Disposition.violation?]
    · simp only [Option.isSome_some, true_and, blockedDisposition, waiverFor]
      rcases Dict.get? (indexBy Waiver.findingId waivers) f.id with - | w
      · exact iff_of_true rfl fun w hw => by cases hw
      · simp only [Option.some.injEq, forall_eq']
        split <;> simp_all [Disposition.violation?]

variable {today f} in
/-- With one waiver for each finding, no waiver is in force when there is none or it expired. -/
theorem unwaived_iff (hw : (waivers.map Waiver.findingId).Nodup) :
    Unwaived waivers today f ↔
      ∀ w, waiverFor waivers f.id = some w → w.isExpired today = true := by
  have huniq : ∀ w ∈ waivers, ∀ w' ∈ waivers, w'.findingId = w.findingId → w' = w :=
    fun w hmem w' hmem' hid => List.inj_on_of_nodup_map hw hmem' hmem hid
  constructor
  · rintro hunwaived w hget
    obtain ⟨hmem, hid⟩ := mem_of_get?_indexBy hget
    rcases hunwaived with hnone | ⟨w', hmem', hid', hexp⟩
    · exact absurd hid (hnone w hmem)
    · rwa [huniq w hmem w' hmem' (hid'.trans hid.symm)] at hexp
  · intro hexp
    by_cases hnone : ∀ w ∈ waivers, w.findingId ≠ f.id
    · exact Or.inl hnone
    · obtain ⟨w, hmem, hid⟩ : ∃ w ∈ waivers, w.findingId = f.id := by
        simpa only [not_forall, exists_prop, not_not] using hnone
      refine Or.inr ⟨w, hmem, hid, hexp w ?_⟩
      rw [waiverFor, ← hid]
      exact get?_indexBy_of_mem hmem (huniq w hmem)

end Disposition

/-! ## Budgets -/

/-- **A budget is a violation exactly when a severity that occurs is over it.** -/
theorem budgetViolations_ne_nil {gs : List GateFinding} {p : Policy} :
    budgetViolations gs p ≠ [] ↔ ∃ severity, 0 < gs.countP (fun f => f.severity == severity) ∧
      p.budgets.ExceededBy severity (gs.countP fun f => f.severity == severity) := by
  have hcount : ∀ severity, gs.countP (fun f => decide (f.severity = severity))
      = gs.countP fun f => f.severity == severity := fun severity => rfl
  rw [budgetViolations, Ne, List.filterMap_eq_nil_iff]
  constructor
  · intro h
    obtain ⟨⟨severity, count⟩, hmem, hsome⟩ : ∃ c ∈ sortBy (fun c : Severity × ℕ => c.1.rank)
        (countBy GateFinding.severity gs), ¬ _ = none := by
      by_contra hall
      exact h fun c hc => by_contra fun hne => hall ⟨c, hc, hne⟩
    obtain ⟨rfl, hpos⟩ := mem_countBy.mp (mem_sortBy.mp hmem)
    refine ⟨severity, hpos, ?_, ?_⟩
    · intro hlim
      exact hsome (by dsimp only; rw [if_pos hlim])
    · by_contra hlt
      refine hsome ?_
      dsimp only
      split
      · rfl
      · exact if_neg hlt
  · rintro ⟨severity, hpos, hlim, hlt⟩ h
    have hnone := h (severity, gs.countP fun f => f.severity == severity)
      (mem_sortBy.mpr (mem_countBy.mpr ⟨hcount severity, hpos⟩))
    dsimp only at hnone
    rw [if_neg hlim, if_pos hlt] at hnone
    cases hnone

/-! ## The decision -/

section Decision

variable (fs : List GateFinding) (p : Policy) (waivers : List Waiver) (stages : List String)
  (today : Date)

theorem sortedStages_eq_nil : sortedStages stages = [] ↔ stages = [] := by
  rw [List.eq_nil_iff_forall_not_mem, List.eq_nil_iff_forall_not_mem]
  simp [sortedStages]

/-- The findings the budgets are counted over. -/
def budgeted : List GateFinding :=
  ((sortBy gateSortKey fs).foldl (perFinding p (indexBy Waiver.findingId waivers) today)
    (degradedTally p (sortedStages stages))).considered

theorem evaluate_violations_budgeted : (evaluate fs p waivers stages today).violations
    = ((sortBy gateSortKey fs).foldl (perFinding p (indexBy Waiver.findingId waivers) today)
        (degradedTally p (sortedStages stages))).violations
      ++ budgetViolations (budgeted fs p waivers stages today) p := rfl

theorem budgeted_eq : budgeted fs p waivers stages today
    = (sortBy gateSortKey fs).filter fun f => inScope p f && !p.isBlocking f := by
  rw [budgeted, foldl_perFinding_considered, degradedTally_considered, List.nil_append]
  exact List.filter_congr fun f _ => dispositionIn_considered p today f

/-- Sorting does not change how many findings of a severity are counted. -/
theorem countP_budgeted (severity : Severity) :
    (budgeted fs p waivers stages today).countP (fun f => f.severity == severity)
      = unblockedCount fs p severity := by
  rw [budgeted_eq, List.countP_filter, unblockedCount]
  refine ((sortBy_perm gateSortKey fs).countP_eq _).trans (List.countP_congr fun f _ => ?_)
  rw [Bool.and_comm]

/-- **A violation that is not the scan's own is a blocker's.** -/
theorem violation_not_degraded_iff :
    (∃ v ∈ (evaluate fs p waivers stages today).violations, v.kind ≠ .degradedScan) ↔
      HasBlocker fs p waivers today := by
  have hbudget := @budgetViolations_ne_nil (budgeted fs p waivers stages today) p
  simp only [countP_budgeted] at hbudget
  rw [HasBlocker, ← hbudget, evaluate_violations_budgeted, foldl_perFinding_violations]
  constructor
  · rintro ⟨v, hv, hkind⟩
    rcases List.mem_append.mp hv with hv | hv
    · rcases List.mem_append.mp hv with hv | hv
      · exact absurd (kind_of_mem_degradedTally p _ hv) hkind
      · obtain ⟨f, hf, hviol⟩ := List.mem_filterMap.mp hv
        refine Or.inl ⟨f, mem_sortBy.mp hf, (dispositionIn_violated p today f).mp ?_⟩
        rw [dispositionIn, hviol]
        rfl
    · exact Or.inr (List.ne_nil_of_mem hv)
  · rintro (⟨f, hf, hviol⟩ | hbud)
    · obtain ⟨v, hv⟩ := Option.isSome_iff_exists.mp ((dispositionIn_violated p today f).mpr hviol)
      refine ⟨v, List.mem_append_left _ (List.mem_append_right _ ?_),
        kind_ne_degraded_of_violated p waivers today hv⟩
      exact List.mem_filterMap.mpr ⟨f, mem_sortBy.mpr hf, hv⟩
    · obtain ⟨v, hv⟩ := List.exists_mem_of_ne_nil _ hbud
      refine ⟨v, List.mem_append_right _ hv, ?_⟩
      rw [kind_of_mem_budgetViolations p hv]
      decide

/-- **The decision, from what it is made of**: a blocker decides; without one, a degraded stage
under a posture that minds leaves the release open. -/
theorem evaluate_decision_cases :
    (HasBlocker fs p waivers today → (evaluate fs p waivers stages today).decision = .blocked) ∧
    (¬HasBlocker fs p waivers today → LeavesOpen p stages →
      (evaluate fs p waivers stages today).decision = .inconclusive) ∧
    (¬HasBlocker fs p waivers today → ¬LeavesOpen p stages →
      (evaluate fs p waivers stages today).decision = .pass) := by
  rw [evaluate_decision, decideGate, ← violation_not_degraded_iff fs p waivers stages today]
  refine ⟨?_, ?_⟩
  · rintro ⟨v, hv, hkind⟩
    have hall : ((evaluate fs p waivers stages today).violations.all
        fun v => v.kind == .degradedScan) = false :=
      List.all_eq_false.mpr ⟨v, hv, by simpa using hkind⟩
    rw [hall, if_neg (by simp), if_pos (List.ne_nil_of_mem hv)]
  rw [← forall_and]
  intro hblock
  have hall : ((evaluate fs p waivers stages today).violations.all
      fun v => v.kind == .degradedScan) = true :=
    List.all_eq_true.mpr fun v hv => by
      by_contra hkind
      exact hblock ⟨v, hv, by simpa using hkind⟩
  have hdegraded : (evaluate fs p waivers stages today).violations ≠ [] ↔
      stages ≠ [] ∧ p.onDegraded = .fail := by
    constructor
    · intro hne
      obtain ⟨v, hv⟩ := List.exists_mem_of_ne_nil _ hne
      have hkind : v.kind = .degradedScan := by simpa using List.all_eq_true.mp hall v hv
      rw [evaluate_violations, List.mem_append, List.mem_append] at hv
      rcases hv with (hv | hv) | hv
      · unfold degradedTally at hv
        split at hv
        · rename_i hcase
          exact ⟨mt (sortedStages_eq_nil stages).mpr hcase.1, hcase.2⟩
        · split at hv <;> cases hv
      · obtain ⟨f, -, hviol⟩ := List.mem_filterMap.mp hv
        exact absurd hkind (kind_ne_degraded_of_violated p waivers today hviol)
      · rw [kind_of_mem_budgetViolations p hv] at hkind
        cases hkind
    · rintro ⟨hstages, hfail⟩
      rw [evaluate_violations, degradedTally,
        if_pos ⟨mt (sortedStages_eq_nil stages).mp hstages, hfail⟩]
      simp
  have hsorted := sortedStages_eq_nil stages
  rw [hall]
  constructor
  · rintro ⟨hstages, hfail | hwarn⟩
    · exact if_pos ⟨hdegraded.mpr ⟨hstages, hfail⟩, rfl⟩
    · have hnil : ¬(evaluate fs p waivers stages today).violations ≠ [] := fun h => by
        rw [(hdegraded.mp h).2] at hwarn
        cases hwarn
      rw [if_neg fun h => hnil h.1, if_neg hnil, if_pos ⟨mt hsorted.mp hstages, hwarn⟩]
  · intro hopen
    have hnil : ¬(evaluate fs p waivers stages today).violations ≠ [] := fun h =>
      hopen ⟨(hdegraded.mp h).1, Or.inl (hdegraded.mp h).2⟩
    rw [if_neg fun h => hnil h.1, if_neg hnil,
      if_neg fun h => hopen ⟨mt hsorted.mpr h.1, Or.inr h.2⟩]

theorem decision_eq_blocked_iff :
    (evaluate fs p waivers stages today).decision = .blocked ↔ HasBlocker fs p waivers today := by
  obtain ⟨hblocked, hopen, hpass⟩ := evaluate_decision_cases fs p waivers stages today
  refine ⟨fun h => ?_, hblocked⟩
  by_contra hblock
  by_cases hleaves : LeavesOpen p stages
  · rw [hopen hblock hleaves] at h; cases h
  · rw [hpass hblock hleaves] at h; cases h

theorem decision_eq_inconclusive_iff :
    (evaluate fs p waivers stages today).decision = .inconclusive ↔
      ¬HasBlocker fs p waivers today ∧ LeavesOpen p stages := by
  obtain ⟨hblocked, hopen, hpass⟩ := evaluate_decision_cases fs p waivers stages today
  refine ⟨fun h => ?_, fun h => hopen h.1 h.2⟩
  by_cases hblock : HasBlocker fs p waivers today
  · rw [hblocked hblock] at h; cases h
  · by_contra hneither
    rw [hpass hblock fun hleaves => hneither ⟨hblock, hleaves⟩] at h
    cases h

theorem decision_eq_pass_iff :
    (evaluate fs p waivers stages today).decision = .pass ↔
      ¬HasBlocker fs p waivers today ∧ ¬LeavesOpen p stages := by
  obtain ⟨hblocked, hopen, hpass⟩ := evaluate_decision_cases fs p waivers stages today
  refine ⟨fun h => ⟨fun hblock => ?_, fun hleaves => ?_⟩, fun h => hpass h.1 h.2⟩
  · rw [hblocked hblock] at h; cases h
  · by_cases hblock : HasBlocker fs p waivers today
    · rw [hblocked hblock] at h; cases h
    · rw [hopen hblock hleaves] at h; cases h

/-- With one waiver for each finding and budgets the loader admits, the code's blockers are the
policy's: a budget the loader admits is exceeded only by findings that occur. -/
theorem hasBlocker_iff (hw : (waivers.map Waiver.findingId).Nodup) (hb : p.budgets.Loadable) :
    HasBlocker fs p waivers today ↔ BlocksRelease fs p waivers today := by
  refine or_congr ?_ (exists_congr fun severity => ⟨And.right, fun h => ⟨?_, h⟩⟩)
  · simp only [unwaived_iff hw]
  · obtain ⟨hfinite, hover⟩ := h
    have hle := hb severity
    unfold unlimited at hfinite hle
    omega

end Decision

/-! ## Where each finding is counted -/

/-- The places a verdict counts an actionable finding in. -/
inductive Account
  | inherited | waived | violation | budgets
  deriving DecidableEq, Repr

/-- The violation names the finding: the scan's own and the budgets' name none. -/
def Violation.Names (v : Violation) (findingId : String) : Prop :=
  v.findingId = findingId ∧ v.kind ≠ .degradedScan ∧ v.kind ≠ .budgetExceeded

/-- The account of a disposition; a finding that is not actionable has none. -/
def Disposition.account? : Disposition → Option Account
  | .skipped => none
  | .inherited => some .inherited
  | .considered => some .budgets
  | .violated _ => some .violation
  | .waived _ _ => some .waived

/-- The waived entry of a disposition, if it is one. -/
def Disposition.waived? : Disposition → Option WaivedFinding
  | .waived w _ => some w
  | .skipped | .inherited | .considered | .violated _ => none

/-- The finding stays behind as the baseline's. -/
def Disposition.isInherited : Disposition → Bool
  | .inherited => true
  | .skipped | .considered | .violated _ | .waived _ _ => false

@[simp] theorem Tally.record_inherited (t : Tally) (f : GateFinding) (d : Disposition) :
    (t.record f d).inherited = t.inherited ++ if d.isInherited then [f] else [] := by
  cases d <;> simp [Tally.record, Disposition.isInherited]

@[simp] theorem Tally.record_waived (t : Tally) (f : GateFinding) (d : Disposition) :
    (t.record f d).waived = t.waived ++ d.waived?.toList := by
  cases d <;> simp [Tally.record, Disposition.waived?]

section Account

variable (fs : List GateFinding) (p : Policy) (waivers : List Waiver) (stages : List String)
  (today : Date)

theorem foldl_perFinding_inherited (waiverIndex : Dict String Waiver) (t : Tally) :
    (fs.foldl (perFinding p waiverIndex today) t).inherited
      = t.inherited ++ fs.filter fun f => (disposition p waiverIndex today f).isInherited := by
  induction fs generalizing t with
  | nil => simp
  | cons f fs ih =>
    rw [List.foldl_cons, ih, perFinding_eq_record, Tally.record_inherited, List.append_assoc,
      List.filter_cons]
    cases (disposition p waiverIndex today f).isInherited <;> rfl

theorem foldl_perFinding_waived (waiverIndex : Dict String Waiver) (t : Tally) :
    (fs.foldl (perFinding p waiverIndex today) t).waived
      = t.waived ++ fs.filterMap fun f => (disposition p waiverIndex today f).waived? := by
  induction fs generalizing t with
  | nil => simp
  | cons f fs ih =>
    rw [List.foldl_cons, ih, perFinding_eq_record, Tally.record_waived, List.append_assoc]
    cases h : (disposition p waiverIndex today f).waived? <;> simp [h]

theorem degradedTally_waived : (degradedTally p stages).waived = [] := by
  unfold degradedTally
  split
  · rfl
  · split <;> rfl

theorem degradedTally_inherited : (degradedTally p stages).inherited = [] := by
  unfold degradedTally
  split
  · rfl
  · split <;> rfl

/-- The verdict counts the finding in this place. -/
def CountedIn (f : GateFinding) : Account → Prop
  | .inherited => f ∈ (evaluate fs p waivers stages today).inherited
  | .waived => ∃ w ∈ (evaluate fs p waivers stages today).waived, w.findingId = f.id
  | .violation => ∃ v ∈ (evaluate fs p waivers stages today).violations, v.Names f.id
  | .budgets => f ∈ budgeted fs p waivers stages today

/-- A violation that names a finding is some finding's own. -/
theorem names_iff (f : GateFinding) :
    (∃ v ∈ (evaluate fs p waivers stages today).violations, v.Names f.id) ↔
      ∃ g ∈ fs, g.id = f.id ∧
        (dispositionIn p waivers today g).account? = some .violation := by
  constructor
  · rintro ⟨v, hv, hid, hdeg, hbud⟩
    obtain ⟨g, hg, hviol⟩ := exists_violated_of_mem fs p waivers stages today hv hdeg hbud
    refine ⟨g, hg, (findingId_of_violated p waivers today hviol).symm.trans hid, ?_⟩
    rcases hd : dispositionIn p waivers today g with - | - | - | v' | ⟨w, ws⟩ <;> rw [hd] at hviol
    all_goals first | rfl | cases hviol
  · rintro ⟨g, hg, hid, hacc⟩
    rcases hd : dispositionIn p waivers today g with - | - | - | v | ⟨w, ws⟩ <;> rw [hd] at hacc
    case violated =>
      have hviol : (dispositionIn p waivers today g).violation? = some v := by rw [hd]; rfl
      refine ⟨v, ?_, (findingId_of_violated p waivers today hviol).trans hid,
        kind_ne_degraded_of_violated p waivers today hviol, ?_⟩
      · rw [evaluate_violations]
        refine List.mem_append_left _ (List.mem_append_right _ ?_)
        exact List.mem_filterMap.mpr ⟨g, mem_sortBy.mpr hg, hviol⟩
      · exact kind_ne_budget_of_violated p waivers today hviol
    all_goals cases hacc

/-- A waived entry is some finding's own. -/
theorem exists_waived_iff (f : GateFinding) :
    (∃ w ∈ (evaluate fs p waivers stages today).waived, w.findingId = f.id) ↔
      ∃ g ∈ fs, g.id = f.id ∧ (dispositionIn p waivers today g).account? = some .waived := by
  have hwaived : (evaluate fs p waivers stages today).waived = (sortBy gateSortKey fs).filterMap
      fun g => (dispositionIn p waivers today g).waived? := by
    rw [dispositionIn, ← List.nil_append (List.filterMap _ _),
      ← degradedTally_waived p (sortedStages stages), ← foldl_perFinding_waived]
    rfl
  have hid : ∀ (g : GateFinding) (w : WaivedFinding) (ws : List String),
      dispositionIn p waivers today g = .waived w ws → w.findingId = g.id := fun g w ws hd => by
    unfold dispositionIn disposition at hd
    split at hd
    case isFalse => split at hd <;> cases hd
    split at hd
    · cases hd
    · unfold blockedDisposition at hd
      split at hd
      · cases hd
      · split at hd <;> cases hd
        rfl
  rw [hwaived]
  constructor
  · rintro ⟨w, hw, hwid⟩
    obtain ⟨g, hg, hd⟩ := List.mem_filterMap.mp hw
    rcases hdisp : dispositionIn p waivers today g with - | - | - | v | ⟨w', ws⟩ <;>
      rw [hdisp] at hd <;> cases hd
    exact ⟨g, mem_sortBy.mp hg, (hid g _ _ hdisp).symm.trans hwid, by rw [hdisp]; rfl⟩
  · rintro ⟨g, hg, hgid, hacc⟩
    rcases hdisp : dispositionIn p waivers today g with - | - | - | v | ⟨w, ws⟩ <;>
      rw [hdisp] at hacc <;> cases hacc
    refine ⟨w, List.mem_filterMap.mpr ⟨g, mem_sortBy.mpr hg, ?_⟩, (hid g _ _ hdisp).trans hgid⟩
    rw [hdisp]
    rfl

/-- **A finding is counted where its disposition says**, and nowhere else. -/
theorem countedIn_iff (hids : (fs.map GateFinding.id).Nodup) {f : GateFinding} (hf : f ∈ fs)
    (account : Account) : CountedIn fs p waivers stages today f account ↔
      (dispositionIn p waivers today f).account? = some account := by
  have hself : ∀ account : Account, (∃ g ∈ fs, g.id = f.id ∧
      (dispositionIn p waivers today g).account? = some account) ↔
      (dispositionIn p waivers today f).account? = some account := fun account => by
    constructor
    · rintro ⟨g, hg, hid, hacc⟩
      rwa [List.inj_on_of_nodup_map hids hg hf hid] at hacc
    · exact fun hacc => ⟨f, hf, rfl, hacc⟩
  rcases account with - | - | - | -
  · have hinherited : (evaluate fs p waivers stages today).inherited = (sortBy gateSortKey fs).filter
        fun g => (dispositionIn p waivers today g).isInherited := by
      rw [dispositionIn, ← List.nil_append (List.filter _ _),
        ← degradedTally_inherited p (sortedStages stages), ← foldl_perFinding_inherited]
      rfl
    rw [CountedIn, hinherited, List.mem_filter, mem_sortBy]
    rcases dispositionIn p waivers today f with - | - | - | v | ⟨w, ws⟩ <;>
      simp [Disposition.isInherited, Disposition.account?, hf]
  · rw [CountedIn, exists_waived_iff, hself]
  · rw [CountedIn, names_iff, hself]
  · rw [CountedIn, budgeted, foldl_perFinding_considered, degradedTally_considered, List.nil_append,
      List.mem_filter, mem_sortBy]
    change _ ∧ (dispositionIn p waivers today f).isConsidered = true ↔ _
    rcases dispositionIn p waivers today f with - | - | - | v | ⟨w, ws⟩ <;>
      simp [Disposition.isConsidered, Disposition.account?, hf]

/-- An actionable finding has an account. -/
theorem account_isSome {f : GateFinding} (hact : isActionable f p = true) :
    ∃ account, (dispositionIn p waivers today f).account? = some account := by
  rcases hd : dispositionIn p waivers today f with - | - | - | v | ⟨w, ws⟩
  · unfold dispositionIn disposition at hd
    split at hd
    · split at hd
      · cases hd
      · unfold blockedDisposition at hd
        split at hd
        · cases hd
        · split at hd <;> cases hd
    · cases hd
  · exact ⟨_, rfl⟩
  · exact ⟨_, rfl⟩
  · exact ⟨_, rfl⟩
  · exact ⟨_, rfl⟩

/-- **The gate decision, exactly**: what blocks the release decides BLOCKED, else what leaves it
open decides INCONCLUSIVE, else it passes; and every actionable finding is counted in exactly one
place. -/
theorem evaluate_characterised (hids : (fs.map GateFinding.id).Nodup)
    (hw : (waivers.map Waiver.findingId).Nodup) (hb : p.budgets.Loadable) :
    ((evaluate fs p waivers stages today).decision = .blocked ↔
        BlocksRelease fs p waivers today) ∧
      ((evaluate fs p waivers stages today).decision = .inconclusive ↔
        ¬BlocksRelease fs p waivers today ∧ LeavesOpen p stages) ∧
      ((evaluate fs p waivers stages today).decision = .pass ↔
        ¬BlocksRelease fs p waivers today ∧ ¬LeavesOpen p stages) ∧
      ∀ f ∈ fs, isActionable f p = true →
        ∃! account, CountedIn fs p waivers stages today f account := by
  rw [← hasBlocker_iff fs p waivers today hw hb]
  refine ⟨decision_eq_blocked_iff fs p waivers stages today,
    decision_eq_inconclusive_iff fs p waivers stages today,
    decision_eq_pass_iff fs p waivers stages today, fun f hf hact => ?_⟩
  obtain ⟨account, hacc⟩ := account_isSome p waivers today hact
  refine ⟨account, (countedIn_iff fs p waivers stages today hids hf account).mpr hacc, ?_⟩
  intro account' hcounted
  have hacc' := (countedIn_iff fs p waivers stages today hids hf account').mp hcounted
  exact Option.some.inj (hacc'.symm.trans hacc)

end Account

/-- A new critical finding, nobody's exemption. -/
def awsKey : GateFinding where
  id := "f1"
  ruleId := "aws-access-key"
  category := "credential"
  title := "AWS access key"
  severity := .critical
  status := "open"

/-- Under the shipping policy an unwaived critical finding blocks, and is a violation's. -/
theorem evaluate_characterised_awsKey :
    (evaluate [awsKey] {} [] ["unpack (oom)"] ⟨2026, 1, 1, by decide, by decide,
        by decide⟩).decision = .blocked ∧
      ∃! account, CountedIn [awsKey] {} [] ["unpack (oom)"] ⟨2026, 1, 1, by decide, by decide,
        by decide⟩ awsKey account := by
  have h := evaluate_characterised [awsKey] {} [] ["unpack (oom)"] ⟨2026, 1, 1, by decide, by decide,
    by decide⟩ (by decide) (by decide) (fun severity => by cases severity <;> decide)
  refine ⟨h.1.mpr (Or.inl ⟨awsKey, List.mem_singleton_self _, by decide, by decide, ?_⟩),
    h.2.2.2 awsKey (List.mem_singleton_self _) (by decide)⟩
  exact Or.inl fun w hw => absurd hw List.not_mem_nil

end BareAnalysis
