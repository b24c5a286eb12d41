import BareAnalysis.Pipeline.Stages
import BareAnalysis.Policy.Engine

/-!
# Pipeline/Gate — from a stored run to a verdict

    Finding rows ──collectGateFindings──▸ GateFinding ──evaluate──▸ GateVerdict
                         ▴
          resolveBaseline: which ids are old

`core/pipeline/gate.py`.  The projection reads who closed a finding off `llm_verdict`: the row keeps
no other record of it.
-/

namespace BareAnalysis

/-- Where the comparison "what is new" came from. -/
inductive BaselineSource
  | none | suppliedIds | explicitRun | previousRun
  deriving DecidableEq, Repr

/-- `BaselineRef`. -/
structure BaselineRef where
  runId : Option String := none
  findingIds : List String := []
  source : BaselineSource := .none
  deriving DecidableEq, Repr

/-- A text that is not empty: what `text or …` keeps. -/
def nonempty? (text : Option String) : Option String := text.filter fun t => t != ""

/-- `resolve_baseline`: pick the predecessor this run is measured against. -/
def resolveBaseline (db : Db) (run : Run) (baselineRunId : Option String)
    (baselineFindingIds : Option (List String)) : BaselineRef :=
  match baselineFindingIds with
  | some ids => { findingIds := ids, source := .suppliedIds }
  | none =>
    match (nonempty? baselineRunId).or run.previousRunId with
    | none => {}
    | some candidate =>
      match db.runs.get? candidate with
      | none => {}
      | some previous =>
        if previous.status ≠ .completed then {}
        else
          { runId := some previous.id
            findingIds := (db.findingsOf previous.id).map Finding.id
            source := if (nonempty? baselineRunId).isSome then .explicitRun else .previousRun }

/-- `_artifact_paths`: the first location of each finding. -/
def artifactPaths (db : Db) (runId : String) (findingIds : List String) : List (String × String) :=
  (sortBy (fun l => toLex (l.findingId, l.pathInTree))
    ((db.locationsOf runId).filter fun l => findingIds.contains l.findingId)).map
    fun l => (l.findingId, l.pathInTree)

/-- One finding in the gate's narrow view. -/
def gateFinding (baseline : BaselineRef) (paths : List (String × String)) (f : Finding) :
    GateFinding where
  id := f.id
  ruleId := f.ruleId
  category := f.category
  title := f.title
  severity := f.severity
  status := f.status.value
  isNew := !baseline.findingIds.contains f.id
  llmDismissed := f.llmVerdict == some .falsePositive
  artifactPath := (paths.lookup f.id).getD ""
  valueMasked := f.valueMasked

/-- `collect_gate_findings`. -/
def collectGateFindings (db : Db) (runId : String) (baseline : BaselineRef) : List GateFinding :=
  let findings := db.findingsOf runId
  let paths := artifactPaths db runId (findings.map Finding.id)
  findings.map (gateFinding baseline paths)

/-- A finding as `collectGateFindings` sees it. -/
def gateView (db : Db) (runId : String) (baseline : BaselineRef) (f : Finding) : GateFinding :=
  gateFinding baseline (artifactPaths db runId ((db.findingsOf runId).map Finding.id)) f

/-- `RunNotReady`, with its message. -/
structure RunNotReady where
  message : String
  deriving DecidableEq, Repr

/-- `gate_run`: evaluate a stored run against a policy. -/
def gateRun (db : Db) (runId : String) (policy : Policy) (waivers : List Waiver)
    (baselineRunId : Option String) (baselineFindingIds : Option (List String)) (today : Date) :
    Except RunNotReady (GateVerdict × BaselineRef) :=
  match db.runs.get? runId with
  | none => .error ⟨"run " ++ runId ++ " does not exist"⟩
  | some run =>
    if !run.status.isTerminal then
      .error ⟨"run " ++ runId ++ " is " ++ run.status.value ++ "; the gate needs a finished scan"⟩
    else if run.status = .failed then
      let stage := "run failed: " ++ (nonempty? run.error).getD "unknown error"
      .ok (evaluate [] policy waivers [stage] today, {})
    else
      let baseline := resolveBaseline db run baselineRunId baselineFindingIds
      let findings := collectGateFindings db runId baseline
      let stages := describeDegraded (degradedStages db runId)
      .ok (evaluate findings policy waivers stages today, baseline)

/-! ## Reading the projection -/

/-- The gate's decision on a run, when it gives one. -/
def gateDecision (db : Db) (runId : String) (policy : Policy) (waivers : List Waiver)
    (baselineRunId : Option String) (baselineFindingIds : Option (List String)) (today : Date) :
    Option GateDecision :=
  match gateRun db runId policy waivers baselineRunId baselineFindingIds today with
  | .ok (verdict, _) => some verdict.decision
  | .error _ => none

/-- The texts the gate takes for closed are the closed statuses. -/
theorem contains_closed_value (s : FindingStatus) :
    ["false_positive", "accepted_risk", "fixed"].contains s.value = s.isClosed := by
  cases s <;> decide

theorem isOpen_gateFinding (baseline : BaselineRef) (paths : List (String × String)) (f : Finding) :
    (gateFinding baseline paths f).isOpen = !f.status.isClosed :=
  congrArg not (contains_closed_value f.status)

/-- **What the gate takes for actionable**: the status is open, or the model's last verdict is a
dismissal the policy does not trust. -/
theorem isActionable_gateFinding (baseline : BaselineRef) (paths : List (String × String))
    (f : Finding) (p : Policy) :
    isActionable (gateFinding baseline paths f) p
      = (!f.status.isClosed || (f.llmVerdict == some .falsePositive && !p.trustLlmDismissals)) := by
  unfold isActionable
  rw [isOpen_gateFinding]
  cases f.status.isClosed <;> rfl

theorem collectGateFindings_eq (db : Db) (runId : String) (baseline : BaselineRef) :
    collectGateFindings db runId baseline
      = (db.findingsOf runId).map (gateView db runId baseline) := rfl

section Row

variable {db : Db} {runId id : String} {f : Finding}

/-- A stored finding reaches the gate. -/
theorem gateView_mem (h : db.findings.get? (id, runId) = some f) (baseline : BaselineRef) :
    gateView db runId baseline f ∈ collectGateFindings db runId baseline := by
  obtain ⟨hmem, hkey⟩ := Table.get?_eq_some.mp h
  exact List.mem_map_of_mem (Db.mem_findingsOf.mpr ⟨hmem, congrArg Prod.snd hkey⟩)

/-- **…and it is the only one there with its id.** -/
theorem eq_gateView_of_mem (h : db.findings.get? (id, runId) = some f) {baseline : BaselineRef}
    {g : GateFinding} (hg : g ∈ collectGateFindings db runId baseline) (hid : g.id = id) :
    g = gateView db runId baseline f := by
  obtain ⟨f', hf', rfl⟩ := List.mem_map.mp hg
  obtain ⟨hmem', hrun⟩ := Db.mem_findingsOf.mp hf'
  have hkey : f'.key = (id, runId) := Prod.ext hid hrun
  have : db.findings.get? (id, runId) = some f' := Table.get?_eq_some.mpr ⟨hmem', hkey⟩
  rw [h] at this
  cases this
  rfl

theorem gateView_id (h : db.findings.get? (id, runId) = some f) (baseline : BaselineRef) :
    (gateView db runId baseline f).id = id := congrArg Prod.fst (Table.key_of_get? h)

end Row

/-! ## A verdict held against one finding -/

/-- The verdict blocks, and names the finding as a reason. -/
def GateVerdict.BlockedBy (verdict : GateVerdict) (findingId : String) : Prop :=
  verdict.decision = .blocked ∧
    ∃ v ∈ verdict.violations, v.findingId = findingId ∧ v.kind ≠ .degradedScan
      ∧ v.kind ≠ .budgetExceeded

/-- The finding is the same but for what triage may write on it. -/
structure Finding.Rejudged (f f' : Finding) : Prop where
  id : f'.id = f.id
  runId : f'.runId = f.runId
  ruleId : f'.ruleId = f.ruleId
  category : f'.category = f.category
  title : f'.title = f.title
  severity : f'.severity = f.severity
  valueMasked : f'.valueMasked = f.valueMasked

namespace Finding.Rejudged

theorem refl (f : Finding) : f.Rejudged f := ⟨rfl, rfl, rfl, rfl, rfl, rfl, rfl⟩

theorem trans {f g h : Finding} (hfg : f.Rejudged g) (hgh : g.Rejudged h) : f.Rejudged h :=
  ⟨hgh.id.trans hfg.id, hgh.runId.trans hfg.runId, hgh.ruleId.trans hfg.ruleId,
    hgh.category.trans hfg.category, hgh.title.trans hfg.title, hgh.severity.trans hfg.severity,
    hgh.valueMasked.trans hfg.valueMasked⟩

end Finding.Rejudged

/-- The gate reads the same database but for what triage may write. -/
structure Db.Rejudged (db db' : Db) : Prop where
  runs : db'.runs = db.runs
  stages : db'.stages = db.stages
  locations : db'.locations = db.locations
  findings : ∃ judge : Finding → Finding, (∀ f : Finding, f.Rejudged (judge f)) ∧
    db'.findings.rows = db.findings.rows.map judge

namespace Db.Rejudged

theorem refl (db : Db) : db.Rejudged db := ⟨rfl, rfl, rfl, id, Finding.Rejudged.refl, by simp⟩

theorem trans {db db₁ db₂ : Db} (h : db.Rejudged db₁) (h' : db₁.Rejudged db₂) : db.Rejudged db₂ := by
  obtain ⟨j, hj, hrows⟩ := h.findings
  obtain ⟨j', hj', hrows'⟩ := h'.findings
  exact ⟨h'.runs.trans h.runs, h'.stages.trans h.stages, h'.locations.trans h.locations,
    j' ∘ j, fun f => (hj f).trans (hj' (j f)), by rw [hrows', hrows, List.map_map]⟩

variable {db db' : Db} (h : db.Rejudged db')

include h in
/-- A rejudged run keeps its finding ids. -/
theorem ids_eq (runId : String) :
    (db'.findingsOf runId).map Finding.id = (db.findingsOf runId).map Finding.id := by
  obtain ⟨judge, hjudge, hrows⟩ := h.findings
  have hrun : (fun f : Finding => f.runId == runId) ∘ judge = fun f => f.runId == runId :=
    funext fun f => by simp [(hjudge f).runId]
  rw [Db.findingsOf, Table.select, hrows, List.filter_map, hrun, List.map_map]
  exact List.map_congr_left fun f _ => (hjudge f).id

include h in
theorem artifactPaths_eq (runId : String) (ids : List String) :
    artifactPaths db' runId ids = artifactPaths db runId ids := by
  rw [artifactPaths, artifactPaths, Db.locationsOf, Db.locationsOf, h.locations]

include h in
/-- **…its baseline, whoever supplied it**… -/
theorem resolveBaseline_eq (run : Run) (baselineRunId : Option String)
    (baselineFindingIds : Option (List String)) :
    resolveBaseline db' run baselineRunId baselineFindingIds
      = resolveBaseline db run baselineRunId baselineFindingIds := by
  unfold resolveBaseline
  simp only [h.runs, h.ids_eq]

include h in
theorem degradedStages_eq (runId : String) : degradedStages db' runId = degradedStages db runId := by
  rw [degradedStages, degradedStages, Db.stagesOf, Db.stagesOf, h.stages]

include h in
/-- …and the gate's view of a finding, but for its status and who closed it. -/
theorem gateView_eq {runId : String} {f f' : Finding} (hf : f.Rejudged f') (baseline : BaselineRef) :
    gateView db' runId baseline f'
      = { gateView db runId baseline f with
          status := f'.status.value
          llmDismissed := f'.llmVerdict == some .falsePositive } := by
  rw [gateView, gateView, h.ids_eq, h.artifactPaths_eq]
  simp [gateFinding, hf.id, hf.ruleId, hf.category, hf.title, hf.severity, hf.valueMasked]

include h in
/-- The stored row of a rejudged finding. -/
theorem get?_eq {runId id : String} {f : Finding} (hf : db.findings.get? (id, runId) = some f) :
    ∃ f', db'.findings.get? (id, runId) = some f' ∧ f.Rejudged f' := by
  obtain ⟨judge, hjudge, hrows⟩ := h.findings
  obtain ⟨hmem, hkey⟩ := Table.get?_eq_some.mp hf
  refine ⟨judge f, Table.get?_eq_some.mpr ⟨?_, ?_⟩, hjudge f⟩
  · rw [hrows]
    exact List.mem_map_of_mem hmem
  · rw [← hkey]
    exact Prod.ext (hjudge f).id (hjudge f).runId

include h in
/-- **A verdict held against a finding stands while the finding is actionable**, whatever else
triage has written. -/
theorem gateDecision_of_blockedBy {runId id : String} {policy : Policy} {waivers : List Waiver}
    {baselineRunId : Option String} {baselineFindingIds : Option (List String)} {today : Date}
    {f f' : Finding} (hf : db.findings.get? (id, runId) = some f)
    (hf' : db'.findings.get? (id, runId) = some f') (hjudged : f.Rejudged f')
    (hact : ∀ baseline, isActionable (gateView db' runId baseline f') policy
      = isActionable (gateView db runId baseline f) policy)
    {verdict : GateVerdict} {ref : BaselineRef}
    (hrun : gateRun db runId policy waivers baselineRunId baselineFindingIds today
      = .ok (verdict, ref)) (hblock : verdict.BlockedBy id) :
    gateDecision db' runId policy waivers baselineRunId baselineFindingIds today
      = some .blocked := by
  obtain ⟨-, v, hv, hid, hdeg, hbud⟩ := hblock
  unfold gateRun at hrun
  unfold gateDecision gateRun
  rw [h.runs]
  cases hr : db.runs.get? runId with
  | none => simp [hr] at hrun
  | some run =>
    simp only [hr] at hrun ⊢
    by_cases hterm : run.status.isTerminal = true
    · simp only [hterm, Bool.not_true, Bool.false_eq_true, if_false] at hrun ⊢
      by_cases hfail : run.status = .failed
      · -- a failed run has no finding's violation to be held against
        rw [if_pos hfail] at hrun
        cases hrun
        obtain ⟨g, hg, -⟩ := exists_violated_of_mem _ _ _ _ _ hv hdeg hbud
        cases hg
      · rw [if_neg hfail] at hrun ⊢
        cases hrun
        obtain ⟨g, hg, hviol⟩ := exists_violated_of_mem _ _ _ _ _ hv hdeg hbud
        have hgid : g.id = id := (findingId_of_violated _ _ _ hviol).symm.trans hid
        obtain rfl := eq_gateView_of_mem hf hg hgid
        have hviol' : (dispositionIn policy waivers today (gateView db' runId
            (resolveBaseline db' run baselineRunId baselineFindingIds) f')).violation? = some v := by
          rw [h.resolveBaseline_eq, h.gateView_eq hjudged, dispositionIn_rejudged, hviol]
          rw [← h.gateView_eq hjudged, hact]
        simp only
        rw [decision_blocked_of_violated _ _ _ _ _ (gateView_mem hf' _) hviol']
    · simp [hterm] at hrun

end Db.Rejudged

end BareAnalysis
