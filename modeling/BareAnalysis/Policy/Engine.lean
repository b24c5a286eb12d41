import Mathlib.Data.List.Dedup
import BareAnalysis.Machinery.Sorting
import BareAnalysis.Policy.Model

/-!
# Policy/Engine — findings in, a release decision out

`core/policy/engine.py`.  `evaluate` runs three phases over the sorted findings: the degraded stages,
one pass over the findings (`perFinding`), and the budgets over what that pass let through.
`evaluate_violations` reads the violations off finding by finding, so a caller never opens the loop.
-/

namespace BareAnalysis

/-- `_is_actionable`: an open finding is considered; a closed one is reopened when the model closed
it and the policy does not trust the model. -/
def isActionable (f : GateFinding) (p : Policy) : Bool :=
  if f.isOpen then true else f.llmDismissed && !p.trustLlmDismissals

/-- `_blocking_reason`. -/
def blockingReason (f : GateFinding) (p : Policy) : Option ViolationKind :=
  if p.blockRules.contains f.ruleId then some .blockedRule
  else if p.blockCategories.contains f.category then some .blockedCategory
  else if p.blocks f.severity then some .severityFloor
  else none

/-- `_violation`; `blockingReason` gives no kind but the three listed. -/
def violation (f : GateFinding) (kind : ViolationKind) : Violation where
  kind := kind
  detail := match kind with
    | .severityFloor => f.severity.value ++ " finding blocks release"
    | .blockedRule => "rule " ++ f.ruleId ++ " is blocked by policy"
    | .blockedCategory => "category " ++ f.category ++ " is blocked by policy"
    | .budgetExceeded | .degradedScan | .expiredWaiver => ""
  findingId := f.id
  ruleId := f.ruleId
  severity := some f.severity
  title := f.title
  artifactPath := f.artifactPath

/-- The violation an expired waiver leaves behind. -/
def expiredViolation (f : GateFinding) (w : Waiver) : Violation where
  kind := .expiredWaiver
  detail := "waiver expired " ++ w.expires.isoformat ++ " (owner: "
    ++ (if w.owner = "" then "unknown" else w.owner) ++ ")"
  findingId := f.id
  ruleId := f.ruleId
  severity := some f.severity
  title := f.title
  artifactPath := f.artifactPath

/-- `_waiver_exceeds_ttl`. -/
def waiverExceedsTtl (w : Waiver) (p : Policy) (today : Date) : Bool :=
  decide (p.maxWaiverDays < (w.expires.toordinal : ℤ) - today.toordinal)

/-- The warning a waiver with too long a life gets. -/
def ttlWarnings (f : GateFinding) (w : Waiver) (p : Policy) (today : Date) : List String :=
  if waiverExceedsTtl w p today then
    ["waiver for " ++ String.ofList (f.id.toList.take 12) ++ " runs past the "
      ++ toString p.maxWaiverDays ++ "-day maximum (expires " ++ w.expires.isoformat ++ ")"]
  else []

/-- The lists phase 2 appends to. -/
structure Tally where
  considered : List GateFinding := []
  violations : List Violation := []
  waived : List WaivedFinding := []
  inherited : List GateFinding := []
  warnings : List String := []
  deriving DecidableEq, Repr

section Phases

variable (p : Policy) (waiverIndex : Dict String Waiver) (today : Date)

/-- One turn of the loop over the findings. -/
def perFinding (t : Tally) (f : GateFinding) : Tally :=
  if !isActionable f p then t
  else if p.baselineMode = .newOnly ∧ ¬f.isNew then { t with inherited := t.inherited ++ [f] }
  else match blockingReason f p with
    | none => { t with considered := t.considered ++ [f] }
    | some reason => match waiverIndex.get? f.id with
      | none => { t with violations := t.violations ++ [violation f reason] }
      | some w =>
        if w.isExpired today then { t with violations := t.violations ++ [expiredViolation f w] }
        else
          { t with
            warnings := t.warnings ++ ttlWarnings f w p today
            waived := t.waived ++ [⟨f.id, f.title, f.severity, w.owner, w.reason, w.expires⟩] }

end Phases

/-- `_budget_violations`. -/
def budgetViolations (findings : List GateFinding) (p : Policy) : List Violation :=
  (sortBy (fun c => c.1.rank) (countBy GateFinding.severity findings)).filterMap
    fun (severity, count) =>
      let limit := p.budgets.limitFor severity
      if limit = unlimited then none
      else if limit < count then
        some { kind := .budgetExceeded
               detail := toString count ++ " " ++ severity.value ++ " findings exceed the budget of "
                 ++ toString limit
               severity := some severity }
      else none

/-- `_decide`: only degraded violations make a scan inconclusive, any other blocks. -/
def decideGate (violations : List Violation) (stages : List String) (p : Policy) : GateDecision :=
  if violations ≠ [] ∧ violations.all fun v => v.kind == .degradedScan then .inconclusive
  else if violations ≠ [] then .blocked
  else if stages ≠ [] ∧ p.onDegraded = .warn then .inconclusive
  else .pass

/-- The order findings are judged in. -/
def gateSortKey (f : GateFinding) : ℕ ×ₗ String ×ₗ String :=
  toLex (f.severity.rank, toLex (f.ruleId, f.id))

/-- `sorted(set(stages))`. -/
def sortedStages (stages : List String) : List String := sortBy id stages.dedup

/-- What phase 1 appends. -/
def degradedTally (p : Policy) (stages : List String) : Tally :=
  if stages ≠ [] ∧ p.onDegraded = .fail then
    { violations := [{ kind := .degradedScan
                       detail := "scan incomplete: " ++ ", ".intercalate stages
                         ++ " did not finish, so the artifact was not fully examined" }] }
  else if stages ≠ [] ∧ p.onDegraded = .warn then
    { warnings := ["scan incomplete: " ++ ", ".intercalate stages
        ++ " did not finish; findings may be partial"] }
  else {}

/-- `evaluate`: decide whether this artifact may ship. -/
def evaluate (findings : List GateFinding) (p : Policy) (waivers : List Waiver)
    (degradedStages : List String) (today : Date) : GateVerdict :=
  let allFindings := sortBy gateSortKey findings
  let stages := sortedStages degradedStages
  let waiverIndex := indexBy Waiver.findingId waivers
  let t := allFindings.foldl (perFinding p waiverIndex today) (degradedTally p stages)
  let violations := t.violations ++ budgetViolations t.considered p
  { decision := decideGate violations stages p
    policyName := p.name
    violations := violations
    waived := t.waived
    inherited := t.inherited
    degradedStages := stages
    countsBySeverity := countBy (fun f => f.severity.value) allFindings
    newCountsBySeverity := countBy (fun f => f.severity.value) (allFindings.filter (·.isNew))
    totalFindings := allFindings.length
    warnings := t.warnings }

/-! ## What one turn of the loop does

A finding has one `disposition`; the loop records it.  Everything known about the loop is read off
the dispositions. -/

/-- Where one finding ends up. -/
inductive Disposition
  | skipped
  | inherited
  | considered
  | violated (v : Violation)
  | waived (w : WaivedFinding) (warnings : List String)

/-- The violation of a disposition, if it is one. -/
def Disposition.violation? : Disposition → Option Violation
  | .violated v => some v
  | .skipped | .inherited | .considered | .waived _ _ => none

/-- The finding was left for the budgets to count. -/
def Disposition.isConsidered : Disposition → Bool
  | .considered => true
  | .skipped | .inherited | .violated _ | .waived _ _ => false

/-- What a disposition appends. -/
def Tally.record (t : Tally) (f : GateFinding) : Disposition → Tally
  | .skipped => t
  | .inherited => { t with inherited := t.inherited ++ [f] }
  | .considered => { t with considered := t.considered ++ [f] }
  | .violated v => { t with violations := t.violations ++ [v] }
  | .waived w warnings =>
    { t with waived := t.waived ++ [w], warnings := t.warnings ++ warnings }

@[simp] theorem Tally.record_violations (t : Tally) (f : GateFinding) (d : Disposition) :
    (t.record f d).violations = t.violations ++ d.violation?.toList := by
  cases d <;> simp [Tally.record, Disposition.violation?]

@[simp] theorem Tally.record_considered (t : Tally) (f : GateFinding) (d : Disposition) :
    (t.record f d).considered = t.considered ++ if d.isConsidered then [f] else [] := by
  cases d <;> simp [Tally.record, Disposition.isConsidered]

section Contribution

variable (p : Policy) (waiverIndex : Dict String Waiver) (today : Date)

/-- The finding is considered and within the scope the baseline mode sets. -/
def inScope (f : GateFinding) : Bool := isActionable f p && (p.baselineMode == .all || f.isNew)

/-- Where a blocking finding ends up: its waiver, if it has one in force, decides. -/
def blockedDisposition (f : GateFinding) (reason : ViolationKind) : Disposition :=
  match waiverIndex.get? f.id with
  | none => .violated (violation f reason)
  | some w =>
    if w.isExpired today then .violated (expiredViolation f w)
    else .waived ⟨f.id, f.title, f.severity, w.owner, w.reason, w.expires⟩ (ttlWarnings f w p today)

/-- Where one finding ends up. -/
def disposition (f : GateFinding) : Disposition :=
  if inScope p f then
    match blockingReason f p with
    | none => .considered
    | some reason => blockedDisposition p waiverIndex today f reason
  else if isActionable f p then .inherited
  else .skipped

/-- **One turn of the loop records the finding's disposition.** -/
theorem perFinding_eq_record (t : Tally) (f : GateFinding) :
    perFinding p waiverIndex today t f = t.record f (disposition p waiverIndex today f) := by
  unfold perFinding disposition inScope
  cases hact : isActionable f p with
  | false => rfl
  | true =>
    by_cases hscope : p.baselineMode = .newOnly ∧ ¬f.isNew
    · have hin : (p.baselineMode == .all || f.isNew) = false := by simp [hscope]
      rw [if_neg (by simp), if_pos hscope, hin]
      rfl
    · have hin : (p.baselineMode == .all || f.isNew) = true := by
        cases hm : p.baselineMode <;> simp_all
      rw [if_neg (by simp), if_neg hscope, hin]
      cases blockingReason f p with
      | none => rfl
      | some reason =>
        simp only [blockedDisposition, Bool.true_and, if_true]
        cases waiverIndex.get? f.id with
        | none => rfl
        | some w =>
          dsimp only
          cases w.isExpired today <;> rfl

/-- **The violations of the loop, finding by finding.** -/
theorem foldl_perFinding_violations (t : Tally) (fs : List GateFinding) :
    (fs.foldl (perFinding p waiverIndex today) t).violations
      = t.violations ++ fs.filterMap fun f => (disposition p waiverIndex today f).violation? := by
  induction fs generalizing t with
  | nil => simp
  | cons f fs ih =>
    rw [List.foldl_cons, ih, perFinding_eq_record, Tally.record_violations, List.append_assoc]
    cases h : (disposition p waiverIndex today f).violation? <;> simp [h]

/-- **…and the findings it leaves for the budgets.** -/
theorem foldl_perFinding_considered (t : Tally) (fs : List GateFinding) :
    (fs.foldl (perFinding p waiverIndex today) t).considered
      = t.considered ++ fs.filter fun f => (disposition p waiverIndex today f).isConsidered := by
  induction fs generalizing t with
  | nil => simp
  | cons f fs ih =>
    rw [List.foldl_cons, ih, perFinding_eq_record, Tally.record_considered, List.append_assoc,
      List.filter_cons]
    cases (disposition p waiverIndex today f).isConsidered <;> rfl

end Contribution

/-! ## The verdict, read off the dispositions -/

/-- Where a finding ends up in `evaluate`. -/
def dispositionIn (p : Policy) (waivers : List Waiver) (today : Date) : GateFinding → Disposition :=
  disposition p (indexBy Waiver.findingId waivers) today

section Verdict

variable (fs : List GateFinding) (p : Policy) (waivers : List Waiver) (stages : List String)
  (today : Date)

/-- **The violations of a verdict**: the degraded stages', the findings', the budgets'. -/
theorem evaluate_violations :
    (evaluate fs p waivers stages today).violations
      = (degradedTally p (sortedStages stages)).violations
        ++ (sortBy gateSortKey fs).filterMap (fun f => (dispositionIn p waivers today f).violation?)
        ++ budgetViolations
            ((degradedTally p (sortedStages stages)).considered ++ (sortBy gateSortKey fs).filter
              fun f => (dispositionIn p waivers today f).isConsidered) p := by
  rw [dispositionIn, ← foldl_perFinding_violations, ← foldl_perFinding_considered]
  rfl

theorem evaluate_decision :
    (evaluate fs p waivers stages today).decision
      = decideGate (evaluate fs p waivers stages today).violations (sortedStages stages) p := rfl

theorem degradedTally_considered : (degradedTally p stages).considered = [] := by
  unfold degradedTally
  split
  · rfl
  · split <;> rfl

theorem kind_of_mem_degradedTally {v : Violation} (hv : v ∈ (degradedTally p stages).violations) :
    v.kind = .degradedScan := by
  unfold degradedTally at hv
  split at hv
  · obtain rfl := List.mem_singleton.mp hv
    rfl
  · split at hv <;> simp at hv

theorem kind_of_mem_budgetViolations {gs : List GateFinding} {v : Violation}
    (hv : v ∈ budgetViolations gs p) : v.kind = .budgetExceeded := by
  obtain ⟨⟨severity, count⟩, -, hc⟩ := List.mem_filterMap.mp hv
  dsimp only at hc
  split at hc
  · cases hc
  · split at hc
    · cases hc; rfl
    · cases hc

/-- `_blocking_reason` gives one of its three kinds. -/
theorem blockingReason_kind {f : GateFinding} {kind : ViolationKind}
    (h : blockingReason f p = some kind) : kind ≠ .degradedScan ∧ kind ≠ .budgetExceeded := by
  unfold blockingReason at h
  split_ifs at h <;> cases h <;> decide

/-- A finding's violation gives the blocking reason, or the expired waiver. -/
theorem kind_of_violated {f : GateFinding} {v : Violation}
    (hv : (dispositionIn p waivers today f).violation? = some v) :
    v.kind = .expiredWaiver ∨ blockingReason f p = some v.kind := by
  unfold dispositionIn disposition at hv
  split at hv
  case isFalse => split at hv <;> cases hv
  split at hv
  · cases hv
  · rename_i reason hreason
    unfold blockedDisposition at hv
    split at hv
    · cases hv
      exact Or.inr hreason
    · split at hv <;> cases hv
      exact Or.inl rfl

theorem kind_ne_degraded_of_violated {f : GateFinding} {v : Violation}
    (hv : (dispositionIn p waivers today f).violation? = some v) : v.kind ≠ .degradedScan := by
  rcases kind_of_violated p waivers today hv with h | h
  · rw [h]; decide
  · exact (blockingReason_kind p h).1

theorem kind_ne_budget_of_violated {f : GateFinding} {v : Violation}
    (hv : (dispositionIn p waivers today f).violation? = some v) : v.kind ≠ .budgetExceeded := by
  rcases kind_of_violated p waivers today hv with h | h
  · rw [h]; decide
  · exact (blockingReason_kind p h).2

/-- A violation that is neither the scan's nor a budget's is some finding's. -/
theorem exists_violated_of_mem {v : Violation}
    (hv : v ∈ (evaluate fs p waivers stages today).violations) (hdeg : v.kind ≠ .degradedScan)
    (hbud : v.kind ≠ .budgetExceeded) :
    ∃ f ∈ fs, (dispositionIn p waivers today f).violation? = some v := by
  rw [evaluate_violations, List.mem_append, List.mem_append] at hv
  rcases hv with (hv | hv) | hv
  · exact absurd (kind_of_mem_degradedTally p _ hv) hdeg
  · obtain ⟨f, hf, hd⟩ := List.mem_filterMap.mp hv
    exact ⟨f, mem_sortBy.mp hf, hd⟩
  · exact absurd (kind_of_mem_budgetViolations p hv) hbud

/-- A finding's violation names it. -/
theorem findingId_of_violated {f : GateFinding} {v : Violation}
    (hv : (dispositionIn p waivers today f).violation? = some v) : v.findingId = f.id := by
  unfold dispositionIn disposition at hv
  split at hv
  case isFalse => split at hv <;> cases hv
  split at hv
  · cases hv
  · unfold blockedDisposition at hv
    split at hv
    · cases hv; rfl
    · split at hv <;> cases hv
      rfl

/-- **Judging a finding anew moves it only through `isActionable`.** -/
theorem dispositionIn_rejudged {f : GateFinding} {status : String} {dismissed : Bool}
    (h : isActionable { f with status := status, llmDismissed := dismissed } p
      = isActionable f p) :
    dispositionIn p waivers today { f with status := status, llmDismissed := dismissed }
      = dispositionIn p waivers today f := by
  unfold dispositionIn disposition inScope
  rw [h]
  rfl

/-- **A finding's violation blocks the release.** -/
theorem decision_blocked_of_violated {f : GateFinding} (hf : f ∈ fs) {v : Violation}
    (hv : (dispositionIn p waivers today f).violation? = some v) :
    (evaluate fs p waivers stages today).decision = .blocked := by
  have hmem : v ∈ (evaluate fs p waivers stages today).violations := by
    rw [evaluate_violations]
    refine List.mem_append_left _ (List.mem_append_right _ ?_)
    exact List.mem_filterMap.mpr ⟨f, mem_sortBy.mpr hf, hv⟩
  have hne : (evaluate fs p waivers stages today).violations ≠ [] := List.ne_nil_of_mem hmem
  have hnot : ((evaluate fs p waivers stages today).violations.all
      fun v => v.kind == .degradedScan) = false := by
    rw [List.all_eq_false]
    exact ⟨v, hmem, by simpa using kind_ne_degraded_of_violated p waivers today hv⟩
  rw [evaluate_decision, decideGate, hnot, if_neg (by simp), if_pos hne]

/-- **Findings the baseline knows do not block** a gate that only looks at new ones. -/
theorem decision_ne_blocked_of_inherited (hp : p.baselineMode = .newOnly)
    (hold : ∀ f ∈ fs, f.isNew = false) :
    (evaluate fs p waivers stages today).decision ≠ .blocked := by
  have hscope : ∀ f ∈ sortBy gateSortKey fs, inScope p f = false := fun f hf => by
    rw [inScope, hold f (mem_sortBy.mp hf), hp]
    simp
  have hout : ∀ f ∈ sortBy gateSortKey fs, dispositionIn p waivers today f = .inherited ∨
      dispositionIn p waivers today f = .skipped := fun f hf => by
    rw [dispositionIn, disposition, if_neg (by rw [hscope f hf]; decide)]
    split
    · exact Or.inl rfl
    · exact Or.inr rfl
  have hviol : (sortBy gateSortKey fs).filterMap
      (fun f => (dispositionIn p waivers today f).violation?) = [] :=
    List.filterMap_eq_nil_iff.mpr fun f hf => by rcases hout f hf with h | h <;> rw [h] <;> rfl
  have hcons : (sortBy gateSortKey fs).filter
      (fun f => (dispositionIn p waivers today f).isConsidered) = [] :=
    List.filter_eq_nil_iff.mpr fun f hf => by rcases hout f hf with h | h <;> rw [h] <;> decide
  have hall : (evaluate fs p waivers stages today).violations
      = (degradedTally p (sortedStages stages)).violations := by
    rw [evaluate_violations, hviol, hcons, degradedTally_considered, List.append_nil,
      List.append_nil, show budgetViolations [] p = [] from rfl, List.append_nil]
  rw [evaluate_decision, hall, decideGate]
  split
  · decide
  · rename_i hnot
    split
    · rename_i hne
      refine absurd ⟨hne, List.all_eq_true.mpr fun v hv => ?_⟩ hnot
      rw [kind_of_mem_degradedTally p _ hv]
      rfl
    · split <;> decide

/-- **A degraded scan never passes under the failing or the warning posture.** -/
theorem decision_ne_pass_of_degraded (hs : stages ≠ []) (hp : p.onDegraded ≠ .pass) :
    (evaluate fs p waivers stages today).decision ≠ .pass := by
  have hstages : sortedStages stages ≠ [] := by
    obtain ⟨s, hs⟩ := List.exists_mem_of_ne_nil stages hs
    exact List.ne_nil_of_mem (mem_sortBy.mpr (List.mem_dedup.mpr hs))
  rw [evaluate_decision, decideGate]
  split
  · decide
  · split
    · decide
    · rename_i hempty
      rw [if_pos]
      · decide
      · refine ⟨hstages, ?_⟩
        cases hd : p.onDegraded with
        | warn => rfl
        | pass => exact absurd hd hp
        | fail =>
          have : (evaluate fs p waivers stages today).violations ≠ [] := by
            rw [evaluate_violations, degradedTally, if_pos ⟨hstages, hd⟩]
            simp
          exact absurd this hempty

end Verdict

end BareAnalysis
