import BareAnalysis.Machinery.Fallible
import BareAnalysis.Machinery.Json
import BareAnalysis.Policy.Engine
import BareAnalysis.Policy.Loader

/-!
# Policy/Wire — the gate verdict on the wire

    GateVerdict ──verdict_to_dict──▸ JSON ──verdict_from_dict──▸ the verdict, as it was read

`core/policy/serde.py`.  Texts and enumerations are converted on the way back, the lists of stages
and warnings and the counts are taken as they come.
-/

namespace BareAnalysis

/-- `GateDecision`, as the wire has it. -/
def GateDecision.value : GateDecision → String
  | .pass => "pass"
  | .blocked => "blocked"
  | .inconclusive => "inconclusive"

/-- `ViolationKind`, as the wire has it. -/
def ViolationKind.value : ViolationKind → String
  | .severityFloor => "severity_floor"
  | .blockedCategory => "blocked_category"
  | .blockedRule => "blocked_rule"
  | .budgetExceeded => "budget_exceeded"
  | .degradedScan => "degraded_scan"
  | .expiredWaiver => "expired_waiver"

/-- A member of an enumeration, by its value. -/
def enumOf {α : Type} (name : String) (value : α → String) (members : List α) (text : String) :
    Except PyError α :=
  match members.find? fun a => value a == text with
  | some member => .ok member
  | none => .error (.valueError ("'" ++ text ++ "' is not a valid " ++ name))

/-- `GateDecision(text)`. -/
def GateDecision.parse (text : String) : Except PyError GateDecision :=
  enumOf "GateDecision" value [.pass, .blocked, .inconclusive] text

/-- `ViolationKind(text)`. -/
def ViolationKind.parse (text : String) : Except PyError ViolationKind :=
  enumOf "ViolationKind" value [.severityFloor, .blockedCategory, .blockedRule, .budgetExceeded,
    .degradedScan, .expiredWaiver] text

/-- `Severity(text)`. -/
def severityOfText (text : String) : Except PyError Severity :=
  enumOf "Severity" Severity.value [.critical, .high, .medium, .low, .info] text

/-! ## Out -/

namespace Wire

/-- One violation. -/
def violationToDict (v : Violation) : Json :=
  .obj [("kind", .str v.kind.value), ("detail", .str v.detail), ("finding_id", .str v.findingId),
    ("rule_id", .str v.ruleId),
    ("severity", match v.severity with
      | some severity => .str severity.value
      | none => .null),
    ("title", .str v.title), ("artifact_path", .str v.artifactPath)]

/-- One waived finding. -/
def waivedToDict (w : WaivedFinding) : Json :=
  .obj [("finding_id", .str w.findingId), ("title", .str w.title),
    ("severity", .str w.severity.value), ("owner", .str w.owner), ("reason", .str w.reason),
    ("expires", .str w.expires.isoformat)]

/-- One inherited finding. -/
def inheritedToDict (f : GateFinding) : Json :=
  .obj [("id", .str f.id), ("rule_id", .str f.ruleId), ("category", .str f.category),
    ("title", .str f.title), ("severity", .str f.severity.value), ("status", .str f.status),
    ("artifact_path", .str f.artifactPath)]

/-- Counts by severity. -/
def countsToDict (counts : Counter String) : List (String × Json) :=
  counts.map fun kv => (kv.1, .int kv.2)

/-- `verdict_to_dict`. -/
def verdictToDict (v : GateVerdict) : Json :=
  .obj [("decision", .str v.decision.value), ("exit_code", .int v.decision.exitCode),
    ("policy_name", .str v.policyName), ("total_findings", .int v.totalFindings),
    ("counts_by_severity", .obj (countsToDict v.countsBySeverity)),
    ("new_counts_by_severity", .obj (countsToDict v.newCountsBySeverity)),
    ("degraded_stages", .arr (v.degradedStages.map .str)), ("warnings", .arr (v.warnings.map .str)),
    ("violations", .arr (v.violations.map violationToDict)),
    ("waived", .arr (v.waived.map waivedToDict)),
    ("inherited", .arr (v.inherited.map inheritedToDict))]

/-! ## Back -/

/-- A verdict as it is read: what is not converted is whatever came. -/
structure ReadVerdict where
  decision : GateDecision
  policyName : String
  violations : List Violation
  waived : List WaivedFinding
  inherited : List GateFinding
  degradedStages : List Json
  countsBySeverity : List (String × Json)
  newCountsBySeverity : List (String × Json)
  totalFindings : ℤ
  warnings : List Json

section Read

variable (printable : Char → Bool)

/-- `str(value[key])`. -/
def requiredText (value : Json) (key : String) : Except PyError String :=
  return (← value.index key).text printable

/-- `str(value.get(key, default))`. -/
def optionalText (value : Json) (key default : String) : Except PyError String :=
  return (← value.getD key (.str default)).text printable

/-- A severity that may be missing; it is not converted to a text. -/
def optionalSeverity (value : Json) : Except PyError (Option Severity) := do
  if (← value.getOrNull "severity").truthy then
    match ← value.index "severity" with
    | .str text => return some (← severityOfText text)
    | v => throw (.valueError (v.reprText printable ++ " is not a valid Severity"))
  else return none

/-- One violation. -/
def violationFromDict (v : Json) : Except PyError Violation := do
  let kind ← ViolationKind.parse (← requiredText printable v "kind")
  let detail ← optionalText printable v "detail" ""
  let findingId ← optionalText printable v "finding_id" ""
  let ruleId ← optionalText printable v "rule_id" ""
  let severity ← optionalSeverity printable v
  let title ← optionalText printable v "title" ""
  let artifactPath ← optionalText printable v "artifact_path" ""
  return { kind, detail, findingId, ruleId, severity, title, artifactPath }

/-- `date.fromisoformat(text)`. -/
def dateOfText (text : String) : Except PyError Date :=
  match Date.fromisoformat? text with
  | some date => .ok date
  | none => .error (.valueError ("Invalid isoformat string: " ++ Json.quoteText printable text))

/-- One waived finding. -/
def waivedFromDict (w : Json) : Except PyError WaivedFinding := do
  let findingId ← requiredText printable w "finding_id"
  let title ← optionalText printable w "title" ""
  let severity ← severityOfText (← requiredText printable w "severity")
  let owner ← optionalText printable w "owner" ""
  let reason ← optionalText printable w "reason" ""
  let expires ← dateOfText printable (← requiredText printable w "expires")
  return { findingId, title, severity, owner, reason, expires }

/-- One inherited finding: it is not new, and nothing else is known of it. -/
def inheritedFromDict (f : Json) : Except PyError GateFinding := do
  let id ← requiredText printable f "id"
  let ruleId ← optionalText printable f "rule_id" ""
  let category ← optionalText printable f "category" ""
  let title ← optionalText printable f "title" ""
  let severity ← severityOfText (← requiredText printable f "severity")
  let status ← optionalText printable f "status" "open"
  let artifactPath ← optionalText printable f "artifact_path" ""
  return { id, ruleId, category, title, severity, status, isNew := false, artifactPath }

/-- `payload.get(key, [])`, gone through. -/
def itemsOf (payload : Json) (key : String) : Except PyError (List Json) := do
  (← payload.getD key (.arr [])).iter

/-- `verdict_from_dict`. -/
def verdictFromDict (payload : Json) : Except PyError ReadVerdict := do
  let decision ← GateDecision.parse (← requiredText printable payload "decision")
  let policyName ← optionalText printable payload "policy_name" "unknown"
  let violations ← (← itemsOf payload "violations").mapM (violationFromDict printable)
  let waived ← (← itemsOf payload "waived").mapM (waivedFromDict printable)
  let inherited ← (← itemsOf payload "inherited").mapM (inheritedFromDict printable)
  let degradedStages ← itemsOf payload "degraded_stages"
  let countsBySeverity ← (← payload.getD "counts_by_severity" (.obj [])).asMapping
  let newCountsBySeverity ← (← payload.getD "new_counts_by_severity" (.obj [])).asMapping
  let totalFindings ← (← payload.getD "total_findings" (.int 0)).asInt
  let warnings ← itemsOf payload "warnings"
  return { decision, policyName, violations, waived, inherited, degradedStages, countsBySeverity,
           newCountsBySeverity, totalFindings, warnings }

end Read

/-! ## There and back -/

/-- A verdict, as the values it is made of. -/
def ofVerdict (v : GateVerdict) : ReadVerdict where
  decision := v.decision
  policyName := v.policyName
  violations := v.violations
  waived := v.waived
  inherited := v.inherited
  degradedStages := v.degradedStages.map .str
  countsBySeverity := countsToDict v.countsBySeverity
  newCountsBySeverity := countsToDict v.newCountsBySeverity
  totalFindings := v.totalFindings
  warnings := v.warnings.map .str

/-- What the wire does not carry of an inherited finding. -/
def carried (f : GateFinding) : GateFinding := { f with llmDismissed := false, valueMasked := "" }

section RoundTrip

variable (printable : Char → Bool)

/-- **A list of what is read back one by one is read back.** -/
theorem mapM_encoded {α : Type} {encode : α → Json} {read : Json → Except PyError α} {φ : α → α}
    {l : List α} (h : ∀ a ∈ l, read (encode a) = .ok (φ a)) :
    (l.map encode).mapM read = .ok (l.map φ) := by
  rw [List.mapM_map]
  exact mapM_eq_ok_of_forall h

theorem parse_decision (d : GateDecision) : GateDecision.parse d.value = .ok d := by
  cases d <;> rfl

theorem parse_kind (k : ViolationKind) : ViolationKind.parse k.value = .ok k := by
  cases k <;> rfl

theorem severityOfText_value (s : Severity) : severityOfText s.value = .ok s := by
  cases s <;> rfl

theorem getD_of_get? {fields : List (String × Json)} {key : String} {default v : Json}
    (h : Dict.get? fields key = some v) : (Json.obj fields).getD key default = .ok v := by
  rw [Json.getD, Json.get?_obj, h]
  rfl

variable {printable} in
theorem requiredText_str {fields : List (String × Json)} {key s : String}
    (h : Dict.get? fields key = some (.str s)) :
    requiredText printable (.obj fields) key = .ok s := by
  rw [requiredText, Json.index, h]
  rfl

variable {printable} in
theorem optionalText_str {fields : List (String × Json)} {key default s : String}
    (h : Dict.get? fields key = some (.str s)) :
    optionalText printable (.obj fields) key default = .ok s := by
  rw [optionalText, getD_of_get? h]
  rfl

theorem optionalSeverity_of_get? {fields : List (String × Json)} {severity : Option Severity}
    (h : Dict.get? fields "severity" = some (match severity with
      | some severity => .str severity.value
      | none => .null)) : optionalSeverity printable (.obj fields) = .ok severity := by
  rw [optionalSeverity, Json.getOrNull, Json.getD, Json.get?_obj, h, Json.index, h]
  rcases severity with - | severity
  · rfl
  · cases severity <;> rfl

theorem violationFromDict_violationToDict (v : Violation) :
    violationFromDict printable (violationToDict v) = .ok v := by
  rw [violationFromDict, violationToDict, requiredText_str rfl, ok_bind, parse_kind, ok_bind,
    optionalText_str rfl, ok_bind, optionalText_str rfl, ok_bind, optionalText_str rfl, ok_bind,
    optionalSeverity_of_get? printable rfl, ok_bind, optionalText_str rfl, ok_bind,
    optionalText_str rfl, ok_bind]
  rfl

theorem waivedFromDict_waivedToDict (w : WaivedFinding) :
    waivedFromDict printable (waivedToDict w) = .ok w := by
  rw [waivedFromDict, waivedToDict, requiredText_str rfl, ok_bind, optionalText_str rfl, ok_bind,
    requiredText_str rfl, ok_bind, severityOfText_value, ok_bind, optionalText_str rfl, ok_bind,
    optionalText_str rfl, ok_bind, requiredText_str rfl, ok_bind, dateOfText,
    Date.fromisoformat?_isoformat]
  rfl

theorem inheritedFromDict_inheritedToDict {f : GateFinding} (h : f.isNew = false) :
    inheritedFromDict printable (inheritedToDict f) = .ok (carried f) := by
  rw [inheritedFromDict, inheritedToDict, requiredText_str rfl, ok_bind, optionalText_str rfl,
    ok_bind, optionalText_str rfl, ok_bind, optionalText_str rfl, ok_bind, requiredText_str rfl,
    ok_bind, severityOfText_value, ok_bind, optionalText_str rfl, ok_bind, optionalText_str rfl,
    ok_bind, carried, h]
  rfl

/-- **A verdict whose inherited findings are not new survives the wire.** -/
theorem verdictFromDict_verdictToDict {v : GateVerdict} (h : ∀ f ∈ v.inherited, f.isNew = false) :
    verdictFromDict printable (verdictToDict v)
      = .ok (ofVerdict { v with inherited := v.inherited.map carried }) := by
  have hitems : ∀ {fields : List (String × Json)} {key items},
      Dict.get? fields key = some (.arr items) → itemsOf (.obj fields) key = .ok items := by
    intro fields key items hget
    rw [itemsOf, getD_of_get? hget]
    rfl
  have hviolations := @mapM_encoded _ _ _ id v.violations fun w _ =>
    violationFromDict_violationToDict printable w
  have hwaived := @mapM_encoded _ _ _ id v.waived fun w _ => waivedFromDict_waivedToDict printable w
  have hinherited := mapM_encoded fun f hf => inheritedFromDict_inheritedToDict printable (h f hf)
  rw [List.map_id] at hviolations hwaived
  rw [verdictFromDict, verdictToDict, requiredText_str rfl, ok_bind, parse_decision, ok_bind,
    optionalText_str rfl, ok_bind, hitems rfl, ok_bind, hviolations, ok_bind, hitems rfl, ok_bind,
    hwaived, ok_bind, hitems rfl, ok_bind, hinherited, ok_bind, hitems rfl, ok_bind]
  have hcounts : (Json.obj (countsToDict v.countsBySeverity)).asMapping
      = .ok (countsToDict v.countsBySeverity) := rfl
  have hcounts' : (Json.obj (countsToDict v.newCountsBySeverity)).asMapping
      = .ok (countsToDict v.newCountsBySeverity) := rfl
  rw [getD_of_get? rfl, ok_bind, hcounts, ok_bind, getD_of_get? rfl, ok_bind, hcounts', ok_bind,
    getD_of_get? rfl, ok_bind, Json.asInt, ok_bind, hitems rfl, ok_bind]
  rfl

/-- Only what is not new is inherited… -/
theorem isNew_of_inherited {p : Policy} {waiverIndex : Dict String Waiver} {today : Date}
    {f : GateFinding} (h : disposition p waiverIndex today f = .inherited) : f.isNew = false := by
  rw [disposition] at h
  split at h
  · split at h
    · cases h
    · rw [blockedDisposition] at h
      split at h
      · cases h
      · split at h <;> cases h
  · rename_i hscope
    split at h
    · rename_i hactionable
      rw [inScope, hactionable] at hscope
      simp only [Bool.true_and, Bool.or_eq_true, not_or, Bool.not_eq_true] at hscope
      exact hscope.2
    · cases h

/-- …over a whole pass. -/
theorem isNew_of_mem_inherited {p : Policy} {waiverIndex : Dict String Waiver} {today : Date}
    {fs : List GateFinding} {t : Tally} (ht : ∀ f ∈ t.inherited, f.isNew = false) :
    ∀ f ∈ (fs.foldl (perFinding p waiverIndex today) t).inherited, f.isNew = false := by
  induction fs generalizing t with
  | nil => exact ht
  | cons g fs ih =>
    rw [List.foldl_cons]
    refine ih ?_
    rw [perFinding_eq_record]
    cases hdisposition : disposition p waiverIndex today g with
    | inherited =>
      refine fun f hf => (List.mem_append.mp hf).elim (ht f) fun hf => ?_
      obtain rfl := List.mem_singleton.mp hf
      exact isNew_of_inherited hdisposition
    | _ => exact ht

/-- **The verdict survives the wire**: whatever the gate decides is read back as it was decided, but
for what is not sent of the inherited findings. -/
theorem verdictFromDict_evaluate (findings : List GateFinding) (p : Policy) (waivers : List Waiver)
    (degradedStages : List String) (today : Date) :
    verdictFromDict printable (verdictToDict (evaluate findings p waivers degradedStages today))
      = .ok (ofVerdict { evaluate findings p waivers degradedStages today with
          inherited := (evaluate findings p waivers degradedStages today).inherited.map carried }) := by
  have hnone : (degradedTally p (sortedStages degradedStages)).inherited = [] := by
    rw [degradedTally]
    split
    · rfl
    · split <;> rfl
  refine verdictFromDict_verdictToDict printable (isNew_of_mem_inherited fun f hf => ?_)
  rw [hnone] at hf
  cases hf

end RoundTrip

end Wire

end BareAnalysis
