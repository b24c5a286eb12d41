import BareAnalysis.Machinery.Fallible
import BareAnalysis.Machinery.Sorting
import BareAnalysis.Machinery.Yaml
import BareAnalysis.Policy.Model

/-!
# Policy/Loader — policies and waivers read from YAML

    mapping ──parse_policy, parse_waivers──▸ Policy, waivers
                                        └──▸ PolicyLoadError, or what a conversion raises unguarded

`core/policy/loader.py`.  Each field is converted on its own: `int`, `bool`, `str`, a member of an
enumeration, a list.
-/

namespace BareAnalysis

/-- How loading ends when it does not end well. -/
inductive PolicyError
  | policyLoadError (message : String)
  /-- Anything the loader does not catch. -/
  | uncaught (e : PyError)
  deriving DecidableEq, Repr

/-- Errors no `try` stands around. -/
def unguarded {α : Type} (x : Except PyError α) : Except PolicyError α := x.mapError .uncaught

/-- The severities, as a document writes them. -/
def Severity.ofValue? (text : String) : Option Severity :=
  [Severity.critical, .high, .medium, .low, .info].find? fun s => s.value == text

/-- `BaselineMode`, as a document writes it. -/
def BaselineMode.value : BaselineMode → String
  | .newOnly => "new_only"
  | .all => "all"

/-- `BaselineMode(text)`. -/
def BaselineMode.ofValue? (text : String) : Option BaselineMode :=
  [BaselineMode.newOnly, .all].find? fun m => m.value == text

/-- `DegradedPosture`, as a document writes it. -/
def DegradedPosture.value : DegradedPosture → String
  | .fail => "fail"
  | .warn => "warn"
  | .pass => "pass"

/-- `DegradedPosture(text)`. -/
def DegradedPosture.ofValue? (text : String) : Option DegradedPosture :=
  [DegradedPosture.fail, .warn, .pass].find? fun d => d.value == text

/-- `Policy`, with the fields only the loading of waivers reads. -/
structure LoadedPolicy extends Policy where
  version : ℤ := 1
  requireWaiverOwner : Bool := true
  requireWaiverReason : Bool := true
  deriving DecidableEq, Repr

namespace PolicyLoader

open Yaml

/-- `_require_mapping`: nothing is an empty mapping. -/
def requireMapping (raw : Option Yaml) (what : String) : Except PolicyError (List (Yaml × Yaml)) :=
  match raw with
  | none | some .null => .ok []
  | some (.map entries) => .ok entries
  | some v => .error (.policyLoadError (what ++ " must be a mapping, got " ++ v.typeName))

section Fields

variable (b : Builtins)

/-- `text.strip()`. -/
def stripText (text : String) : String := String.ofList (strip b.space text.toList)

/-- `text.strip().lower()`. -/
def normalText (text : String) : String := String.ofList (b.lower (strip b.space text.toList))

/-- `sorted(_SEVERITIES)`, printed. -/
def severityNames : String := "['critical', 'high', 'info', 'low', 'medium']"

/-- `_severity`. -/
def severityOf (value : Yaml) (fieldName : String) : Except PolicyError Severity := do
  let text := normalText b (← unguarded (value.text b.printable))
  match Severity.ofValue? text with
  | some severity => return severity
  | none =>
    let shown ← unguarded (value.reprText b.printable)
    throw (.policyLoadError (fieldName ++ ": unknown severity " ++ shown ++ "; expected one of "
      ++ severityNames))

/-- `_str_set`. -/
def strSet (raw : Option Yaml) (fieldName : String) : Except PolicyError (List String) :=
  match raw with
  | none | some .null => .ok []
  | some (.list items) => do
    let texts ← unguarded (items.mapM (Yaml.text b.printable))
    return ((texts.map (stripText b)).filter (· ≠ "")).dedup
  | some _ => .error (.policyLoadError (fieldName ++ " must be a list"))

/-- `int(value)`, where a value that is none is reported. -/
def integerOf (value : Yaml) (what : String) : Except PolicyError ℤ :=
  (value.toInt b).mapError fun
    | .typeError _ | .valueError _ => .policyLoadError (what ++ " must be an integer")
    | e => .uncaught e

/-- One entry of the budgets. -/
def budgetOf (entry : Yaml × Yaml) : Except PolicyError (String × ℤ) := do
  let name := normalText b (← unguarded (entry.1.text b.printable))
  if Severity.ofValue? name = none then
    let shown ← unguarded (entry.1.reprText b.printable)
    throw (.policyLoadError ("budgets: unknown severity " ++ shown))
  let limit ← integerOf b entry.2 ("budgets." ++ name)
  if limit < unlimited then throw (.policyLoadError ("budgets." ++ name ++ " must be >= -1"))
  return (name, limit)

/-- `Budgets(**values)`. -/
def budgetsWith (values : Dict String ℤ) : Budgets where
  critical := (Dict.get? values "critical").getD unlimited
  high := (Dict.get? values "high").getD unlimited
  medium := (Dict.get? values "medium").getD unlimited
  low := (Dict.get? values "low").getD unlimited
  info := (Dict.get? values "info").getD unlimited

/-- `_budgets`. -/
def budgetsOf (raw : Option Yaml) : Except PolicyError Budgets := do
  let data ← requireMapping raw "budgets"
  return budgetsWith (← data.mapM (budgetOf b))

/-- The version, of which this build reads one. -/
def versionOf (data : List (Yaml × Yaml)) (source : String) : Except PolicyError ℤ := do
  let version ← unguarded (((lookup data "version").getD (.int 1)).toInt b)
  if version ≠ 1 then
    let shown ← unguarded (intText version)
    throw (.policyLoadError (source ++ ": unsupported policy version " ++ shown
      ++ "; this build reads 1"))
  return version

/-- The severity floor; a document may say there is none. -/
def floorOf (block : List (Yaml × Yaml)) : Except PolicyError (Option Severity) :=
  match (lookup block "severity_at_or_above").getD (.str "high") with
  | .null => .ok none
  | raw => do
    let text := normalText b (← unguarded (raw.text b.printable))
    if text ∈ ["none", "off", ""] then return none
    return some (← severityOf b raw "block.severity_at_or_above")

/-- A member of an enumeration, by its value. -/
def memberOf {α : Type} (ofValue? : String → Option α) (raw : Yaml) (what : String) :
    Except PolicyError α := do
  let text := normalText b (← unguarded (raw.text b.printable))
  match ofValue? text with
  | some member => return member
  | none =>
    throw (.policyLoadError (what ++ ", got " ++ Json.quoteText b.printable text))

/-- The mode of the baseline… -/
def modeOf (baseline : List (Yaml × Yaml)) : Except PolicyError BaselineMode :=
  memberOf b BaselineMode.ofValue? ((lookup baseline "mode").getD (.str "new_only"))
    "baseline.mode must be one of ['new_only', 'all']"

/-- …what a degraded scan comes to… -/
def degradedOf (data : List (Yaml × Yaml)) : Except PolicyError DegradedPosture :=
  memberOf b DegradedPosture.ofValue? ((lookup data "on_degraded").getD (.str "fail"))
    "on_degraded must be one of ['fail', 'warn', 'pass']"

/-- …and how long a waiver may run. -/
def maxDaysOf (waivers : List (Yaml × Yaml)) : Except PolicyError ℤ := do
  let maxDays ← integerOf b ((lookup waivers "max_ttl_days").getD (.int defaultMaxWaiverDays))
    "waivers.max_ttl_days"
  if maxDays ≤ 0 then throw (.policyLoadError "waivers.max_ttl_days must be positive")
  return maxDays

/-- The name, which is never empty. -/
def nameOf (data : List (Yaml × Yaml)) : Except PolicyError String := do
  let text := stripText b (← unguarded (((lookup data "name").getD (.str "default")).text
    b.printable))
  return if text = "" then "default" else text

/-- `bool(mapping.get(key, default))`. -/
def flagOf (entries : List (Yaml × Yaml)) (key : String) (default : Bool) : Bool :=
  ((lookup entries key).getD (.bool default)).truthy

end Fields

/-- `parse_policy`. -/
def parsePolicy (b : Builtins) (data : List (Yaml × Yaml)) (source : String) :
    Except PolicyError LoadedPolicy := do
  let version ← versionOf b data source
  let block ← requireMapping (lookup data "block") "block"
  let floor ← floorOf b block
  let baseline ← requireMapping (lookup data "baseline") "baseline"
  let mode ← modeOf b baseline
  let degraded ← degradedOf b data
  let waivers ← requireMapping (lookup data "waivers") "waivers"
  let maxDays ← maxDaysOf b waivers
  let name ← nameOf b data
  let categories ← strSet b (lookup block "categories") "block.categories"
  let rules ← strSet b (lookup block "rules") "block.rules"
  let budgets ← budgetsOf b (lookup data "budgets")
  return {
    name, version
    blockAtOrAbove := floor
    blockCategories := categories
    blockRules := rules
    budgets
    baselineMode := mode
    onDegraded := degraded
    trustLlmDismissals := flagOf data "trust_llm_dismissals" false
    maxWaiverDays := maxDays
    requireWaiverOwner := flagOf waivers "require_owner" true
    requireWaiverReason := flagOf waivers "require_reason" true }

/-! ## Waivers -/

section Waivers

variable (b : Builtins)

/-- `_parse_date`.  What cannot be printed is no date either, and then its message is not printed. -/
def parseDate (value : Yaml) (fieldName : String) : Except PolicyError Date :=
  match value with
  | .datetime d _ _ | .date d => .ok d
  | value =>
    match (value.text b.printable).toOption.bind fun text =>
      Date.fromisoformat? (stripText b text) with
    | some d => .ok d
    | none => do
      let shown ← unguarded (value.reprText b.printable)
      throw (.policyLoadError (fieldName ++ ": expected an ISO date (YYYY-MM-DD), got " ++ shown))

/-- `str(item.get(key, "")).strip()`. -/
def fieldOf (item : List (Yaml × Yaml)) (key : String) : Except PolicyError String := do
  return stripText b (← unguarded (((lookup item key).getD (.str "")).text b.printable))

/-- One turn of the loop of `parse_waivers`; the waivers read so far are the ids seen. -/
def readWaiver (policy : LoadedPolicy) (source : String) (waivers : List Waiver)
    (entry : Yaml × ℕ) : Except PolicyError (List Waiver) := do
  let place := source ++ ": waivers[" ++ toString entry.2 ++ "]"
  let item ← requireMapping (some entry.1) place
  let findingId ← fieldOf b item "finding_id"
  if findingId = "" then throw (.policyLoadError (place ++ ": finding_id is required"))
  if waivers.any (·.findingId = findingId) then
    throw (.policyLoadError (place ++ ": duplicate waiver for finding " ++ findingId))
  let reason ← fieldOf b item "reason"
  if policy.requireWaiverReason ∧ reason = "" then
    throw (.policyLoadError (place ++ ": a reason is required by policy "
      ++ Json.quoteText b.printable policy.name))
  let owner ← fieldOf b item "owner"
  if policy.requireWaiverOwner ∧ owner = "" then
    throw (.policyLoadError (place ++ ": an owner is required by policy "
      ++ Json.quoteText b.printable policy.name))
  match lookup item "expires" with
  | none | some .null | some (.str "") =>
    throw (.policyLoadError (place ++ ": an 'expires' date is required"))
  | some value =>
    return waivers ++ [⟨findingId, reason, owner, ← parseDate b value (place ++ ".expires")⟩]

/-- Waivers by the day they expire, then by the finding. -/
def waiverKey (w : Waiver) : Date ×ₗ String := toLex (w.expires, w.findingId)

/-- `parse_waivers`. -/
def parseWaivers (policy : LoadedPolicy) (source : String) (data : List (Yaml × Yaml)) :
    Except PolicyError (List Waiver) :=
  match (lookup data "waivers").getD (.list []) with
  | .null => .ok []
  | .list entries => do
    return sortBy waiverKey (← entries.zipIdx.foldlM (readWaiver b policy source) [])
  | _ => .error (.policyLoadError (source ++ ": 'waivers' must be a list"))

end Waivers

end PolicyLoader

end BareAnalysis
