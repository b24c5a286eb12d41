import BareAnalysis.Foundations.Vocab
import BareAnalysis.Machinery.Calendar
import BareAnalysis.Machinery.Dict

/-!
# Policy/Model — what the release gate reads and what it answers

`core/policy/model.py` and `core/policy/policy.py`: the narrow view of a finding, waivers,
violations, the verdict, and the policy document with its shipping defaults.
-/

namespace BareAnalysis

/-- `GateDecision`. -/
inductive GateDecision
  | pass | blocked | inconclusive
  deriving DecidableEq, Repr

/-- The process exit code; 2 is reserved for tool error. -/
def GateDecision.exitCode : GateDecision → ℕ
  | .pass => 0
  | .blocked => 1
  | .inconclusive => 3

/-- `ViolationKind`: the policy clause that fired. -/
inductive ViolationKind
  | severityFloor | blockedCategory | blockedRule | budgetExceeded | degradedScan | expiredWaiver
  deriving DecidableEq, Repr

/-- `BaselineMode`. -/
inductive BaselineMode
  | newOnly | all
  deriving DecidableEq, Repr

/-- `DegradedPosture`. -/
inductive DegradedPosture
  | fail | warn | pass
  deriving DecidableEq, Repr

/-- A finding as the gate sees it.  `status` is the stored text: the gate also judges findings
read back from a report. -/
structure GateFinding where
  id : String
  ruleId : String
  category : String
  title : String
  severity : Severity
  status : String
  isNew : Bool := true
  llmDismissed : Bool := false
  artifactPath : String := ""
  valueMasked : String := ""
  deriving DecidableEq, Repr

/-- `GateFinding.is_open`: no disposition closes it. -/
def GateFinding.isOpen (f : GateFinding) : Bool :=
  !(["false_positive", "accepted_risk", "fixed"].contains f.status)

/-- A time-boxed exemption for one finding. -/
structure Waiver where
  findingId : String
  reason : String
  owner : String
  expires : Date
  deriving DecidableEq, Repr

def Waiver.isExpired (w : Waiver) (today : Date) : Bool := decide (w.expires < today)

/-- One reason the gate failed. -/
structure Violation where
  kind : ViolationKind
  detail : String
  findingId : String := ""
  ruleId : String := ""
  severity : Option Severity := none
  title : String := ""
  artifactPath : String := ""
  deriving DecidableEq, Repr

structure WaivedFinding where
  findingId : String
  title : String
  severity : Severity
  owner : String
  reason : String
  expires : Date
  deriving DecidableEq, Repr

/-- The full, serialisable answer. -/
structure GateVerdict where
  decision : GateDecision
  policyName : String
  violations : List Violation := []
  waived : List WaivedFinding := []
  inherited : List GateFinding := []
  degradedStages : List String := []
  countsBySeverity : Counter String := []
  newCountsBySeverity : Counter String := []
  totalFindings : ℕ := 0
  warnings : List String := []
  deriving DecidableEq, Repr

/-- `UNLIMITED`: the ceiling that is no ceiling. -/
def unlimited : ℤ := -1

/-- `DEFAULT_MAX_WAIVER_DAYS`. -/
def defaultMaxWaiverDays : ℤ := 90

/-- Ceilings per severity for findings under the blocking floor. -/
structure Budgets where
  critical : ℤ := unlimited
  high : ℤ := unlimited
  medium : ℤ := unlimited
  low : ℤ := unlimited
  info : ℤ := unlimited
  deriving DecidableEq, Repr

def Budgets.limitFor (b : Budgets) : Severity → ℤ
  | .critical => b.critical
  | .high => b.high
  | .medium => b.medium
  | .low => b.low
  | .info => b.info

/-- A complete gate configuration; the defaults are the shipping recommendation. -/
structure Policy where
  name : String := "default"
  blockAtOrAbove : Option Severity := some .high
  blockCategories : List String := []
  blockRules : List String := []
  budgets : Budgets := {}
  baselineMode : BaselineMode := .newOnly
  onDegraded : DegradedPosture := .fail
  trustLlmDismissals : Bool := false
  maxWaiverDays : ℤ := defaultMaxWaiverDays
  deriving DecidableEq, Repr

def Policy.blocks (p : Policy) (severity : Severity) : Bool :=
  match p.blockAtOrAbove with
  | none => false
  | some floor => decide (severity.rank ≤ floor.rank)

end BareAnalysis
