import Mathlib.Order.Basic

/-!
# Foundations/Vocab — severities, statuses and verdicts

The `StrEnum`s of `core/vocab.py` and `core/models/enums.py`.  A member is a constructor; `value` is
the string the database stores.
-/

namespace BareAnalysis

/-- `core.vocab.Severity`. -/
inductive Severity
  | critical | high | medium | low | info
  deriving DecidableEq, Repr

namespace Severity

/-- The descending sort key: `critical` comes first. -/
def rank : Severity → ℕ
  | critical => 0
  | high => 1
  | medium => 2
  | low => 3
  | info => 4

/-- The stored string. -/
def value : Severity → String
  | critical => "critical"
  | high => "high"
  | medium => "medium"
  | low => "low"
  | info => "info"

theorem rank_injective : Function.Injective rank := fun a b h => by
  cases a <;> cases b <;> first | rfl | cases h

end Severity

/-- `RunStatus`. -/
inductive RunStatus
  | queued | running | completed | degraded | failed | cancelled
  deriving DecidableEq, Repr

namespace RunStatus

def value : RunStatus → String
  | queued => "queued"
  | running => "running"
  | completed => "completed"
  | degraded => "degraded"
  | failed => "failed"
  | cancelled => "cancelled"

/-- No later step of the pipeline is expected. -/
def isTerminal : RunStatus → Bool
  | completed | degraded | failed | cancelled => true
  | queued | running => false

end RunStatus

/-- `StageStatus`. -/
inductive StageStatus
  | pending | running | completed | timeout | oom | failed | truncated | skipped
  deriving DecidableEq, Repr

namespace StageStatus

def value : StageStatus → String
  | pending => "pending"
  | running => "running"
  | completed => "completed"
  | timeout => "timeout"
  | oom => "oom"
  | failed => "failed"
  | truncated => "truncated"
  | skipped => "skipped"

/-- The stage let the run finish, but did not look at everything. -/
def isDegraded : StageStatus → Bool
  | timeout | oom | failed | truncated => true
  | pending | running | completed | skipped => false

end StageStatus

/-- `ArtifactKind`: what S1 identified. -/
inductive ArtifactKind
  | unknown | pe | elf | macho | dotnet | java | archive | installer | firmware | filesystem
  | script | config | certificate | data | text
  deriving DecidableEq, Repr

def ArtifactKind.value : ArtifactKind → String
  | unknown => "unknown"
  | pe => "pe"
  | elf => "elf"
  | macho => "macho"
  | dotnet => "dotnet"
  | java => "java"
  | archive => "archive"
  | installer => "installer"
  | firmware => "firmware"
  | filesystem => "filesystem"
  | script => "script"
  | config => "config"
  | certificate => "certificate"
  | data => "data"
  | text => "text"

/-- `FindingStatus`. -/
inductive FindingStatus
  | «open» | confirmed | falsePositive | acceptedRisk | fixed | needsReview
  deriving DecidableEq, Repr

namespace FindingStatus

def value : FindingStatus → String
  | «open» => "open"
  | confirmed => "confirmed"
  | falsePositive => "false_positive"
  | acceptedRisk => "accepted_risk"
  | fixed => "fixed"
  | needsReview => "needs_review"

/-- The members in declaration order, as `for s in FindingStatus` visits them. -/
def members : List FindingStatus :=
  [«open», confirmed, falsePositive, acceptedRisk, fixed, needsReview]

/-- `FindingStatus(text)`: the member with this value, or a `ValueError`. -/
def ofValue? (text : String) : Option FindingStatus := members.find? fun s => s.value == text

theorem mem_members (s : FindingStatus) : s ∈ members := by cases s <;> decide

theorem value_injective : Function.Injective value := fun a b h => by
  revert h; cases a <;> cases b <;> decide

@[simp] theorem ofValue?_value (s : FindingStatus) : ofValue? s.value = some s := by
  cases s <;> decide

theorem ofValue?_eq_some {text : String} {s : FindingStatus} (h : ofValue? text = some s) :
    s.value = text := by
  have := List.find?_some h
  simpa using this

/-- A status that closes a finding, whoever set it. -/
def isClosed : FindingStatus → Bool
  | falsePositive | acceptedRisk | fixed => true
  | «open» | confirmed | needsReview => false

end FindingStatus

/-- `LlmVerdict`: what a triage pass concluded, `error` when it concluded nothing. -/
inductive LlmVerdict
  | truePositive | falsePositive | needsReview | error
  deriving DecidableEq, Repr

namespace LlmVerdict

def value : LlmVerdict → String
  | truePositive => "true_positive"
  | falsePositive => "false_positive"
  | needsReview => "needs_review"
  | error => "error"

/-- `LlmVerdict(text)`. -/
def ofValue? (text : String) : Option LlmVerdict :=
  [truePositive, falsePositive, needsReview, error].find? fun v => v.value == text

end LlmVerdict

/-- `DetectedBy`. -/
inductive DetectedBy
  | rule | both | llm
  deriving DecidableEq, Repr

theorem DetectedBy.rule_ne_llm : rule ≠ llm := by decide

theorem DetectedBy.both_ne_llm : both ≠ llm := by decide

end BareAnalysis
