import Mathlib.Data.Rat.Defs
import BareAnalysis.Foundations.Vocab
import BareAnalysis.Machinery.Sorting

/-!
# Rules/Model — rules and rule packs

`core/rules/model.py`, as far as correlation reads it: what a rule stamps on a finding, and the
number it starts the confidence from.  The patterns belong to the scanner.
-/

namespace BareAnalysis

/-- One detection rule. -/
structure Rule where
  id : String
  name : String
  category : String
  severity : Severity
  confidence : ℚ := 1 / 2
  cwe : Option String := none
  remediation : String := ""
  tags : List String := []
  minEntropy : ℚ := 0
  enabled : Bool := true
  deriving DecidableEq, Repr

/-- A versioned set of rules, with the hash the manifest records. -/
structure RulePack where
  version : String
  rules : List Rule
  hash : String
  deriving DecidableEq, Repr

/-- `enabled_rules()`, sorted by id. -/
def RulePack.enabledRules (pack : RulePack) : List Rule :=
  sortBy Rule.id (pack.rules.filter Rule.enabled)

end BareAnalysis
