import BareAnalysis.Rules.Model
import BareAnalysis.Scanner.Extract
import BareAnalysis.Scanner.Shape

/-!
# Scanner/Model — rules as the scanner reads them

    pattern ──finditer──▸ hits ──capture──▸ values ──gates──▸ matches

The rest of `core/rules/model.py`.  A compiled expression is what `finditer` finds in a text; the
hits of a `Pattern` lie in the text they were found in, so no value comes from elsewhere.
-/

namespace BareAnalysis

/-- The interpreter the scanner runs on: its Unicode tables, and its floats. -/
structure Interpreter extends Unicode where
  /-- `shannon_entropy(value)`. -/
  shannonEntropy : List Char → ℚ
  /-- `round(value, 3)`. -/
  round3 : ℚ → ℚ

/-- `text[start:stop]` inside the text. -/
def span {α : Type*} (s : List α) (start stop : ℕ) : List α := (s.take stop).drop start

/-- One match of an expression, with the span of the group that holds the secret. -/
structure RegexHit where
  start : ℕ
  stop : ℕ
  group : Option (ℕ × ℕ)
  deriving DecidableEq

/-- One regex within a rule. -/
structure Pattern where
  /-- `regex.finditer(text)`. -/
  hits : List Char → List RegexHit
  /-- Matches and groups are spans of the text. -/
  inside : ∀ text, ∀ hit ∈ hits text, hit.start ≤ hit.stop ∧ hit.stop ≤ text.length ∧
    ∀ group ∈ hit.group, group.1 ≤ group.2 ∧ group.2 ≤ text.length

/-- `Pattern.extract`: none for a group that took no part, or that the expression does not have. -/
def RegexHit.extract (hit : RegexHit) (text : List Char) : Option (List Char) :=
  hit.group.map fun group => span text group.1 group.2

/-- A rule, with what the scanner reads of it. -/
structure ScanRule extends Rule where
  patterns : List Pattern
  minLength : ℤ := 0
  maxLength : ℤ := 4096
  encodings : List String := ["ascii", "utf-16le"]
  requiresNearby : List String := []
  nearbyWindow : ℤ := 120
  shapePolicy : String := "context"
  /-- `pattern.search(value)` of each. -/
  rejectsMatching : List (List Char → Bool) := []
  requireMixedCase : Bool := false

/-- `Rule.accepts`. -/
def ScanRule.accepts (interp : Interpreter) (rule : ScanRule) (value : List Char) : Bool :=
  decide (rule.minLength ≤ value.length ∧ value.length ≤ rule.maxLength)
    && !rule.rejectsMatching.any (· value)
    && !(rule.minEntropy != 0 && decide (interp.shannonEntropy value < rule.minEntropy))

/-- `RulePack`, with the corpus of values known to be benign. -/
structure ScanPack where
  version : String
  rules : List ScanRule
  hash : String
  falsePositives : List (List Char) := []

namespace ScanPack

/-- The pack, as correlation reads it. -/
def toRulePack (pack : ScanPack) : RulePack where
  version := pack.version
  rules := pack.rules.map ScanRule.toRule
  hash := pack.hash

/-- `enabled_rules()`. -/
def enabledRules (pack : ScanPack) : List ScanRule :=
  sortBy (·.id) (pack.rules.filter (·.enabled))

/-- `is_known_false_positive`. -/
def isKnownFalsePositive (u : Unicode) (pack : ScanPack) (value : List Char) : Bool :=
  pack.falsePositives.contains (strip u.space value)

end ScanPack

/-- The rules the scanner runs are the ones correlation knows. -/
theorem map_toRule_enabledRules (pack : ScanPack) :
    pack.enabledRules.map ScanRule.toRule = pack.toRulePack.enabledRules := by
  rw [ScanPack.enabledRules, RulePack.enabledRules, ScanPack.toRulePack, List.filter_map]
  exact map_sortBy _ _ _ _ fun _ _ _ _ => Iff.rfl

/-! ## An expression without operators -/

section Literal

variable {α : Type*} [DecidableEq α]

/-- Where a text starts, scanning from the left without overlap; `skip` characters still belong to
the last one. -/
def occurrencesFrom (old : List α) : ℕ → ℕ → List α → List ℕ
  | _, _, [] => []
  | skip + 1, index, _ :: s => occurrencesFrom old skip (index + 1) s
  | 0, index, c :: s =>
    if old <+: c :: s then index :: occurrencesFrom old (old.length - 1) (index + 1) s
    else occurrencesFrom old 0 (index + 1) s

theorem le_of_mem_occurrencesFrom {old : List α} {skip index i : ℕ} {s : List α}
    (h : i ∈ occurrencesFrom old skip index s) :
    index ≤ i ∧ i + old.length ≤ index + s.length := by
  induction s generalizing skip index with
  | nil => cases h
  | cons c s ih =>
    have hrest : ∀ {skip : ℕ}, i ∈ occurrencesFrom old skip (index + 1) s →
        index ≤ i ∧ i + old.length ≤ index + (c :: s).length := fun h => by
      have := ih h
      rw [List.length_cons]
      omega
    cases skip with
    | succ skip => exact hrest h
    | zero =>
      rw [occurrencesFrom] at h
      split at h
      · rename_i hpre
        obtain rfl | h := List.mem_cons.mp h
        · have := hpre.length_le
          omega
        · exact hrest h
      · exact hrest h

end Literal

/-- `re.compile(re.escape(text))`, for a text that is not empty. -/
def Pattern.literal (text : List Char) : Pattern where
  hits haystack := (occurrencesFrom text 0 0 haystack).map fun i =>
    ⟨i, i + text.length, some (i, i + text.length)⟩
  inside haystack hit hhit := by
    obtain ⟨i, hi, rfl⟩ := List.mem_map.mp hhit
    have := le_of_mem_occurrencesFrom hi
    have hstop : i + text.length ≤ haystack.length := by omega
    refine ⟨Nat.le_add_right _ _, hstop, fun group hgroup => ?_⟩
    obtain rfl := Option.mem_some_iff.mp hgroup
    exact ⟨Nat.le_add_right _ _, hstop⟩

/-- A rule for one literal. -/
def literalRule (id text : String) : ScanRule where
  id := id
  name := id
  category := "secret"
  severity := .high
  patterns := [.literal text.toList]
  shapePolicy := "off"

/-- A pack of one rule. -/
def literalPack (text : String) : ScanPack where
  version := "1"
  rules := [literalRule "literal" text]
  hash := ""

/-- The tables and floats of an interpreter, as far as ASCII goes; every value counts as random. -/
def asciiInterpreter : Interpreter where
  toUnicode := Unicode.ascii
  shannonEntropy _ := 4
  round3 := id

end BareAnalysis
