import BareAnalysis.Machinery.Scalars
import BareAnalysis.Scanner.AsWritten

/-!
# Llm/Discovery — rules a model proposes, and the document they are pasted as

    raw ──_build_proposal──▸ proposal ──to_yaml──▸ # --- id: rationale
                                                   rules: [ … ]        one block for each proposal

`core/llm/discovery.py`, from a proposal on.  Every block is a document of its own with the one key
`rules`, and a file is read as one document: of several blocks the last is loaded.
-/

namespace BareAnalysis.Discovery

/-- A float: its value, or the text printed for one that is not finite. -/
inductive PyFloat
  | finite (q : ℚ)
  | nonFinite (repr : String)

/-- What discovery calls. -/
structure DiscoveryLibraries extends DocumentLibraries where
  /-- `re.compile(expression)`. -/
  compilePlain : String → Except CompileError GroupedRegex
  /-- `re.MULTILINE` changes what an expression matches, not whether it compiles. -/
  compile_of_plain : ∀ expression regex, compilePlain expression = .ok regex →
    ∃ multiline, compile expression = .ok multiline ∧ multiline.groups = regex.groups
  /-- What is printed for a numeral that is not finite. -/
  nonFiniteText : String → String
  /-- `round(x, 2)` and `repr(x)`. -/
  round2 : ℚ → ℚ
  repr : ℚ → String
  /-- `yaml.safe_dump(entry, sort_keys=False, allow_unicode=True, width=100)`. -/
  safeDump : Json → String

/-- `RuleProposal`. -/
structure RuleProposal where
  id : String
  name : String
  category : String
  severity : String
  confidence : PyFloat
  regex : String
  rationale : String
  exampleText : String
  remediation : String
  valid : Bool := true
  error : Option String := none

/-- `DiscoveryResult`, as far as it is rendered. -/
structure DiscoveryResult where
  proposals : List RuleProposal := []
  sampled : ℕ := 0
  model : String := ""

/-- `usable`. -/
def DiscoveryResult.usable (result : DiscoveryResult) : List RuleProposal :=
  result.proposals.filter RuleProposal.valid

/-! ## The source's functions -/

section Build

variable (lib : DiscoveryLibraries)

/-- `str(raw.get(key, default)).strip()`. -/
def textField (raw : Json) (key default : String) : Except PyError String := do
  let value ← raw.getD key (.str default)
  return String.ofList (strip lib.unicode.space (value.text lib.unicode.printable).toList)

/-- A text without space around it is read as it is. -/
theorem textField_eq_ok {raw : Json} {key default text : String}
    (hfield : raw.getD key (.str default) = .ok (.str text))
    (hstrip : strip lib.unicode.space text.toList = text.toList) :
    textField lib raw key default = .ok text := by
  rw [textField, hfield, ok_bind]
  change Except.ok (String.ofList (strip lib.unicode.space text.toList)) = _
  rw [hstrip, String.ofList_toList]

/-- `text or default`. -/
def orText (text default : String) : String := if text = "" then default else text

/-- `float(raw.get("confidence", 0.4) or 0.4)`. -/
def confidenceOf (raw : Json) : Except PyError PyFloat := do
  let value := (← raw.getD "confidence" (.float (2 / 5) "0.4")).orElse (.float (2 / 5) "0.4")
  match ← value.toFloat lib.toNumerals, value with
  | some q, _ => return .finite q
  | none, .nonFinite repr => return .nonFinite repr
  | none, .str text => return .nonFinite (lib.nonFiniteText text)
  | none, _ => return .nonFinite "nan"

/-- The texts that no rule may match. -/
def benignTexts : List String :=
  ["The quick brown fox jumps over the lazy dog and keeps running along.",
    "Copyright (c) 2026 Example Corporation. All rights reserved worldwide.",
    "aaaaaaaaaaaaaaaaaaaaaaaaaaaaaaaaaaaaaaaaaaaaaaaaaaaaaaaaaaaaaaaa"]

/-- A proposal that is shown with what is wrong with it. -/
def RuleProposal.reject (p : RuleProposal) (error : String) : RuleProposal :=
  { p with valid := false, error := some error }

/-- The checks of `_build_proposal`. -/
def checkProposal (p : RuleProposal) : Except PyError RuleProposal :=
  if p.regex = "" then .ok (p.reject "no pattern supplied")
  else
    match lib.compilePlain p.regex with
    | .error (.invalid message) => .ok (p.reject ("pattern does not compile: " ++ message))
    | .error (.other e) => .error e
    | .ok compiled =>
      if compiled.groups < 1 then
        .ok (p.reject "pattern has no capture group; the value would be unidentifiable")
      else if benignTexts.any fun benign => compiled.search benign.toList then
        .ok (p.reject "pattern matches ordinary text; too broad to merge")
      else if p.exampleText ≠ "" ∧ compiled.search p.exampleText.toList = false then
        .ok (p.reject "pattern does not match the example it was proposed from")
      else .ok p

/-- A proposal that passes every check stays as it is. -/
theorem checkProposal_eq_self {p : RuleProposal} {compiled : GroupedRegex} (hsome : p.regex ≠ "")
    (hcompile : lib.compilePlain p.regex = .ok compiled) (hgroups : 1 ≤ compiled.groups)
    (hbenign : ∀ benign ∈ benignTexts, compiled.search benign.toList = false)
    (hexample : p.exampleText ≠ "" → compiled.search p.exampleText.toList = true) :
    checkProposal lib p = .ok p := by
  have hnone : ¬(benignTexts.any fun benign => compiled.search benign.toList) = true := by
    rw [Bool.not_eq_true, List.any_eq_false]
    exact fun benign hmem hsearch => absurd (hbenign benign hmem) (by rw [hsearch]; decide)
  have hshown : ¬(p.exampleText ≠ "" ∧ compiled.search p.exampleText.toList = false) :=
    fun h => absurd (hexample h.1) (by rw [h.2]; decide)
  rw [checkProposal, if_neg hsome, hcompile]
  dsimp only
  rw [if_neg (Nat.not_lt.mpr hgroups), if_neg hnone, if_neg hshown]

/-- The names of the severities. -/
def severityNames : List String := ["critical", "high", "medium", "low", "info"]

/-- `_build_proposal`. -/
def buildProposal (raw : Json) : Except PyError RuleProposal := do
  let id ← textField lib raw "id" ""
  let name ← textField lib raw "name" ""
  let category ← textField lib raw "category" "ip-exposure"
  let severity ← textField lib raw "severity" "low"
  let confidence ← confidenceOf lib raw
  let regex := (← raw.getD "regex" (.str "")).text lib.unicode.printable
  let rationale ← textField lib raw "rationale" ""
  let exampleText ← textField lib raw "example" ""
  let remediation ← textField lib raw "remediation" ""
  checkProposal lib
    { id := orText id "unnamed-proposal"
      name := orText name "Unnamed"
      category, confidence, regex, rationale, remediation
      severity := if severity ∈ severityNames then severity else "low"
      exampleText }

/-- `round(self.confidence, 2)`. -/
def roundedConfidence : PyFloat → Json
  | .finite q => .float (lib.round2 q) (lib.repr (lib.round2 q))
  | .nonFinite repr => .nonFinite repr

/-- The rule of a proposal, as `to_yaml` writes it. -/
def ruleEntry (p : RuleProposal) : List (String × Json) :=
  [("id", .str p.id), ("name", .str p.name), ("category", .str p.category),
    ("severity", .str p.severity), ("confidence", roundedConfidence lib p.confidence),
    ("description", .str p.rationale), ("remediation", .str p.remediation),
    ("patterns", .arr [.obj [("regex", .str p.regex), ("capture", .int 1)]]),
    ("tags", .arr [.str "ai-proposed", .str "needs-review"]),
    ("tests", .obj [("positive", .arr [.str p.exampleText]), ("negative", .arr [])])]

/-- `RuleProposal.to_yaml`. -/
def toYaml (p : RuleProposal) : String :=
  lib.safeDump (.obj [("rules", .arr [.obj (ruleEntry lib p)])])

/-- The lines ahead of the proposals. -/
def pastedHeader (result : DiscoveryResult) : String :=
  "# AI-proposed detection rules — REVIEW BEFORE MERGING.\n"
    ++ "# Model: " ++ result.model ++ ". Sampled " ++ toString result.sampled
    ++ " unmatched strings.\n#\n"
    ++ "# These are proposals, not findings. Nothing here has affected any\n"
    ++ "# scan result. Merging one makes it deterministic; until then it does\n"
    ++ "# not exist as far as the pipeline is concerned.\n#\n"
    ++ "# Every rule needs a negative fixture before it merges — see\n"
    ++ "# tests/unit/test_rules.py, which executes them.\n\n"

/-- `proposals_to_yaml`. -/
def proposalsToYaml (result : DiscoveryResult) : String :=
  if result.usable = [] then "# No usable rule proposals.\n"
  else
    pastedHeader result
      ++ "\n".intercalate (result.usable.map fun p =>
        "# --- " ++ p.id ++ ": " ++ p.rationale ++ "\n" ++ toYaml lib p)

end Build

end BareAnalysis.Discovery
