import BareAnalysis.Enrichment.Result
import BareAnalysis.Scanner.Loader

/-!
# Scanner/Documents — which rule documents load, and what they load as

    entry ──head──▸ ──patterns──▸ ──rejects──▸ ──details──▸ rule
             │          │            │            │
         RuleLoadError  │ RuleLoadError only for an expression `re` refuses
                        └──────────── anything else goes through as it was raised

`Scanner/Loader` reads a rule for the scanner, and takes its texts to be texts.  Here every field
keeps the value the document gives it, and an error keeps its class: `load_rule_pack` promises a
`RuleLoadError` for a document it does not take, and a rule as it was written for one it takes.
-/

namespace BareAnalysis

/-! ## The libraries -/

/-- A compiled expression, with the groups it defines. -/
structure GroupedRegex extends Regex where
  /-- `regex.groups`. -/
  groups : ℕ
  /-- The keys of `regex.groupindex`. -/
  names : List String

/-- The captures `match.group` knows. -/
def GroupedRegex.Defines (regex : GroupedRegex) : Json → Prop
  | .int n => 0 ≤ n ∧ n ≤ regex.groups
  | .bool b => b = true → 0 < regex.groups
  | .str name => name ∈ regex.names
  | _ => False

/-- What `re.compile` raises. -/
inductive CompileError
  /-- `re.error`. -/
  | invalid (message : String)
  | other (e : PyError)

/-- What the loader calls. -/
structure DocumentLibraries extends Numerals where
  /-- `yaml.safe_load(text)`. -/
  yaml : List Char → Except PyError Json
  /-- `re.compile(expression, re.MULTILINE)`. -/
  compile : String → Except CompileError GroupedRegex
  unicode : Unicode

/-- What `load_rule_pack` raises: its own error, or one that goes through it. -/
inductive LoadError
  | ruleLoadError (message : String)
  | uncaught (e : PyError)

/-- A step whose errors nobody catches. -/
def letThrough {α : Type} (x : Except PyError α) : Except LoadError α := x.mapError .uncaught

/-! ## Rules -/

/-- One regex of a rule. -/
structure DocumentPattern where
  regex : GroupedRegex
  capture : Json
  source : Json

/-- The fields of a rule that are read inside the `try`. -/
structure RuleHead where
  id : Json
  name : Json
  category : Json
  severity : Severity

/-- The fields of a rule that are converted one by one. -/
structure RuleDetails where
  /-- None for a float that is not finite. -/
  confidence : Option ℚ
  cwe : Json
  description : String
  remediation : String
  tags : List Json
  minEntropy : Option ℚ
  minLength : ℤ
  maxLength : ℤ
  encodings : List Json
  requiresNearby : List Json
  nearbyWindow : ℤ
  shapePolicy : String
  requireMixedCase : Bool
  enabled : Bool
  examplesPositive : List Json
  examplesNegative : List Json

/-- `Rule`, as it is loaded. -/
structure DocumentRule extends RuleHead, RuleDetails where
  patterns : List DocumentPattern
  rejectsMatching : List GroupedRegex

/-- `RulePack`, as it is loaded. -/
structure DocumentPack where
  version : String
  rules : List DocumentRule
  hash : String
  falsePositives : List (List Char)

/-! ## One rule -/

section Build

variable (lib : DocumentLibraries) (fileName : String)

/-- `entry[key]`, inside the `try`. -/
def headField (entry : Json) (key : String) : Except LoadError Json :=
  (entry.index key).mapError fun
    | .keyError key => .ruleLoadError
        (fileName ++ ": rule missing required field " ++ (PyError.keyError key).message)
    | e => .uncaught e

/-- `Severity(entry["severity"])`, inside the `try`. -/
def headSeverity (entry : Json) : Except LoadError Severity := do
  let raw ← headField fileName entry "severity"
  match Severity.parse lib.unicode raw with
  | .ok severity => return severity
  | .error e =>
    let id ← letThrough (entry.getD "id" (.str "?"))
    throw (.ruleLoadError
      (fileName ++ ": " ++ id.text lib.unicode.printable ++ ": " ++ e.message))

/-- The `try` of `_build_rule`, with the patterns as they are written. -/
def readHead (entry : Json) : Except LoadError (RuleHead × Json) := do
  let id ← headField fileName entry "id"
  let name ← headField fileName entry "name"
  let category ← headField fileName entry "category"
  let severity ← headSeverity lib fileName entry
  let rawPatterns ← headField fileName entry "patterns"
  return ({ id, name, category, severity }, rawPatterns)

/-- `re.compile(value)`, with what an invalid expression is reported as. -/
def compileOf (label : String) (shown value : Json) : Except LoadError GroupedRegex :=
  match value with
  | .str expression => (lib.compile expression).mapError fun
    | .invalid message =>
      .ruleLoadError (label ++ shown.reprText lib.unicode.printable ++ ": " ++ message)
    | .other e => .uncaught e
  | _ => .error (.uncaught (.typeError "first argument must be string or compiled pattern"))

/-- One of `patterns`. -/
def patternOf (ruleId : Json) (raw : Json) : Except LoadError DocumentPattern := do
  let parts ← letThrough (readPattern raw)
  let regex ← compileOf lib (fileName ++ ": " ++ ruleId.text lib.unicode.printable
    ++ ": invalid regex ") parts.1 parts.1
  return { regex, capture := parts.2, source := parts.1 }

/-- One of `rejects_matching`. -/
def rejectOf (ruleId : Json) (raw : Json) : Except LoadError GroupedRegex :=
  compileOf lib (fileName ++ ": " ++ ruleId.text lib.unicode.printable
    ++ ": invalid rejects_matching regex ") raw (.str (raw.text lib.unicode.printable))

/-- `entry.get("rejects_matching", ()) or ()`. -/
def rawRejects (entry : Json) : Except PyError (List Json) := do
  ((← entry.getD "rejects_matching" (.arr [])).orElse (.arr [])).iter

/-- `float(entry.get(key, default))`. -/
def floatOf (entry : Json) (key : String) (default : ℚ) : Except PyError (Option ℚ) := do
  (← entry.getD key (.float default "")).toFloat lib.toNumerals

/-- `int(entry.get(key, default))`. -/
def intOf (entry : Json) (key : String) (default : ℤ) : Except PyError ℤ := do
  (← entry.getD key (.int default)).toInt lib.toNumerals

/-- `entry.get(key, "").strip()`. -/
def strippedOf (entry : Json) (key : String) : Except PyError String := do
  match ← entry.getD key (.str "") with
  | .str text => return String.ofList (strip lib.unicode.space text.toList)
  | v => throw (.attributeError ("'" ++ v.typeName ++ "' object has no attribute 'strip'"))

/-- `tuple(entry.get(key, default))`. -/
def tupleOf (entry : Json) (key : String) (default : List Json) : Except PyError (List Json) := do
  (← entry.getD key (.arr default)).iter

/-- The encodings of a rule that names none. -/
def defaultEncodings : List Json := [.str "ascii", .str "utf-16le"]

/-- The arguments of `Rule(…)`, in their order. -/
def readDetails (entry : Json) : Except PyError RuleDetails := do
  let tests := (← entry.getD "tests" (.obj [])).orElse (.obj [])
  let confidence ← floatOf lib entry "confidence" (1 / 2)
  let cwe ← entry.getOrNull "cwe"
  let description ← strippedOf lib entry "description"
  let remediation ← strippedOf lib entry "remediation"
  let tags ← tupleOf entry "tags" []
  let minEntropy ← floatOf lib entry "min_entropy" 0
  let minLength ← intOf lib entry "min_length" 0
  let maxLength ← intOf lib entry "max_length" 4096
  let encodings ← tupleOf entry "encodings" defaultEncodings
  let requiresNearby ← tupleOf entry "requires_nearby" []
  let nearbyWindow ← intOf lib entry "nearby_window" 120
  let shapePolicy ← entry.getD "shape_policy" (.str "context")
  let requireMixedCase ← entry.getD "require_mixed_case" (.bool false)
  let enabled ← entry.getD "enabled" (.bool true)
  let examplesPositive ← tupleOf tests "positive" []
  let examplesNegative ← tupleOf tests "negative" []
  return {
    confidence, cwe, description, remediation, tags, minEntropy, minLength, maxLength
    encodings, requiresNearby, nearbyWindow
    shapePolicy := shapePolicy.text lib.unicode.printable
    requireMixedCase := requireMixedCase.truthy
    enabled := enabled.truthy
    examplesPositive, examplesNegative }

/-- `_build_rule`. -/
def buildDocumentRule (entry : Json) : Except LoadError DocumentRule := do
  let head ← readHead lib fileName entry
  let patterns ← (← letThrough head.2.iter).mapM (patternOf lib fileName head.1.id)
  let rejectsMatching ← (← letThrough (rawRejects entry)).mapM (rejectOf lib fileName head.1.id)
  let details ← letThrough (readDetails lib entry)
  return { head.1, details with patterns, rejectsMatching }

end Build

/-! ## The directory -/

section Load

variable (lib : DocumentLibraries)

/-- The entries of a rule file. -/
def readEntries (raw : Bytes) : Except PyError (List Json) := do
  let document := (← lib.yaml (← decodeText raw)).orElse (.obj [])
  (← document.getD "rules" (.arr [])).iter

/-- `hash(value)` of an id: lists and mappings have none. -/
def Json.Hashable : Json → Prop
  | .arr _ | .obj _ => False
  | _ => True

instance (v : Json) : Decidable v.Hashable :=
  match v with
  | .arr _ | .obj _ => .isFalse id
  | .null | .bool _ | .int _ | .float _ _ | .nonFinite _ | .str _ => .isTrue trivial

/-- What `rule.id in seen` needs before it compares. -/
def hashOf (v : Json) : Except PyError Unit :=
  if v.Hashable then .ok () else .error (.typeError ("unhashable type: '" ++ v.typeName ++ "'"))

/-- One entry, after those that are loaded with their files. -/
def addDocumentRule (fileName : String) (loaded : List (String × DocumentRule)) (entry : Json) :
    Except LoadError (List (String × DocumentRule)) := do
  let rule ← buildDocumentRule lib fileName entry
  letThrough (hashOf rule.id)
  match loaded.find? fun old => old.2.id.equals rule.id with
  | some old => throw (.ruleLoadError ("duplicate rule id "
      ++ rule.id.reprText lib.unicode.printable ++ " in " ++ fileName
      ++ " (already defined in " ++ old.1 ++ ")"))
  | none => return loaded ++ [(fileName, rule)]

/-- One rule file. -/
def addDocument (loaded : List (String × DocumentRule)) (file : String × Bytes) :
    Except LoadError (List (String × DocumentRule)) := do
  (← letThrough (readEntries lib file.2)).foldlM (addDocumentRule lib file.1) loaded

/-- `_read_version`. -/
def documentVersion (d : RuleDirectory) : Except PyError String :=
  match d.version with
  | none => .ok "0.0.0-dev"
  | some raw => (readText raw).map fun text => String.ofList (strip lib.unicode.space text)

/-- `_load_false_positives`. -/
def documentCorpus (d : RuleDirectory) : Except PyError (List (List Char)) :=
  match d.falsePositives with
  | none => .ok []
  | some raw => do
    let document := (← lib.yaml (← readText raw)).orElse (.obj [])
    let groups ← jsonValues (← document.getD "known_benign" (.obj []))
    let values ← groups.mapM Json.iter
    return values.flatten.map fun v => (v.text lib.unicode.printable).toList

/-- `load_rule_pack`, for a directory that exists. -/
def loadDocuments (d : RuleDirectory) : Except LoadError DocumentPack := do
  if d.ruleFiles.isEmpty then throw (.ruleLoadError "no rule files found")
  let loaded ← d.ruleFiles.foldlM (addDocument lib) []
  let version ← letThrough (documentVersion lib d)
  let falsePositives ← letThrough (documentCorpus lib d)
  return { version, rules := loaded.map Prod.snd, hash := d.hash, falsePositives }

end Load

end BareAnalysis
