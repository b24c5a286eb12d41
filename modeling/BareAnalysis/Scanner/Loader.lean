import BareAnalysis.Machinery.Utf8
import BareAnalysis.Rules.Loader
import BareAnalysis.Scanner.Scan

/-!
# Scanner/Loader — a rule directory as the scanner reads it

    *.yaml ──yaml──▸ entries ──build──▸ rules
    false_positives.yaml ──yaml──▸ groups ──▸ values

The rest of `core/rules/loader.py`: every field of a rule, and the corpus.  YAML and the compiler of
expressions are libraries; what the loader asks of them and does with the answers is here.
-/

namespace BareAnalysis

/-! ## The libraries -/

/-- One match of a compiled expression. -/
structure RegexMatch where
  start : ℕ
  stop : ℕ
  /-- `match.group(capture)`: none for a group that took no part, or that there is not. -/
  group : Json → Option (ℕ × ℕ)

/-- `re.Pattern`. -/
structure Regex where
  finditer : List Char → List RegexMatch
  search : List Char → Bool
  /-- Matches and groups are spans of the text. -/
  inside : ∀ text, ∀ m ∈ finditer text, m.start ≤ m.stop ∧ m.stop ≤ text.length ∧
    ∀ capture, ∀ group ∈ m.group capture, group.1 ≤ group.2 ∧ group.2 ≤ text.length

/-- The expression, with the group that holds the secret. -/
def Regex.pattern (regex : Regex) (capture : Json) : Pattern where
  hits text := (regex.finditer text).map fun m => ⟨m.start, m.stop, m.group capture⟩
  inside text hit hhit := by
    obtain ⟨m, hm, rfl⟩ := List.mem_map.mp hhit
    obtain ⟨hstart, hstop, hgroup⟩ := regex.inside text m hm
    exact ⟨hstart, hstop, hgroup capture⟩

/-- What the loader calls. -/
structure RuleLibraries where
  /-- `yaml.safe_load(text)`. -/
  yaml : List Char → Except PyError Json
  /-- `re.compile(expression, re.MULTILINE)`. -/
  compile : String → Except PyError Regex
  /-- `float(text)`. -/
  floatOf : String → Option ℚ
  unicode : Unicode

/-- `data.decode("utf-8")`. -/
def decodeText (data : Bytes) : Except PyError (List Char) :=
  match Utf8.decodeStrict data with
  | some text => .ok text
  | none => .error (.valueError "'utf-8' codec can't decode bytes")

/-- The newlines of a file read as text. -/
def universalNewlines : List Char → List Char
  | '\r' :: '\n' :: s => '\n' :: universalNewlines s
  | '\r' :: s => '\n' :: universalNewlines s
  | c :: s => c :: universalNewlines s
  | [] => []

/-- `path.read_text(encoding="utf-8")`. -/
def readText (data : Bytes) : Except PyError (List Char) :=
  (decodeText data).map universalNewlines

/-! ## One rule -/

section Build

variable (lib : RuleLibraries) (fileName : String)

/-- `Severity(value)`. -/
def Severity.parse (u : Unicode) (v : Json) : Except PyError Severity :=
  match [Severity.critical, .high, .medium, .low, .info].find? fun s => v.isText s.value with
  | some severity => .ok severity
  | none => .error (.valueError (v.reprText u.printable ++ " is not a valid Severity"))

/-- `entry[key]` of a field that a rule must have. -/
def requiredField (entry : Json) (key : String) : Except PyError Json :=
  (entry.index key).mapError fun
    | .keyError key =>
      .valueError (fileName ++ ": rule missing required field " ++ (PyError.keyError key).message)
    | e => e

/-- The severity of a rule; a bad one is reported with the rule's id. -/
def readSeverity (entry : Json) : Except PyError Severity := do
  let raw ← requiredField fileName entry "severity"
  match Severity.parse lib.unicode raw with
  | .ok severity => return severity
  | .error e =>
    let id ← entry.getD "id" (.str "?")
    throw (.valueError (fileName ++ ": " ++ id.text lib.unicode.printable ++ ": " ++ e.message))

/-- `re.compile(value)`, with what an invalid expression is reported as. -/
def compileValue (label : String) (v : Json) : Except PyError Regex :=
  match v with
  | .str expression => (lib.compile expression).mapError fun e =>
      .valueError (label ++ v.reprText lib.unicode.printable ++ ": " ++ e.message)
  | _ => .error (.typeError "first argument must be string or compiled pattern")

/-- The expression and the group of a pattern, which may be an expression alone. -/
def readPattern (raw : Json) : Except PyError (Json × Json) :=
  match raw with
  | .obj fields => do
    let expression ← (Json.obj fields).index "regex"
    let capture ← (Json.obj fields).getD "capture" (.int 0)
    return (expression, capture)
  | expression => .ok (expression, .int 0)

def buildPattern (ruleId : String) (raw : Json) : Except PyError Pattern := do
  let (expression, capture) ← readPattern raw
  let regex ← compileValue lib (fileName ++ ": " ++ ruleId ++ ": invalid regex ") expression
  return regex.pattern capture

/-- One of `rejects_matching`, which is read as a text. -/
def buildReject (ruleId : String) (raw : Json) : Except PyError (List Char → Bool) := do
  let regex ← compileValue lib (fileName ++ ": " ++ ruleId ++ ": invalid rejects_matching regex ")
    (.str (raw.text lib.unicode.printable))
  return regex.search

/-- `float(entry.get(key, default))`. -/
def floatField (entry : Json) (key : String) (default : ℚ) : Except PyError ℚ := do
  match ← entry.get? key with
  | none => return default
  | some (.str text) =>
    match lib.floatOf text with
    | some q => return q
    | none => throw (.valueError ("could not convert string to float: "
        ++ (Json.str text).reprText lib.unicode.printable))
  | some v =>
    match v.number? with
    | some q => return q
    | none => throw (.typeError ("float() argument must be a string or a real number, not '"
        ++ v.typeName ++ "'"))

/-- `int(entry.get(key, default))`. -/
def intField (entry : Json) (key : String) (default : ℤ) : Except PyError ℤ := do
  (← entry.getD key (.int default)).asInt

/-- `entry.get(key, "").strip()`. -/
def strippedField (entry : Json) (key : String) : Except PyError String := do
  match ← entry.getD key (.str "") with
  | .str text => return String.ofList (strip lib.unicode.space text.toList)
  | v => throw (.attributeError ("'" ++ v.typeName ++ "' object has no attribute 'strip'"))

/-- `tuple(entry.get(key, default))`, of texts. -/
def textsField (entry : Json) (key : String) (default : List String) :
    Except PyError (List String) := do
  let items ← (← entry.getD key (.arr (default.map .str))).iter
  items.mapM Json.asStr

/-- The fixtures of a rule, which must be lists. -/
def readTests (entry : Json) : Except PyError Unit := do
  let tests := (← entry.getD "tests" (.obj [])).orElse (.obj [])
  let _ ← (← tests.getD "positive" (.arr [])).iter
  let _ ← (← tests.getD "negative" (.arr [])).iter

/-- `_build_rule`. -/
def buildRule (entry : Json) : Except PyError ScanRule := do
  let id ← (← requiredField fileName entry "id").asStr
  let name ← (← requiredField fileName entry "name").asStr
  let category ← (← requiredField fileName entry "category").asStr
  let severity ← readSeverity lib fileName entry
  let rawPatterns ← requiredField fileName entry "patterns"
  let patterns ← (← rawPatterns.iter).mapM (buildPattern lib fileName id)
  let rawRejects := (← entry.getD "rejects_matching" (.arr [])).orElse (.arr [])
  let rejectsMatching ← (← rawRejects.iter).mapM (buildReject lib fileName id)
  let confidence ← floatField lib entry "confidence" (1 / 2)
  let cwe ← (← entry.getOrNull "cwe").asStr?
  let _ ← strippedField lib entry "description"
  let remediation ← strippedField lib entry "remediation"
  let tags ← textsField entry "tags" []
  let minEntropy ← floatField lib entry "min_entropy" 0
  let minLength ← intField entry "min_length" 0
  let maxLength ← intField entry "max_length" 4096
  let encodings ← textsField entry "encodings" ["ascii", "utf-16le"]
  let requiresNearby ← textsField entry "requires_nearby" []
  let nearbyWindow ← intField entry "nearby_window" 120
  let shapePolicy ← entry.getD "shape_policy" (.str "context")
  let requireMixedCase ← entry.getD "require_mixed_case" (.bool false)
  let enabled ← entry.getD "enabled" (.bool true)
  readTests entry
  return {
    id, name, category, severity, confidence, cwe, remediation, tags, minEntropy
    enabled := enabled.truthy
    patterns, minLength, maxLength, encodings, requiresNearby, nearbyWindow
    shapePolicy := shapePolicy.text lib.unicode.printable
    rejectsMatching
    requireMixedCase := requireMixedCase.truthy }

end Build

/-! ## The directory -/

section Load

variable (lib : RuleLibraries)

/-- The entries of a rule file, each as the rule it builds. -/
def readRuleFile (fileName : String) (raw : Bytes) :
    Except PyError (List (Except PyError ScanRule)) := do
  let document := (← lib.yaml (← decodeText raw)).orElse (.obj [])
  let entries ← (← document.getD "rules" (.arr [])).iter
  return entries.map (buildRule lib fileName)

/-- One entry, after those that are loaded with their files: an id is defined once. -/
def addScanRule (fileName : String) (loaded : List (String × ScanRule))
    (entry : Except PyError ScanRule) : Except PyError (List (String × ScanRule)) := do
  let rule ← entry
  match loaded.find? fun old => old.2.id == rule.id with
  | some old => throw (.valueError ("duplicate rule id "
      ++ (Json.str rule.id).reprText lib.unicode.printable ++ " in " ++ fileName
      ++ " (already defined in " ++ old.1 ++ ")"))
  | none => return loaded ++ [(fileName, rule)]

/-- One rule file. -/
def addRuleFile (loaded : List (String × ScanRule)) (file : String × Bytes) :
    Except PyError (List (String × ScanRule)) := do
  (← readRuleFile lib file.1 file.2).foldlM (addScanRule lib file.1) loaded

/-- What `VERSION` says. -/
def readVersionText (raw : Bytes) : Except PyError String :=
  (readText raw).map fun text => String.ofList (strip lib.unicode.space text)

/-- `value.values()`. -/
def jsonValues (v : Json) : Except PyError (List Json) :=
  match v with
  | .obj fields => .ok ((Json.items fields).map Prod.snd)
  | v => .error (.attributeError ("'" ++ v.typeName ++ "' object has no attribute 'values'"))

/-- The values of a corpus. -/
def readCorpus (raw : Bytes) : Except PyError (List (List Char)) := do
  let document := (← lib.yaml (← readText raw)).orElse (.obj [])
  let groups ← jsonValues (← document.getD "known_benign" (.obj []))
  let values ← groups.mapM Json.iter
  return values.flatten.map fun v => (v.text lib.unicode.printable).toList

/-- `_load_false_positives`. -/
def loadFalsePositives (d : RuleDirectory) : Except PyError (List (List Char)) :=
  match d.falsePositives with
  | none => .ok []
  | some raw => readCorpus lib raw

/-- `load_rule_pack`, for a directory that exists. -/
def loadScanPack (d : RuleDirectory) : Except PyError ScanPack := do
  if d.ruleFiles.isEmpty then throw (.valueError "no rule files found")
  let loaded ← d.ruleFiles.foldlM (addRuleFile lib) []
  let version ← d.readVersion (readVersionText lib)
  let falsePositives ← loadFalsePositives lib d
  return { version, rules := loaded.map Prod.snd, hash := d.hash, falsePositives }

/-! ## The pack correlation knows -/

variable {lib}

/-- The rules that are loaded, without their files and patterns. -/
def plainRules (loaded : List (String × ScanRule)) : List Rule := loaded.map (·.2.toRule)

/-- An entry that is added is added to the pack without its patterns. -/
theorem addRule_of_addScanRule {fileName : String} {loaded loaded' : List (String × ScanRule)}
    {entry : Except PyError ScanRule} (h : addScanRule lib fileName loaded entry = .ok loaded') :
    addRule fileName (plainRules loaded) (entry.map ScanRule.toRule)
      = .ok (plainRules loaded') := by
  obtain ⟨rule, rfl, hrule⟩ := bind_eq_ok.mp h
  split at hrule
  · cases hrule
  · rename_i hnew
    obtain rfl := Except.ok.inj hrule
    have hany : ((plainRules loaded).any fun r => r.id == rule.toRule.id) = false := by
      rw [plainRules, List.any_map, List.any_eq_false]
      exact List.find?_eq_none.mp hnew
    show (if (plainRules loaded).any (fun r => r.id == rule.toRule.id) = true then _ else _) = _
    rw [if_neg (hany ▸ Bool.false_ne_true), plainRules, plainRules, List.map_append]
    rfl

/-- What a rule file says, without the patterns. -/
def readRules (lib : RuleLibraries) (fileName : String) (raw : Bytes) :
    Except PyError (List (Except PyError Rule)) :=
  (readRuleFile lib fileName raw).map (List.map (Except.map ScanRule.toRule))

/-- **The pack the scanner runs is the pack correlation knows**, rule by rule. -/
theorem loadRulePack_of_loadScanPack {d : RuleDirectory} {pack : ScanPack}
    (h : loadScanPack lib d = .ok pack) :
    loadRulePack (readRules lib) (readVersionText lib) d = .ok pack.toRulePack := by
  rw [loadScanPack] at h
  split at h
  · cases h
  rename_i hfiles
  obtain ⟨loaded, hloaded, h⟩ := bind_eq_ok.mp h
  obtain ⟨version, hversion, h⟩ := bind_eq_ok.mp h
  obtain ⟨falsePositives, -, h⟩ := bind_eq_ok.mp h
  obtain rfl := Except.ok.inj h
  have hfile : ∀ loaded file loaded', addRuleFile lib loaded file = .ok loaded' →
      (do (← readRules lib file.1 file.2).foldlM (addRule file.1) (plainRules loaded))
        = .ok (plainRules loaded') := fun loaded file loaded' h => by
    obtain ⟨entries, hentries, h⟩ := bind_eq_ok.mp h
    refine bind_eq_ok.mpr ⟨entries.map (Except.map ScanRule.toRule), ?_, ?_⟩
    · rw [readRules, hentries]
      rfl
    · exact foldlM_eq_ok_of_forall plainRules (Except.map ScanRule.toRule)
        (fun _ _ _ => addRule_of_addScanRule) h
  have hrules := @foldlM_eq_ok_of_forall _ _ _ _ _ _
    (fun rules file => do (← readRules lib file.1 file.2).foldlM (addRule file.1) rules)
    plainRules id hfile _ _ _ hloaded
  rw [List.map_id] at hrules
  rw [loadRulePack, if_neg hfiles]
  refine bind_eq_ok.mpr ⟨_, hrules, bind_eq_ok.mpr ⟨version, hversion, ?_⟩⟩
  rw [ScanPack.toRulePack, List.map_map]
  rfl

theorem hash_of_loadScanPack {d : RuleDirectory} {pack : ScanPack}
    (h : loadScanPack lib d = .ok pack) : pack.hash = d.hash :=
  hash_of_loadRulePack (loadRulePack_of_loadScanPack h)

end Load

end BareAnalysis
