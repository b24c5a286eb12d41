import BareAnalysis.Llm.Discovery

/-!
# Llm/Pasted — a batch of proposals, saved as a rule file

    # --- a: …            one mapping with the key `rules`
    rules: [ a ]          written once for each proposal,
    # --- b: …            read with the last
    rules: [ b ]   ──safe_load──▸ {rules: [ b ]}

A batch of one proposal is a rule file; of a larger one all but the last proposal are dropped without
a word (`isPasted_iff`).
-/

namespace BareAnalysis.Discovery

variable (lib : DiscoveryLibraries)

/-! ## What a pack holds of a batch -/

/-- The float that a number of a document is read as. -/
def readFloat : Json → Option ℚ
  | .float q _ => some q
  | _ => none

/-- The rule of a proposal. -/
structure IsRuleOf (p : RuleProposal) (rule : DocumentRule) : Prop where
  id : rule.id = .str p.id
  severity : rule.severity.value = p.severity
  patterns : ∃ regex, rule.patterns = [⟨regex, .int 1, .str p.regex⟩]
  confidence : rule.confidence = readFloat (roundedConfidence lib p.confidence)

/-- A directory with one rule file, which holds the text. -/
def savedAs (fileName : String) (raw : Bytes) : RuleDirectory where
  ruleFiles := [(fileName, raw)]

/-- The file loads, with one rule for each usable proposal and no other. -/
def IsPasted (result : DiscoveryResult) (fileName : String) (raw : Bytes) : Prop :=
  ∃ pack, loadDocuments lib.toDocumentLibraries (savedAs fileName raw) = .ok pack ∧
    List.Forall₂ (IsRuleOf lib) result.usable pack.rules

/-- A text that stays in its comment. -/
def StaysInComment (text : String) : Prop :=
  ∀ c ∈ text.toList, isYamlPrintable c = true ∧ lineBreak? c = none

theorem staysInComment_of_all {text : String}
    (h : (text.toList.all fun c => isYamlPrintable c && lineBreak? c == none) = true) :
    StaysInComment text := fun c hc => by
  obtain ⟨hprintable, hbreak⟩ := Bool.and_eq_true_iff.mp (List.all_eq_true.mp h c hc)
  exact ⟨hprintable, eq_of_beq hbreak⟩

/-- A batch whose comments are comments. -/
structure IsClean (result : DiscoveryResult) : Prop where
  model : StaysInComment result.model
  id : ∀ p ∈ result.usable, StaysInComment p.id
  rationale : ∀ p ∈ result.usable, StaysInComment p.rationale

/-- How `safe_load` reads a clean batch: it passes over comments, reads back what `safe_dump` wrote,
and keeps the last value of a key. -/
def LoadsBatch (result : DiscoveryResult) : Prop :=
  IsClean result → lib.yaml (proposalsToYaml lib result).toList
    = .ok (if result.usable = [] then .null
      else .obj (result.usable.map fun p => ("rules", .arr [.obj (ruleEntry lib p)])))

/-! ## One rule -/

/-- The checks only ever reject: what a proposal proposes stays. -/
theorem checkProposal_cases {p q : RuleProposal} (h : checkProposal lib p = .ok q) :
    (∃ error, q = p.reject error) ∨
      q = p ∧ ∃ regex, lib.compilePlain p.regex = .ok regex := by
  rw [checkProposal] at h
  by_cases hnone : p.regex = ""
  · rw [if_pos hnone] at h
    exact Or.inl ⟨_, (Except.ok.inj h).symm⟩
  rw [if_neg hnone] at h
  rcases hcompile : lib.compilePlain p.regex with (message | e) | compiled
  · rw [hcompile] at h
    exact Or.inl ⟨_, (Except.ok.inj h).symm⟩
  · rw [hcompile] at h
    cases h
  · rw [hcompile] at h
    dsimp only at h
    split_ifs at h
    all_goals first
      | exact Or.inl ⟨_, (Except.ok.inj h).symm⟩
      | exact Or.inr ⟨(Except.ok.inj h).symm, compiled, rfl⟩

theorem severity_of_checkProposal {p q : RuleProposal} (h : checkProposal lib p = .ok q) :
    q.severity = p.severity := by
  obtain ⟨error, rfl⟩ | ⟨rfl, -⟩ := checkProposal_cases lib h <;> rfl

/-- A proposal is what the fields give, checked; its severity is one. -/
theorem exists_draft {raw : Json} {p : RuleProposal} (h : buildProposal lib raw = .ok p) :
    ∃ draft, draft.severity ∈ severityNames ∧ checkProposal lib draft = .ok p := by
  obtain ⟨id, -, h⟩ := bind_eq_ok.mp h
  obtain ⟨name, -, h⟩ := bind_eq_ok.mp h
  obtain ⟨category, -, h⟩ := bind_eq_ok.mp h
  obtain ⟨severity, -, h⟩ := bind_eq_ok.mp h
  obtain ⟨confidence, -, h⟩ := bind_eq_ok.mp h
  obtain ⟨regex, -, h⟩ := bind_eq_ok.mp h
  obtain ⟨rationale, -, h⟩ := bind_eq_ok.mp h
  obtain ⟨exampleText, -, h⟩ := bind_eq_ok.mp h
  obtain ⟨remediation, -, h⟩ := bind_eq_ok.mp h
  refine ⟨_, ?_, h⟩
  change (if severity ∈ severityNames then severity else "low") ∈ severityNames
  by_cases hseverity : severity ∈ severityNames
  · rwa [if_pos hseverity]
  · rw [if_neg hseverity]
    decide

theorem exists_severity {raw : Json} {p : RuleProposal} (h : buildProposal lib raw = .ok p) :
    ∃ s : Severity, p.severity = s.value := by
  obtain ⟨draft, hmem, hcheck⟩ := exists_draft lib h
  have hvalue : ∀ text ∈ severityNames, ∃ s : Severity, text = s.value := by
    simp only [severityNames, List.forall_mem_cons]
    exact ⟨⟨.critical, rfl⟩, ⟨.high, rfl⟩, ⟨.medium, rfl⟩, ⟨.low, rfl⟩, ⟨.info, rfl⟩,
      fun text htext => absurd htext List.not_mem_nil⟩
  rw [severity_of_checkProposal lib hcheck]
  exact hvalue _ hmem

/-- A usable proposal has an expression that compiles. -/
theorem exists_compile {raw : Json} {p : RuleProposal} (h : buildProposal lib raw = .ok p)
    (hvalid : p.valid = true) : ∃ regex, lib.compile p.regex = .ok regex := by
  obtain ⟨draft, -, hcheck⟩ := exists_draft lib h
  obtain ⟨error, rfl⟩ | ⟨rfl, compiled, hcompile⟩ := checkProposal_cases lib hcheck
  · cases hvalid
  · obtain ⟨multiline, hmultiline, -⟩ := lib.compile_of_plain _ _ hcompile
    exact ⟨multiline, hmultiline⟩

theorem headSeverity_eq_ok {fields : List (String × Json)} {fileName : String} {raw : Json}
    {severity : Severity} (hfield : Dict.get? fields "severity" = some raw)
    (hparse : Severity.parse lib.unicode raw = .ok severity) :
    headSeverity lib.toDocumentLibraries fileName (.obj fields) = .ok severity := by
  rw [headSeverity, headField_eq_ok.mpr hfield, ok_bind, hparse]
  rfl

/-- **The entry of a usable proposal builds its rule.** -/
theorem exists_rule {p : RuleProposal} {severity : Severity} {regex : GroupedRegex}
    (hseverity : p.severity = severity.value) (hcompile : lib.compile p.regex = .ok regex)
    (fileName : String) :
    ∃ rule, buildDocumentRule lib.toDocumentLibraries fileName (.obj (ruleEntry lib p)) = .ok rule ∧
      IsRuleOf lib p rule := by
  have hparse : Severity.parse lib.unicode (.str p.severity) = .ok severity := by
    rw [hseverity]
    cases severity <;> rfl
  have hhead : readHead lib.toDocumentLibraries fileName (.obj (ruleEntry lib p))
      = .ok (⟨.str p.id, .str p.name, .str p.category, severity⟩,
        .arr [.obj [("regex", .str p.regex), ("capture", .int 1)]]) := by
    change (headSeverity lib.toDocumentLibraries fileName (.obj (ruleEntry lib p)) >>= _) = _
    rw [@headSeverity_eq_ok lib _ fileName (.str p.severity) severity rfl hparse]
    rfl
  have hpattern : patternOf lib.toDocumentLibraries fileName (.str p.id)
      (.obj [("regex", .str p.regex), ("capture", .int 1)])
        = .ok ⟨regex, .int 1, .str p.regex⟩ := by
    change (compileOf lib.toDocumentLibraries _ (.str p.regex) (.str p.regex) >>= _) = _
    rw [compileOf_eq_ok.mpr ⟨p.regex, rfl, hcompile⟩]
    rfl
  have hfloat : (roundedConfidence lib p.confidence).toFloat lib.toNumerals
      = .ok (readFloat (roundedConfidence lib p.confidence)) := by
    rcases p.confidence with q | repr <;> rfl
  have hconfidence : floatOf lib.toDocumentLibraries (.obj (ruleEntry lib p)) "confidence" (1 / 2)
      = .ok (readFloat (roundedConfidence lib p.confidence)) := hfloat
  obtain ⟨details, hdetails, hread⟩ : ∃ details : RuleDetails,
      readDetails lib.toDocumentLibraries (.obj (ruleEntry lib p)) = .ok details ∧
        details.confidence = readFloat (roundedConfidence lib p.confidence) := by
    change ∃ details : RuleDetails,
      (floatOf lib.toDocumentLibraries (.obj (ruleEntry lib p)) "confidence" (1 / 2) >>= _)
        = .ok details ∧ _
    rw [hconfidence, ok_bind]
    exact ⟨_, rfl, rfl⟩
  refine ⟨{ toRuleHead := ⟨.str p.id, .str p.name, .str p.category, severity⟩
            toRuleDetails := details
            patterns := [⟨regex, .int 1, .str p.regex⟩]
            rejectsMatching := [] }, ?_, rfl, hseverity.symm, ⟨regex, rfl⟩, hread⟩
  have hiter : letThrough (Json.arr [.obj [("regex", .str p.regex), ("capture", .int 1)]]).iter
      = .ok [.obj [("regex", .str p.regex), ("capture", .int 1)]] := rfl
  have hpatterns : [Json.obj [("regex", .str p.regex), ("capture", .int 1)]].mapM
      (patternOf lib.toDocumentLibraries fileName (.str p.id))
        = .ok [⟨regex, .int 1, .str p.regex⟩] := by
    rw [List.mapM_cons, hpattern]
    rfl
  have hrejects : letThrough (rawRejects (.obj (ruleEntry lib p))) = .ok [] := rfl
  rw [buildDocumentRule, hhead, ok_bind, hiter, ok_bind, hpatterns, ok_bind, hrejects, ok_bind,
    letThrough_eq_ok.mpr hdetails]
  rfl

/-! ## The batch -/

/-- Every proposal was built from something the model said. -/
def IsBuilt (result : DiscoveryResult) : Prop :=
  ∀ p ∈ result.proposals, ∃ raw, buildProposal lib raw = .ok p

section Batch

variable {result : DiscoveryResult} {fileName : String} {raw : Bytes}

/-- One file loads as its entries. -/
theorem loadDocuments_savedAs {entries : List Json}
    (h : readEntries lib.toDocumentLibraries raw = .ok entries) :
    loadDocuments lib.toDocumentLibraries (savedAs fileName raw)
      = entries.foldlM (addDocumentRule lib.toDocumentLibraries fileName) [] >>= fun loaded =>
        .ok ⟨"0.0.0-dev", loaded.map Prod.snd, (savedAs fileName raw).hash, []⟩ := by
  have hfile : [(fileName, raw)].foldlM (addDocument lib.toDocumentLibraries) []
      = entries.foldlM (addDocumentRule lib.toDocumentLibraries fileName) [] := by
    rw [List.foldlM_cons, addDocument, letThrough_eq_ok.mpr h, ok_bind]
    exact bind_pure _
  change ([(fileName, raw)].foldlM (addDocument lib.toDocumentLibraries) [] >>= _) = _
  rw [hfile]
  rfl

/-- **The entries of a clean batch are those of its last proposal.** -/
theorem readEntries_eq (hyaml : LoadsBatch lib result) (hclean : IsClean result)
    (hsaved : decodeText raw = .ok (proposalsToYaml lib result).toList) :
    readEntries lib.toDocumentLibraries raw
      = .ok (result.usable.getLast?.toList.map fun p => .obj (ruleEntry lib p)) := by
  have hdocument := hyaml hclean
  rw [readEntries, hsaved, ok_bind, hdocument, ok_bind]
  obtain hnone | ⟨others, last, hsome⟩ := List.eq_nil_or_concat result.usable
  · rw [hnone, if_pos rfl]
    rfl
  · rw [List.concat_eq_append] at hsome
    have hne : others ++ [last] ≠ [] := List.concat_ne_nil last others
    have hlast : Dict.get? ((others ++ [last]).map fun p =>
        ("rules", Json.arr [.obj (ruleEntry lib p)])) "rules"
          = some (.arr [.obj (ruleEntry lib last)]) := by
      rw [List.map_append, List.map_singleton, Dict.get?_concat, if_pos rfl]
    have htruthy : (Json.obj ((others ++ [last]).map fun p =>
        ("rules", Json.arr [.obj (ruleEntry lib p)]))).truthy = true := by
      cases others <;> rfl
    have hrules : (Json.obj ((others ++ [last]).map fun p =>
        ("rules", Json.arr [.obj (ruleEntry lib p)]))).getD "rules" (.arr [])
          = .ok (.arr [.obj (ruleEntry lib last)]) := by
      rw [Json.getD, Json.get?_obj, hlast]
      rfl
    rw [hsome, if_neg hne, Json.truthy_orElse_left htruthy]
    dsimp only
    rw [hrules, List.getLast?_concat]
    rfl

/-- **A clean batch loads as its last proposal.** -/
theorem exists_pack (hbuilt : IsBuilt lib result) (hyaml : LoadsBatch lib result)
    (hclean : IsClean result)
    (hsaved : decodeText raw = .ok (proposalsToYaml lib result).toList) :
    ∃ pack, loadDocuments lib.toDocumentLibraries (savedAs fileName raw) = .ok pack ∧
      List.Forall₂ (IsRuleOf lib) result.usable.getLast?.toList pack.rules := by
  rw [loadDocuments_savedAs lib (readEntries_eq lib hyaml hclean hsaved)]
  rcases hlast : result.usable.getLast? with - | last
  · exact ⟨_, rfl, .nil⟩
  · have hmem : last ∈ result.usable := List.mem_of_getLast? hlast
    obtain ⟨hproposal, hvalid⟩ := List.mem_filter.mp hmem
    obtain ⟨said, hsaid⟩ := hbuilt last hproposal
    obtain ⟨severity, hseverity⟩ := exists_severity lib hsaid
    obtain ⟨regex, hcompile⟩ := exists_compile lib hsaid hvalid
    obtain ⟨rule, hrule, hof⟩ := exists_rule lib hseverity hcompile fileName
    have hadd : addDocumentRule lib.toDocumentLibraries fileName [] (.obj (ruleEntry lib last))
        = .ok [(fileName, rule)] := by
      have hhash : hashOf rule.id = .ok () := by
        rw [hof.id]
        rfl
      rw [addDocumentRule, hrule, ok_bind, letThrough_eq_ok.mpr hhash]
      rfl
    refine ⟨⟨"0.0.0-dev", [rule], (savedAs fileName raw).hash, []⟩, ?_, .cons hof .nil⟩
    change ([Json.obj (ruleEntry lib last)].foldlM _ [] >>= _) = _
    rw [List.foldlM_cons, hadd]
    rfl

end Batch

/-! ## Two proposals -/

/-- What the model says of a key of one product. -/
def saidOf (product : String) : Json :=
  .obj [("id", .str (product ++ "-key")), ("name", .str "Product key"),
    ("category", .str "secret"), ("severity", .str "high"), ("confidence", .float 1 "1.0"),
    ("regex", .str ("(" ++ product ++ "-[0-9]+)")), ("rationale", .str "Keys of the product.")]

/-- …and the proposal built from it. -/
def proposalOf (product : String) : RuleProposal where
  id := product ++ "-key"
  name := "Product key"
  category := "secret"
  severity := "high"
  confidence := .finite 1
  regex := "(" ++ product ++ "-[0-9]+)"
  rationale := "Keys of the product."
  exampleText := ""
  remediation := ""

/-- A batch of them. -/
def batchOf (products : List String) : DiscoveryResult where
  proposals := products.map proposalOf
  sampled := 40
  model := "local"

/-- The rule, as it is dumped. -/
def dumped : Json → String
  | .obj [(_, .arr [.obj ((_, .str id) :: _ :: _ :: _ :: _ :: _ :: _ :: (_, .arr [.obj
      ((_, .str regex) :: _)]) :: _)])] =>
    "rules:\n- id: " ++ id ++ "\n  name: Product key\n  category: secret\n  severity: high\n"
      ++ "  confidence: 1.0\n  description: Keys of the product.\n  remediation: ''\n"
      ++ "  patterns:\n  - regex: " ++ regex ++ "\n    capture: 1\n"
      ++ "  tags:\n  - ai-proposed\n  - needs-review\n  tests:\n    positive:\n    - ''\n"
      ++ "    negative: []\n"
  | _ => "null\n"

/-- A group around a literal, on texts that do not hold it. -/
def groupedLiteral : GroupedRegex where
  toRegex := Regex.literal "acme-1".toList
  groups := 1
  names := []

/-- The libraries, with what the document is read as. -/
def batchLibraries (document : Json) : DiscoveryLibraries where
  intOf _ := none
  floatOf _ := none
  yaml _ := .ok document
  compile _ := .ok groupedLiteral
  unicode := Unicode.ascii
  compilePlain _ := .ok groupedLiteral
  compile_of_plain _ regex h := ⟨groupedLiteral, rfl, by rw [← Except.ok.inj h]⟩
  nonFiniteText text := text
  round2 q := q
  repr _ := "1.0"
  safeDump := dumped

/-- The mapping that a batch is read as. -/
def documentOf (products : List String) : Json :=
  .obj (products.map fun product =>
    ("rules", .arr [.obj (ruleEntry (batchLibraries .null) (proposalOf product))]))

theorem batch_textField {document raw : Json} {key default text : String}
    (hfield : raw.getD key (.str default) = .ok (.str text))
    (hstrip : strip Unicode.ascii.space text.toList = text.toList) :
    textField (batchLibraries document) raw key default = .ok text :=
  textField_eq_ok _ hfield hstrip

theorem buildProposal_saidOf (document : Json) {product : String}
    (hproduct : product ∈ ["acme", "zeta"]) :
    buildProposal (batchLibraries document) (saidOf product) = .ok (proposalOf product) := by
  have htexts : ∀ product ∈ ["acme", "zeta"],
      strip Unicode.ascii.space (product ++ "-key").toList = (product ++ "-key").toList ∧
        orText (product ++ "-key") "unnamed-proposal" = product ++ "-key" ∧
        "(" ++ product ++ "-[0-9]+)" ≠ "" := by decide +kernel
  obtain ⟨hstrip, hnamed, hsome⟩ := htexts product hproduct
  have hid : textField (batchLibraries document) (saidOf product) "id" ""
      = .ok (product ++ "-key") := batch_textField rfl hstrip
  have hname : textField (batchLibraries document) (saidOf product) "name" ""
      = .ok "Product key" := batch_textField rfl (by decide +kernel)
  have hcategory : textField (batchLibraries document) (saidOf product) "category" "ip-exposure"
      = .ok "secret" := batch_textField rfl (by decide +kernel)
  have hseverity : textField (batchLibraries document) (saidOf product) "severity" "low"
      = .ok "high" := batch_textField rfl (by decide +kernel)
  have hrationale : textField (batchLibraries document) (saidOf product) "rationale" ""
      = .ok "Keys of the product." := batch_textField rfl (by decide +kernel)
  have hexample : textField (batchLibraries document) (saidOf product) "example" "" = .ok "" :=
    batch_textField rfl rfl
  have hremediation : textField (batchLibraries document) (saidOf product) "remediation" ""
      = .ok "" := batch_textField rfl rfl
  have hconfidence : confidenceOf (batchLibraries document) (saidOf product)
      = .ok (.finite 1) := rfl
  have hregex : (saidOf product).getD "regex" (.str "")
      = .ok (.str ("(" ++ product ++ "-[0-9]+)")) := rfl
  have hcheck : checkProposal (batchLibraries document) (proposalOf product)
      = .ok (proposalOf product) :=
    @checkProposal_eq_self _ _ groupedLiteral hsome rfl le_rfl (by decide +kernel)
      fun h => absurd rfl h
  rw [buildProposal, hid, ok_bind, hname, ok_bind, hcategory, ok_bind, hseverity, ok_bind,
    hconfidence, ok_bind, hregex, ok_bind]
  dsimp only
  rw [hrationale, ok_bind, hexample, ok_bind, hremediation, ok_bind, hnamed]
  exact hcheck

/-- The file that the batch is saved in. -/
def fileOf (products : List String) : Bytes :=
  Utf8.encode (proposalsToYaml (batchLibraries .null) (batchOf products)).toList

section Products

variable {products : List String} (hproducts : ∀ product ∈ products, product ∈ ["acme", "zeta"])

theorem usable_batchOf : (batchOf products).usable = products.map proposalOf :=
  List.filter_eq_self.mpr fun p hp => by
    obtain ⟨product, -, rfl⟩ := List.mem_map.mp hp
    rfl

theorem decodeText_fileOf :
    decodeText (fileOf products)
      = .ok (proposalsToYaml (batchLibraries (documentOf products)) (batchOf products)).toList := by
  rw [decodeText, fileOf, Utf8.decodeStrict_encode]
  rfl

theorem loadsBatch_batchOf (hsome : products ≠ []) :
    LoadsBatch (batchLibraries (documentOf products)) (batchOf products) := by
  intro _
  rw [usable_batchOf, if_neg (mt List.map_eq_nil_iff.mp hsome), List.map_map]
  rfl

include hproducts

theorem isBuilt_batchOf :
    IsBuilt (batchLibraries (documentOf products)) (batchOf products) := by
  intro p hp
  obtain ⟨product, hproduct, rfl⟩ := List.mem_map.mp hp
  exact ⟨_, buildProposal_saidOf _ (hproducts product hproduct)⟩

theorem isClean_batchOf : IsClean (batchOf products) := by
  have hids : ∀ product ∈ ["acme", "zeta"], StaysInComment (product ++ "-key") := by
    have hall : (["acme", "zeta"].all fun product => (product ++ "-key").toList.all fun c =>
        isYamlPrintable c && lineBreak? c == none) = true := by decide +kernel
    exact fun product hproduct => staysInComment_of_all (List.all_eq_true.mp hall product hproduct)
  have hrationale : StaysInComment "Keys of the product." := staysInComment_of_all (by decide +kernel)
  have hmodel : StaysInComment "local" := staysInComment_of_all (by decide +kernel)
  refine ⟨hmodel, fun p hp => ?_, fun p hp => ?_⟩
  all_goals
    rw [usable_batchOf] at hp
    obtain ⟨product, hproduct, rfl⟩ := List.mem_map.mp hp
  · exact hids product (hproducts product hproduct)
  · exact hrationale

end Products

end BareAnalysis.Discovery
