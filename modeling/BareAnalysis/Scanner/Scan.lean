import BareAnalysis.Machinery.Replace
import BareAnalysis.Scanner.Model

/-!
# Scanner/Scan — the matches of a rule pack in a file

    data ──extract──▸ strings ──rules × patterns──▸ hits ──gates──▸ values ──▸ matches
                                                                    └──▸ masked context

The rest of `core/rules/scanner.py`.  What a rule finds in a string depends on the string alone; the
file is read again only for the context.
-/

namespace BareAnalysis

/-- `CONTEXT_BYTES`. -/
def contextBytes : ℕ := 60

/-- The glyph that hides a character. -/
def bullet : Char := '•'

/-- What `mask` keeps at the front; short values are masked whole. -/
def keptPrefix (value : List Char) : List Char := if value.length ≤ 12 then [] else value.take 4

/-- …and at the end. -/
def keptSuffix (value : List Char) : List Char :=
  if value.length ≤ 12 then [] else value.drop (value.length - 4)

/-- How many glyphs stand for the rest. -/
def hiddenCount (value : List Char) : ℕ :=
  if value.length ≤ 12 then value.length else min (value.length - 8) 12

/-- `mask`. -/
def mask (value : List Char) : List Char :=
  keptPrefix value ++ List.replicate (hiddenCount value) bullet ++ keptSuffix value

/-- One rule hit. -/
structure ScanMatch where
  ruleId : String
  value : List Char
  offset : ℕ
  encoding : Encoding
  entropy : ℚ
  context : List Char
  contextPlaintext : List Char
  deriving DecidableEq

/-- `_raw_context_for`: bytes around the hit, printable, with nothing masked. -/
def rawContextFor (data : Bytes) (offset : ℕ) (value : List Char) : List Char :=
  let window := (data.take (offset + value.length * 2 + contextBytes)).drop (offset - contextBytes)
  (window.map decodeAscii).map fun c =>
    if (32 ≤ c.toNat ∧ c.toNat < 127) ∨ c = '\uFFFD' then c else '.'

/-- `_context_for`: the same with the value masked. -/
def contextFor (data : Bytes) (offset : ℕ) (value : List Char) : List Char :=
  replace value (mask value) (rawContextFor data offset value)

section Apply

variable (interp : Interpreter)

/-- What a rule reports, less the file around it. -/
structure RuleHit where
  ruleId : String
  value : List Char
  offset : ℕ
  encoding : Encoding
  deriving DecidableEq

/-- The policy a rule names. -/
def ScanRule.policy (rule : ScanRule) : ShapePolicy :=
  if rule.shapePolicy = "strict" then .strict else .context

/-- The gates after a match: acceptance, the corpus, proximity and shape. -/
def isReported (pack : ScanPack) (rule : ScanRule) (text value : List Char) (hit : RegexHit) :
    Bool :=
  value ≠ [] && rule.accepts interp value
    && !pack.isKnownFalsePositive interp.toUnicode value
    && (rule.requiresNearby.isEmpty
      || hasNearby interp.toUnicode text hit.start rule.requiresNearby rule.nearbyWindow)
    && (rule.shapePolicy == "off"
      || !(classify interp.toUnicode value text hit.start hit.stop rule.policy
        rule.requireMixedCase).isDisqualifying)

/-- The values of one rule in one text, with the places of their matches. -/
def ruleValues (pack : ScanPack) (rule : ScanRule) (text : List Char) : List (List Char × ℕ) :=
  rule.patterns.flatMap fun pattern => (pattern.hits text).filterMap fun hit =>
    match hit.extract text with
    | some value =>
      if isReported interp pack rule text value hit then some (value, hit.start) else none
    | none => none

/-- The hits of one rule in one string: `_apply_rule` without the context. -/
def ruleHits (pack : ScanPack) (rule : ScanRule) (s : ExtractedString) : List RuleHit :=
  (ruleValues interp pack rule s.value).map fun found =>
    ⟨rule.id, found.1, s.offset + found.2 * s.encoding.width, s.encoding⟩

/-- A hit, with what the file around it says. -/
def RuleHit.toMatch (data : Bytes) (hit : RuleHit) : ScanMatch where
  ruleId := hit.ruleId
  value := hit.value
  offset := hit.offset
  encoding := hit.encoding
  entropy := interp.round3 (interp.shannonEntropy hit.value)
  context := contextFor data hit.offset hit.value
  contextPlaintext := rawContextFor data hit.offset hit.value

/-- `_apply_rule`. -/
def applyRule (pack : ScanPack) (rule : ScanRule) (s : ExtractedString) (data : Bytes) :
    List ScanMatch :=
  (ruleHits interp pack rule s).map (·.toMatch interp data)

/-- How matches are ordered. -/
def ScanMatch.sortKey (m : ScanMatch) : String ×ₗ ℕ ×ₗ String ×ₗ String :=
  toLex (m.ruleId, toLex (m.offset, toLex (m.encoding.text, String.ofList m.value)))

/-- `scan_bytes`. -/
def scanBytes (pack : ScanPack) (data : Bytes) : List ScanMatch :=
  let strings := extractStrings data
  sortBy ScanMatch.sortKey (pack.enabledRules.flatMap fun rule => strings.flatMap fun s =>
    if rule.encodings.contains s.encoding.text then applyRule interp pack rule s data else [])

end Apply

/-! ## Where matches come from -/

section Read

variable {interp : Interpreter} {pack : ScanPack} {data : Bytes}

/-- What the rules of a pack report for one string. -/
def stringHits (interp : Interpreter) (pack : ScanPack) (s : ExtractedString) : List RuleHit :=
  pack.enabledRules.flatMap fun rule =>
    if rule.encodings.contains s.encoding.text then ruleHits interp pack rule s else []

/-- **Every match is a hit in an extracted string.** -/
theorem mem_scanBytes {m : ScanMatch} :
    m ∈ scanBytes interp pack data ↔
      ∃ s ∈ extractStrings data, ∃ hit ∈ stringHits interp pack s, hit.toMatch interp data = m := by
  simp only [scanBytes, mem_sortBy, List.mem_flatMap, stringHits, applyRule]
  constructor
  · rintro ⟨rule, hrule, s, hs, hm⟩
    split at hm
    · rename_i hencoding
      obtain ⟨hit, hhit, rfl⟩ := List.mem_map.mp hm
      exact ⟨s, hs, hit, ⟨rule, hrule, by rwa [if_pos hencoding]⟩, rfl⟩
    · cases hm
  · rintro ⟨s, hs, hit, ⟨rule, hrule, hhit⟩, rfl⟩
    refine ⟨rule, hrule, s, hs, ?_⟩
    split at hhit
    · rename_i hencoding
      rw [if_pos hencoding]
      exact List.mem_map_of_mem hhit
    · cases hhit

/-- **A value is a nonempty part of the text it was found in.** -/
theorem of_mem_ruleValues {rule : ScanRule} {text : List Char} {found : List Char × ℕ}
    (h : found ∈ ruleValues interp pack rule text) :
    found.1 ≠ [] ∧ found.1 <:+: text ∧ found.2 ≤ text.length := by
  obtain ⟨pattern, -, h⟩ := List.mem_flatMap.mp h
  obtain ⟨hit, hhit, h⟩ := List.mem_filterMap.mp h
  split at h
  case h_2 => cases h
  case h_1 value hvalue =>
    split at h
    case isFalse => cases h
    case isTrue hreported =>
      obtain rfl := Option.some.inj h
      obtain ⟨hstart, hstop, -⟩ := pattern.inside text hit hhit
      obtain ⟨group, -, rfl⟩ := Option.map_eq_some_iff.mp hvalue
      refine ⟨?_, ?_, hstart.trans hstop⟩
      · simp only [isReported, Bool.and_eq_true, decide_eq_true_eq] at hreported
        exact hreported.1.1.1.1
      · exact ((List.drop_suffix _ _).isInfix).trans (List.take_prefix _ _).isInfix

/-- Text as it can be extracted. -/
def IsPrintableText (text : List Char) : Prop :=
  ∀ c ∈ text, (32 ≤ c.toNat ∧ c.toNat < 127) ∨ c = '\t'

/-- Printable bytes read as printable text. -/
theorem isPrintableText_map {bytes : Bytes} (h : ∀ b ∈ bytes, isPrintableByte b) :
    IsPrintableText (bytes.map decodeAscii) := by
  intro c hc
  obtain ⟨b, hb, rfl⟩ := List.mem_map.mp hc
  have hall : ∀ n : Fin 256, isPrintableByte (UInt8.ofFin n) →
      (32 ≤ (decodeAscii (UInt8.ofFin n)).toNat ∧ (decodeAscii (UInt8.ofFin n)).toNat < 127) ∨
        decodeAscii (UInt8.ofFin n) = '\t' := by
    decide +kernel
  exact hall b.toFin (h b hb)

theorem IsPrintableText.of_infix {text value : List Char} (h : IsPrintableText text)
    (hvalue : value <:+: text) : IsPrintableText value := fun c hc => h c (hvalue.subset hc)

theorem ExtractedString.IsSound.isPrintableText {s : ExtractedString} {stop : ℕ}
    (h : s.IsSound stop) : IsPrintableText s.value := by
  obtain ⟨bytes, hbytes, hprintable⟩ := h.printable
  rw [hbytes]
  exact isPrintableText_map hprintable

theorem mem_stringHits {s : ExtractedString} {hit : RuleHit} (h : hit ∈ stringHits interp pack s) :
    hit.value ≠ [] ∧ hit.value <:+: s.value := by
  obtain ⟨rule, -, h⟩ := List.mem_flatMap.mp h
  split at h
  · obtain ⟨found, hfound, rfl⟩ := List.mem_map.mp h
    obtain ⟨hne, hwithin, -⟩ := of_mem_ruleValues hfound
    exact ⟨hne, hwithin⟩
  · cases h

/-- **A matched value is printable and not empty.** -/
theorem value_of_mem_scanBytes {m : ScanMatch} (h : m ∈ scanBytes interp pack data) :
    m.value ≠ [] ∧ IsPrintableText m.value := by
  obtain ⟨s, hs, hit, hhit, rfl⟩ := mem_scanBytes.mp h
  obtain ⟨hne, hwithin⟩ := mem_stringHits hhit
  exact ⟨hne, (isSound_of_mem_extractStrings hs).isPrintableText.of_infix hwithin⟩

/-- …and its context is that of its offset. -/
theorem context_of_mem_scanBytes {m : ScanMatch} (h : m ∈ scanBytes interp pack data) :
    m.context = contextFor data m.offset m.value := by
  obtain ⟨s, hs, hit, hhit, rfl⟩ := mem_scanBytes.mp h
  rfl

end Read

end BareAnalysis
