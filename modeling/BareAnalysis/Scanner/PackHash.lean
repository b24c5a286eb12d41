import BareAnalysis.Scanner.Lines
import BareAnalysis.Scanner.Loader

/-!
# Scanner/PackHash — what the hash of a rule pack leaves open

    d₁, d₂ ──hash──▸ the same text        corpus₁ ≠ corpus₂, or files cut elsewhere
    every string, in both encodings:      rules₁ less corpus₁  =  rules₂ less corpus₂

A file with one string in it says what two packs make of the string, so packs that scan alike find
alike in every string; and what they find in the strings of a file is all they find in it.
-/

namespace BareAnalysis

variable {interp : Interpreter}

/-! ## A file of one string -/

/-- A text, in an encoding. -/
def bytesIn (bytes : Bytes) : Encoding → Bytes
  | .ascii => bytes
  | .utf16le => bytes.flatMap fun b => [b, 0]

/-- A text that can be extracted whole. -/
structure IsExtractable (text : List Char) : Prop where
  printable : IsPrintableText text
  length : minStringLength ≤ text.length
  length_le : text.length ≤ maxStringLength

theorem ExtractedString.IsSound.isExtractable {s : ExtractedString} {stop : ℕ}
    (h : s.IsSound stop) : IsExtractable s.value :=
  ⟨h.isPrintableText, h.length, h.length_le⟩

/-- Printable text comes from printable bytes. -/
theorem exists_bytes_of_isPrintableText {text : List Char} (h : IsPrintableText text) :
    ∃ bytes : Bytes, text = bytes.map decodeAscii ∧ ∀ b ∈ bytes, isPrintableByte b = true := by
  have hall : ∀ n : Fin 128, ((32 ≤ n.val ∧ n.val < 127) ∨ n.val = 9) →
      decodeAscii (UInt8.ofNat n.val) = Char.ofNat n.val ∧
        isPrintableByte (UInt8.ofNat n.val) = true := by decide +kernel
  have hchar : ∀ c ∈ text, decodeAscii (UInt8.ofNat c.toNat) = c ∧
      isPrintableByte (UInt8.ofNat c.toNat) = true := fun c hc => by
    have hrange : (32 ≤ c.toNat ∧ c.toNat < 127) ∨ c.toNat = 9 :=
      (h c hc).imp_right fun htab => by rw [htab]; rfl
    have hbyte := hall ⟨c.toNat, by omega⟩ hrange
    rwa [Char.ofNat_toNat] at hbyte
  refine ⟨text.map fun c => UInt8.ofNat c.toNat, ?_, fun b hb => ?_⟩
  · rw [List.map_map]
    exact ((List.map_congr_left fun c hc => (hchar c hc).1).trans (List.map_id _)).symm
  · obtain ⟨c, hc, rfl⟩ := List.mem_map.mp hb
    exact (hchar c hc).2

theorem extractAsciiFrom_printable {bytes : Bytes} (hbytes : ∀ b ∈ bytes, isPrintableByte b = true)
    {index : ℕ} {run : Bytes} (hlen : run.length + bytes.length ≤ maxStringLength) :
    extractAsciiFrom bytes index run = reported .ascii (index + bytes.length) (run ++ bytes) := by
  induction bytes generalizing index run with
  | nil => rw [List.append_nil]; rfl
  | cons b rest ih =>
    rw [List.length_cons] at hlen ⊢
    rw [extractAsciiFrom, if_pos (hbytes b List.mem_cons_self), if_neg (by omega),
      ih (fun b hb => hbytes b (List.mem_cons_of_mem _ hb))
        (by rw [List.length_append, List.length_singleton]; omega),
      List.append_assoc, List.singleton_append, Nat.add_assoc, Nat.add_comm 1]

/-- Without a NUL there is no wide string. -/
theorem extractWideFrom_of_ne_zero {data : Bytes} (hdata : ∀ b ∈ data, b ≠ 0) (index : ℕ) :
    extractWideFrom data index [] = [] := by
  match data with
  | [] => rfl
  | [_] => rfl
  | low :: high :: rest =>
    have hhigh : ¬(high = 0 ∧ isPrintableByte low = true) := fun h =>
      hdata high (List.mem_cons_of_mem _ List.mem_cons_self) h.1
    rw [extractWideFrom, if_neg hhigh, extractWideFrom_of_ne_zero fun b hb =>
      hdata b (List.mem_cons_of_mem _ (List.mem_cons_of_mem _ hb))]
    rfl

/-- Between NULs there is no plain string… -/
theorem extractAsciiFrom_wide (bytes : Bytes) (index : ℕ) :
    extractAsciiFrom (bytesIn bytes .utf16le) index [] = [] := by
  have hzero : isPrintableByte 0 = false := by decide
  induction bytes generalizing index with
  | nil => rfl
  | cons b rest ih =>
    have hrest : ∀ run : Bytes, run.length < minStringLength → ∀ index,
        extractAsciiFrom (0 :: bytesIn rest .utf16le) index run = [] := fun run hrun index => by
      rw [extractAsciiFrom, if_neg (hzero ▸ Bool.false_ne_true), ih, reported,
        if_neg (not_le.mpr hrun)]
      rfl
    show extractAsciiFrom (b :: 0 :: bytesIn rest .utf16le) index [] = []
    rw [extractAsciiFrom]
    split
    · rw [if_neg (by decide)]
      exact hrest [b] (by rw [List.length_singleton, minStringLength]; omega) _
    · rw [hrest [] (by decide)]
      rfl

/-- …nor a wide one at the other alignment… -/
theorem extractWideFrom_odd (bytes : Bytes) (index : ℕ) :
    extractWideFrom (0 :: bytesIn bytes .utf16le) index [] = [] := by
  induction bytes generalizing index with
  | nil => rfl
  | cons b rest ih =>
    have hzero : ¬(b = 0 ∧ isPrintableByte 0 = true) := fun h => absurd h.2 (by decide)
    show extractWideFrom (0 :: b :: 0 :: bytesIn rest .utf16le) index [] = []
    rw [extractWideFrom, if_neg hzero, ih]
    rfl

/-- …but at this one. -/
theorem extractWideFrom_wide {bytes : Bytes} (hbytes : ∀ b ∈ bytes, isPrintableByte b = true)
    {index : ℕ} {run : Bytes} (hrun : run.length < maxStringLength)
    (hlen : run.length + bytes.length ≤ maxStringLength) :
    extractWideFrom (bytesIn bytes .utf16le) index run
      = reported .utf16le (index + 2 * bytes.length) (run ++ bytes) := by
  induction bytes generalizing index run with
  | nil => rw [List.append_nil]; rfl
  | cons b rest ih =>
    have hb : (0 : UInt8) = 0 ∧ isPrintableByte b = true := ⟨rfl, hbytes b List.mem_cons_self⟩
    have hrest : ∀ b ∈ rest, isPrintableByte b = true := fun b hb =>
      hbytes b (List.mem_cons_of_mem _ hb)
    have happend : (run ++ [b]).length = run.length + 1 := by
      rw [List.length_append, List.length_singleton]
    rw [List.length_cons] at hlen ⊢
    show extractWideFrom (b :: 0 :: bytesIn rest .utf16le) index run = _
    rw [extractWideFrom, if_pos hb, happend]
    split
    · -- The string is as long as strings get, so nothing follows.
      obtain rfl : rest = [] := List.length_eq_zero_iff.mp (by omega)
      rw [reported, if_pos (by rw [happend]; exact minStringLength_le_max.trans ‹_›)]
      rfl
    · rw [ih hrest (by rw [happend]; omega) (by rw [happend]; omega), List.append_assoc,
        List.singleton_append, show index + 2 + 2 * rest.length = index + 2 * (rest.length + 1) by
          omega]

/-- **A file that holds one string.** -/
theorem exists_file {text : List Char} (h : IsExtractable text) (encoding : Encoding) :
    ∃ data, extractStrings data = [⟨text, 0, encoding⟩] := by
  obtain ⟨bytes, rfl, hbytes⟩ := exists_bytes_of_isPrintableText h.printable
  have hmin : minStringLength ≤ bytes.length := by simpa using h.length
  have hmax : bytes.length ≤ maxStringLength := by simpa using h.length_le
  have hne : ∀ b ∈ bytes, b ≠ 0 := fun b hb hzero => by
    have := hbytes b hb
    rw [hzero] at this
    exact absurd this (by decide)
  have hstring : ∀ encoding : Encoding, reported encoding (0 + encoding.width * bytes.length) bytes
      = [⟨bytes.map decodeAscii, 0, encoding⟩] := fun encoding => by
    rw [reported, if_pos hmin, extracted, Nat.zero_add, Nat.sub_self]
  refine ⟨bytesIn bytes encoding, ?_⟩
  have hparts : extractAscii (bytesIn bytes encoding) ++ extractUtf16le (bytesIn bytes encoding)
      = [⟨bytes.map decodeAscii, 0, encoding⟩] := by
    cases encoding with
    | ascii =>
      have hplain := hstring .ascii
      rw [Encoding.width, Nat.one_mul] at hplain
      rw [bytesIn, extractAscii, extractAsciiFrom_printable hbytes (by simpa using hmax),
        List.nil_append, hplain, extractUtf16le, extractWideFrom_of_ne_zero hne,
        extractWideFrom_of_ne_zero fun b hb => hne b (List.mem_of_mem_drop hb)]
      rfl
    | utf16le =>
      have hodd : extractWideFrom ((bytesIn bytes .utf16le).drop 1) 1 [] = [] := by
        obtain - | ⟨b, rest⟩ := bytes
        · rfl
        · exact extractWideFrom_odd rest 1
      rw [extractAscii, extractAsciiFrom_wide, extractUtf16le, hodd,
        extractWideFrom_wide hbytes (by decide) (by simpa using hmax), List.nil_append,
        List.append_nil, List.nil_append]
      exact hstring .utf16le
  rw [extractStrings, hparts]
  rfl

/-! ## What two packs find -/

section Packs

variable {pack pack' : ScanPack} {data : Bytes}

/-- **The hits of a file are all a scan says.** -/
theorem scanBytes_eq_iff :
    scanBytes interp pack data = scanBytes interp pack' data ↔
      scanHits interp pack data = scanHits interp pack' data := by
  constructor
  · intro h
    rw [scanHits, scanHits, h]
  · intro h
    have hread : ∀ pack, (scanBytes interp pack data).map (fun m => m.hit.toMatch interp data)
        = scanBytes interp pack data := fun pack => by
      refine (List.map_congr_left fun m hm => ?_).trans (List.map_id _)
      obtain ⟨s, -, hit, -, rfl⟩ := mem_scanBytes.mp hm
      rfl
    have hperm : (scanBytes interp pack data).Perm (scanBytes interp pack' data) := by
      have hmatches := (Multiset.coe_eq_coe.mp h).map fun hit => hit.toMatch interp data
      rw [List.map_map, List.map_map] at hmatches
      rw [← hread pack, ← hread pack']
      exact hmatches
    refine eq_of_perm_of_pairwise_key hperm (fun a ha b hb hkey => ?_) (pairwise_sortBy _ _)
      (pairwise_sortBy _ _)
    obtain ⟨-, -, ⟨rule, value, offset, encoding⟩, -, rfl⟩ := mem_scanBytes.mp ha
    obtain ⟨-, -, ⟨rule', value', offset', encoding'⟩, -, rfl⟩ := mem_scanBytes.mp hb
    simp only [ScanMatch.sortKey, RuleHit.toMatch, EmbeddingLike.apply_eq_iff_eq, Prod.mk.injEq,
      String.ofList_inj] at hkey
    obtain ⟨rfl, rfl, hencoding, rfl⟩ := hkey
    obtain rfl : encoding = encoding' := by
      cases encoding <;> cases encoding' <;> first | rfl | exact absurd hencoding (by decide)
    rfl

/-- **Packs that scan alike find alike in every string**, and the other way round. -/
theorem forall_scanBytes_eq_iff :
    (∀ data, scanBytes interp pack data = scanBytes interp pack' data) ↔
      ∀ text, IsExtractable text → ∀ encoding,
        (↑(stringHits interp pack ⟨text, 0, encoding⟩) : Multiset RuleHit)
          = ↑(stringHits interp pack' ⟨text, 0, encoding⟩) := by
  constructor
  · intro h text htext encoding
    obtain ⟨data, hdata⟩ := exists_file htext encoding
    have hscan := scanBytes_eq_iff.mp (h data)
    rw [scanHits_eq_bind, scanHits_eq_bind, hdata] at hscan
    simpa only [Multiset.coe_singleton, Multiset.singleton_bind] using hscan
  · intro h data
    rw [scanBytes_eq_iff, scanHits_eq_bind, scanHits_eq_bind]
    refine Multiset.bind_congr fun s hs => ?_
    have hsound := isSound_of_mem_extractStrings (Multiset.mem_coe.mp hs)
    have hshift : s = (⟨s.value, 0, s.encoding⟩ : ExtractedString).shift s.offset := by
      rw [ExtractedString.shift, Nat.zero_add]
    rw [hshift, stringHits_shift, stringHits_shift, ← Multiset.map_coe, ← Multiset.map_coe,
      h s.value hsound.isExtractable s.encoding]

end Packs

/-! ## The corpus -/

/-- What the rules of a pack accept in a string, benign or not. -/
def acceptedHits (interp : Interpreter) (pack : ScanPack) (s : ExtractedString) : List RuleHit :=
  stringHits interp { pack with falsePositives := [] } s

/-- **The corpus takes away the hits with a value it lists.** -/
theorem stringHits_eq_filter (pack : ScanPack) (s : ExtractedString) :
    stringHits interp pack s = (acceptedHits interp pack s).filter fun hit =>
      !pack.isKnownFalsePositive interp.toUnicode hit.value := by
  have hreported : ∀ rule text value hit, isReported interp pack rule text value hit
      = (isReported interp { pack with falsePositives := [] } rule text value hit
        && !pack.isKnownFalsePositive interp.toUnicode value) := fun rule text value hit => by
    have hnone : ({ pack with falsePositives := [] } : ScanPack).isKnownFalsePositive
        interp.toUnicode value = false := rfl
    rw [isReported, isReported, hnone, Bool.not_false, Bool.and_true]
    ac_rfl
  have hvalues : ∀ rule text, ruleValues interp pack rule text
      = (ruleValues interp { pack with falsePositives := [] } rule text).filter fun found =>
        !pack.isKnownFalsePositive interp.toUnicode found.1 := fun rule text => by
    rw [ruleValues, ruleValues, List.filter_flatMap]
    refine List.flatMap_congr fun pattern _ => ?_
    rw [List.filter_filterMap]
    refine List.filterMap_congr fun hit _ => ?_
    obtain - | value := hit.extract text
    · rfl
    · show (if isReported interp pack rule text value hit = true then _ else _) = _
      rw [hreported]
      dsimp only
      cases isReported interp { pack with falsePositives := [] } rule text value hit <;>
        cases hknown : pack.isKnownFalsePositive interp.toUnicode value <;>
          simp [Option.filter, hknown]
  rw [acceptedHits, stringHits, stringHits, List.filter_flatMap]
  refine List.flatMap_congr fun rule _ => ?_
  split
  · rw [ruleHits, ruleHits, hvalues, List.filter_map]
    rfl
  · rfl

/-- What a pack reports in a string, of what its rules accept. -/
def reportedHits (interp : Interpreter) (pack : ScanPack) (s : ExtractedString) : List RuleHit :=
  (acceptedHits interp pack s).filter fun hit =>
    !pack.isKnownFalsePositive interp.toUnicode hit.value

section Directories

variable {lib : RuleLibraries} {d d' : RuleDirectory} {pack pack' : ScanPack}

/-- A directory with another corpus loads to the same pack with that corpus. -/
theorem loadScanPack_corpus {corpus : Option Bytes} {values : List (List Char)}
    (h : loadScanPack lib d = .ok pack)
    (hcorpus : loadFalsePositives lib { d with falsePositives := corpus } = .ok values) :
    loadScanPack lib { d with falsePositives := corpus }
      = .ok { pack with falsePositives := values } := by
  rw [loadScanPack] at h
  split at h
  · cases h
  rename_i hfiles
  obtain ⟨loaded, hloaded, hrest⟩ := bind_eq_ok.mp h
  obtain ⟨version, hversion, hpack⟩ := bind_eq_ok.mp hrest
  obtain ⟨old, -, hpack⟩ := bind_eq_ok.mp hpack
  obtain rfl := Except.ok.inj hpack
  rw [loadScanPack, if_neg hfiles]
  exact bind_eq_ok.mpr ⟨loaded, hloaded, bind_eq_ok.mpr ⟨version, hversion,
    bind_eq_ok.mpr ⟨values, hcorpus, rfl⟩⟩⟩

theorem infix_strip (space : Char → Bool) (value : List Char) : strip space value <:+: value := by
  have hend := List.reverse_prefix.mpr
    (@List.dropWhile_suffix _ (value.dropWhile space).reverse space)
  rw [List.reverse_reverse] at hend
  exact hend.isInfix.trans (List.dropWhile_suffix space).isInfix

/-- **Where the rules of a directory accept a value, another corpus gives other results** under the
same version and hash, if YAML can list any value. -/
theorem exists_twin (h : loadScanPack lib d = .ok pack)
    (hlists : ∀ value, IsPrintableText value → ∃ raw, readCorpus lib raw = .ok [value])
    {text : List Char} (htext : IsExtractable text) {encoding : Encoding} {hit : RuleHit}
    (hhit : hit ∈ acceptedHits interp pack ⟨text, 0, encoding⟩) :
    ∃ d' pack', loadScanPack lib d' = .ok pack' ∧ pack'.version = pack.version ∧
      pack'.hash = pack.hash ∧
      ∃ data, scanBytes interp pack' data ≠ scanBytes interp pack data := by
  have hdiffers : ∀ values : List (List Char),
      ({ pack with falsePositives := values } : ScanPack).isKnownFalsePositive interp.toUnicode
        hit.value ≠ pack.isKnownFalsePositive interp.toUnicode hit.value →
      ∃ data, scanBytes interp { pack with falsePositives := values } data
        ≠ scanBytes interp pack data := fun values hknown => by
    by_contra hall
    have hsame := forall_scanBytes_eq_iff.mp (not_exists_not.mp hall) text htext encoding
    rw [stringHits_eq_filter, stringHits_eq_filter pack, Multiset.coe_eq_coe] at hsame
    have hmem := hsame.mem_iff (a := hit)
    rw [List.mem_filter, List.mem_filter, and_iff_right hhit,
      and_iff_right (show hit ∈ acceptedHits interp { pack with falsePositives := values } _ from
        hhit), ← Bool.eq_iff_iff, Bool.not_inj_iff] at hmem
    exact hknown hmem
  cases hknown : pack.isKnownFalsePositive interp.toUnicode hit.value with
  | true =>
    refine ⟨{ d with falsePositives := none }, _, loadScanPack_corpus h rfl, rfl, rfl,
      hdiffers [] ?_⟩
    rw [hknown]
    exact Bool.false_ne_true
  | false =>
    have hprintable : IsPrintableText hit.value :=
      htext.printable.of_infix (mem_stringHits hhit).2
    obtain ⟨raw, hraw⟩ := hlists _ (hprintable.of_infix (infix_strip interp.space hit.value))
    refine ⟨{ d with falsePositives := some raw }, _, loadScanPack_corpus h hraw, rfl, rfl,
      hdiffers [strip interp.space hit.value] ?_⟩
    rw [hknown]
    simp [ScanPack.isKnownFalsePositive]

end Directories

/-! ## A corpus that changes -/

/-- A match of a literal, which has the group zero only. -/
def literalMatch (text : List Char) (i : ℕ) : RegexMatch :=
  ⟨i, i + text.length, fun capture =>
    if capture.equals (.int 0) then some (i, i + text.length) else none⟩

theorem literalMatch_inside (text haystack : List Char) :
    ∀ m ∈ (occurrencesFrom text 0 0 haystack).map (literalMatch text),
      m.start ≤ m.stop ∧ m.stop ≤ haystack.length ∧
        ∀ capture, ∀ group ∈ m.group capture, group.1 ≤ group.2 ∧ group.2 ≤ haystack.length := by
  intro m hm
  obtain ⟨i, hi, rfl⟩ := List.mem_map.mp hm
  have := le_of_mem_occurrencesFrom hi
  have hstop : i + text.length ≤ haystack.length := by omega
  refine ⟨Nat.le_add_right _ _, hstop, fun capture group hgroup => ?_⟩
  dsimp only [literalMatch] at hgroup
  split at hgroup
  · obtain rfl := Option.mem_some_iff.mp hgroup
    exact ⟨Nat.le_add_right _ _, hstop⟩
  · cases hgroup

/-- An expression without operators, as a compiled one. -/
def Regex.literal (text : List Char) : Regex where
  finditer haystack := (occurrencesFrom text 0 0 haystack).map (literalMatch text)
  search value := decide (text <:+: value)
  inside := literalMatch_inside text

/-- A rule file. -/
def sampleRules : String :=
  "rules:\n- id: literal\n  name: literal\n  category: secret\n  severity: high\n" ++
    "  patterns: [hunter2-secret]\n  shape_policy: \"off\"\n"

/-- …and a corpus. -/
def sampleCorpus : String := "known_benign:\n  sample: [hunter2-secret]\n"

/-- The libraries, on these two documents. -/
def sampleLibraries : RuleLibraries where
  yaml text :=
    if text = sampleRules.toList then
      .ok (.obj [("rules", .arr [.obj [("id", .str "literal"), ("name", .str "literal"),
        ("category", .str "secret"), ("severity", .str "high"),
        ("patterns", .arr [.str "hunter2-secret"]), ("shape_policy", .str "off")]])])
    else if text = sampleCorpus.toList then
      .ok (.obj [("known_benign", .obj [("sample", .arr [.str "hunter2-secret"])])])
    else .error (.external "another document")
  compile expression :=
    if expression.toList.all fun c => c.isAlphanum || c == '-' then
      .ok (.literal expression.toList)
    else .error (.external "another expression")
  floatOf _ := none
  unicode := Unicode.ascii

/-- A directory without a corpus, and with one. -/
def sampleDirectory (corpus : Option String) : RuleDirectory where
  ruleFiles := [("secrets.yaml", ascii sampleRules)]
  falsePositives := corpus.map ascii

/-- Packs that load, and what is asked of them. -/
def bothLoad (lib : RuleLibraries) (d d' : RuleDirectory) (p : ScanPack → ScanPack → Bool) : Bool :=
  match loadScanPack lib d, loadScanPack lib d' with
  | .ok pack, .ok pack' => p pack pack'
  | _, _ => false

theorem exists_of_bothLoad {lib : RuleLibraries} {d d' : RuleDirectory}
    {p : ScanPack → ScanPack → Bool} (h : bothLoad lib d d' p = true) :
    ∃ pack pack', loadScanPack lib d = .ok pack ∧ loadScanPack lib d' = .ok pack' ∧
      p pack pack' = true := by
  rw [bothLoad] at h
  split at h
  · exact ⟨_, _, ‹_›, ‹_›, h⟩
  · cases h

end BareAnalysis
