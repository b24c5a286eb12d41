import BareAnalysis.Machinery.Checks
import BareAnalysis.Scanner.Documents
import BareAnalysis.Scanner.PackHash

/-!
# Scanner/AsWritten — a pack that loads is the pack that was written

    entries, in the order of reading:   reads ⋯ reads │ reported       RuleLoadError
                                        reads ⋯ reads │ anything else  some other error
                                        reads ⋯ reads                  a pack

The loader converts every field on its own and checks none of the values, so a rule may load with
the letters of `ascii` for encodings, and never match.  `loadsHonestly_iff` says of a directory,
field by field, when loading keeps what the claim of a fatal `RuleLoadError` promises.
-/

namespace BareAnalysis

/-! ## Errors that are reported -/

section Reports

variable {α β σ : Type}

/-- The computation ends in a `RuleLoadError`. -/
def Reports (x : Except LoadError α) : Prop := ∃ message, x = .error (.ruleLoadError message)

theorem reports_bind {x : Except LoadError α} {f : α → Except LoadError β} :
    Reports (x >>= f) ↔ Reports x ∨ ∃ a, x = .ok a ∧ Reports (f a) := by
  constructor
  · rintro ⟨message, h⟩
    obtain h | ⟨a, ha, h⟩ := bind_eq_error.mp h
    · exact Or.inl ⟨message, h⟩
    · exact Or.inr ⟨a, ha, message, h⟩
  · rintro (⟨message, h⟩ | ⟨a, ha, message, h⟩)
    · exact ⟨message, bind_eq_error.mpr (Or.inl h)⟩
    · exact ⟨message, bind_eq_error.mpr (Or.inr ⟨a, ha, h⟩)⟩

theorem not_reports_ok (a : α) : ¬Reports (.ok a : Except LoadError α) := fun ⟨_, h⟩ => nomatch h

theorem not_isOk_of_reports {x : Except LoadError α} (h : Reports x) : ¬x.isOk = true := by
  obtain ⟨message, rfl⟩ := h
  exact Bool.false_ne_true

/-- What goes through is not reported. -/
theorem not_reports_letThrough (x : Except PyError α) : ¬Reports (letThrough x) := by
  rintro ⟨message, h⟩
  obtain ⟨e, -, he⟩ := mapError_eq_error.mp h
  cases he

theorem letThrough_eq_ok {x : Except PyError α} {a : α} : letThrough x = .ok a ↔ x = .ok a :=
  mapError_eq_ok

/-- After a step that lets errors through only the rest reports. -/
theorem reports_letThrough_bind {x : Except PyError α} {f : α → Except LoadError β} :
    Reports (letThrough x >>= f) ↔ ∃ a, x = .ok a ∧ Reports (f a) := by
  rw [reports_bind, or_iff_right (not_reports_letThrough x)]
  exact exists_congr fun a => and_congr_left' letThrough_eq_ok

theorem reports_mapM {f : α → Except LoadError β} {l : List α} :
    Reports (l.mapM f) ↔ FirstReported (fun a => (f a).isOk = true) (fun a => Reports (f a)) l := by
  constructor
  · rintro ⟨message, h⟩
    obtain ⟨before, a, after, hl, hbefore, ha⟩ := mapM_eq_error.mp h
    exact ⟨before, a, after, hl, hbefore, message, ha⟩
  · rintro ⟨before, a, after, hl, hbefore, message, ha⟩
    exact ⟨message, mapM_eq_error.mpr ⟨before, a, after, hl, hbefore, ha⟩⟩

end Reports

/-! ## What an entry says -/

section Entry

variable (lib : DocumentLibraries) (fields : List (String × Json))

/-- A field that may be missing. -/
def IfGiven (key : String) (p : Json → Prop) : Prop := ∀ v ∈ Dict.get? fields key, p v

/-- The fields a rule must have, with a severity that there is. -/
structure HeadReads : Prop where
  id : (Dict.get? fields "id").isSome = true
  name : (Dict.get? fields "name").isSome = true
  category : (Dict.get? fields "category").isSome = true
  severity : ∃ v ∈ Dict.get? fields "severity", ∃ s : Severity, v.isText s.value = true
  patterns : (Dict.get? fields "patterns").isSome = true

/-- A pattern with an expression that compiles… -/
def PatternReads (raw : Json) : Prop :=
  ∃ expression capture regex, readPattern raw = .ok (.str expression, capture) ∧
    lib.compile expression = .ok regex

/-- …and one whose expression `re` refuses. -/
def PatternRefused (raw : Json) : Prop :=
  ∃ expression capture message, readPattern raw = .ok (.str expression, capture) ∧
    lib.compile expression = .error (.invalid message)

/-- A value whose text compiles… -/
def RejectReads (raw : Json) : Prop :=
  ∃ regex, lib.compile (raw.text lib.unicode.printable) = .ok regex

/-- …and one whose text `re` refuses. -/
def RejectRefused (raw : Json) : Prop :=
  ∃ message, lib.compile (raw.text lib.unicode.printable) = .error (.invalid message)

/-- What `rejects_matching` lists. -/
def RejectsListed (items : List Json) : Prop :=
  (((Dict.get? fields "rejects_matching").getD (.arr [])).orElse (.arr [])).iter = .ok items

/-- The fixtures: a mapping, if it is anything, of two values to iterate. -/
def TestsRead : Prop :=
  ∃ tests, ((Dict.get? fields "tests").getD (.obj [])).orElse (.obj []) = .obj tests ∧
    IfGiven tests "positive" (fun v => v.iter.isOk = true) ∧
    IfGiven tests "negative" (fun v => v.iter.isOk = true)

/-- Every other field converts. -/
structure DetailsRead : Prop where
  confidence : IfGiven fields "confidence" fun v => (v.toFloat lib.toNumerals).isOk = true
  description : IfGiven fields "description" fun v => ∃ text, v = .str text
  remediation : IfGiven fields "remediation" fun v => ∃ text, v = .str text
  tags : IfGiven fields "tags" fun v => v.iter.isOk = true
  minEntropy : IfGiven fields "min_entropy" fun v => (v.toFloat lib.toNumerals).isOk = true
  minLength : IfGiven fields "min_length" fun v => (v.toInt lib.toNumerals).isOk = true
  maxLength : IfGiven fields "max_length" fun v => (v.toInt lib.toNumerals).isOk = true
  encodings : IfGiven fields "encodings" fun v => v.iter.isOk = true
  requiresNearby : IfGiven fields "requires_nearby" fun v => v.iter.isOk = true
  nearbyWindow : IfGiven fields "nearby_window" fun v => (v.toInt lib.toNumerals).isOk = true
  tests : TestsRead fields

/-- The entry can be read to its end. -/
structure EntryReads : Prop where
  head : HeadReads fields
  patterns : IfGiven fields "patterns" fun v =>
    ∃ items, v.iter = .ok items ∧ ∀ raw ∈ items, PatternReads lib raw
  rejects : ∃ items, RejectsListed fields items ∧ ∀ raw ∈ items, RejectReads lib raw
  details : DetailsRead lib fields

/-- The entry cannot be read, for a reason the loader reports: -/
inductive EntryReported : Prop
  /-- it lacks a field, or its severity is none… -/
  | head (h : ¬HeadReads fields)
  /-- …or an expression of its patterns is refused… -/
  | pattern (h : HeadReads fields) (v : Json) (hv : v ∈ Dict.get? fields "patterns")
      (items : List Json) (hitems : v.iter = .ok items)
      (hfirst : FirstReported (PatternReads lib) (PatternRefused lib) items)
  /-- …or one of its `rejects_matching`. -/
  | reject (h : HeadReads fields)
      (hpatterns : IfGiven fields "patterns" fun v =>
        ∃ items, v.iter = .ok items ∧ ∀ raw ∈ items, PatternReads lib raw)
      (items : List Json) (hitems : RejectsListed fields items)
      (hfirst : FirstReported (RejectReads lib) (RejectRefused lib) items)

end Entry

/-! ## Reading an entry -/

section Head

variable {lib : DocumentLibraries} {fileName : String} {fields : List (String × Json)}
  {key : String} {v : Json}

theorem headField_eq_ok :
    headField fileName (.obj fields) key = .ok v ↔ Dict.get? fields key = some v := by
  rw [headField, mapError_eq_ok, Json.index]
  cases Dict.get? fields key with
  | none => exact ⟨fun h => (nomatch h), fun h => (nomatch h)⟩
  | some w =>
    exact ⟨fun h => congrArg some (Except.ok.inj h), fun h => congrArg _ (Option.some.inj h)⟩

/-- A field a mapping lacks is reported. -/
theorem reports_headField (h : ¬(headField fileName (.obj fields) key).isOk = true) :
    Reports (headField fileName (.obj fields) key) := by
  rw [headField, Json.index] at h ⊢
  cases hget : Dict.get? fields key with
  | none => exact ⟨_, rfl⟩
  | some w =>
    rw [hget] at h
    exact absurd rfl h

theorem isOk_headField :
    (headField fileName (.obj fields) key).isOk = true ↔ (Dict.get? fields key).isSome = true := by
  rw [isOk_iff, Option.isSome_iff_exists]
  exact exists_congr fun _ => headField_eq_ok

/-- A severity parses if it is the name of one. -/
theorem isOk_parse_severity {u : Unicode} :
    (Severity.parse u v).isOk = true ↔ ∃ s : Severity, v.isText s.value = true := by
  rw [Severity.parse]
  cases hfind : [Severity.critical, .high, .medium, .low, .info].find? fun s => v.isText s.value with
  | some s =>
    have hs := List.find?_some (p := fun s : Severity => v.isText s.value) hfind
    exact iff_of_true rfl ⟨s, hs⟩
  | none =>
    refine iff_of_false Bool.false_ne_true fun ⟨s, hs⟩ => ?_
    have hnone := List.find?_eq_none.mp hfind s (by cases s <;> simp)
    exact hnone hs

theorem isOk_headSeverity : (headSeverity lib fileName (.obj fields)).isOk = true ↔
    ∃ v ∈ Dict.get? fields "severity", ∃ s : Severity, v.isText s.value = true := by
  rw [headSeverity, isOk_bind]
  refine exists_congr fun v => and_congr headField_eq_ok ?_
  rw [← @isOk_parse_severity v lib.unicode]
  cases Severity.parse lib.unicode v <;> rfl

/-- A severity that is none is reported. -/
theorem reports_headSeverity (h : ¬(headSeverity lib fileName (.obj fields)).isOk = true) :
    Reports (headSeverity lib fileName (.obj fields)) := by
  rw [headSeverity] at h ⊢
  rw [reports_bind]
  by_cases hraw : (headField fileName (.obj fields) "severity").isOk = true
  · obtain ⟨raw, hraw⟩ := exists_eq_ok hraw
    refine Or.inr ⟨raw, hraw, ?_⟩
    rw [hraw, ok_bind] at h
    cases hparse : Severity.parse lib.unicode raw with
    | ok severity =>
      rw [hparse] at h
      exact absurd rfl h
    | error e => exact ⟨_, rfl⟩
  · exact Or.inl (reports_headField hraw)

/-- A step that reports when it does not return, before others. -/
theorem reports_or_bind {α β : Type} {x : Except LoadError α} {f : α → Except LoadError β}
    (hx : ¬x.isOk = true → Reports x) (hf : ∀ a, ¬(f a).isOk = true → Reports (f a))
    (h : ¬(x >>= f).isOk = true) : Reports (x >>= f) := by
  rw [reports_bind]
  by_cases hok : x.isOk = true
  · obtain ⟨a, rfl⟩ := exists_eq_ok hok
    exact Or.inr ⟨a, rfl, hf a h⟩
  · exact Or.inl (hx hok)

/-- **The head of a mapping is read, or reported.** -/
theorem reports_readHead (h : ¬(readHead lib fileName (.obj fields)).isOk = true) :
    Reports (readHead lib fileName (.obj fields)) :=
  reports_or_bind reports_headField (fun _ => reports_or_bind reports_headField fun _ =>
    reports_or_bind reports_headField fun _ => reports_or_bind reports_headSeverity fun _ =>
      reports_or_bind reports_headField fun _ h => absurd rfl h) h

theorem isOk_readHead :
    (readHead lib fileName (.obj fields)).isOk = true ↔ HeadReads fields := by
  rw [readHead, isOk_bind_iff fun _ => isOk_bind_iff fun _ => isOk_bind_iff fun _ =>
    isOk_bind_iff fun _ => isOk_bind_of_forall fun _ => rfl]
  simp only [isOk_headField, isOk_headSeverity]
  constructor
  · rintro ⟨hid, hname, hcategory, hseverity, hpatterns⟩
    exact ⟨hid, hname, hcategory, hseverity, hpatterns⟩
  · intro h
    exact ⟨h.id, h.name, h.category, h.severity, h.patterns⟩

/-- What the head holds is what the entry says. -/
theorem readHead_eq_ok {head : RuleHead × Json}
    (h : readHead lib fileName (.obj fields) = .ok head) :
    Dict.get? fields "id" = some head.1.id ∧ Dict.get? fields "patterns" = some head.2 := by
  obtain ⟨id, hid, h⟩ := bind_eq_ok.mp h
  obtain ⟨name, -, h⟩ := bind_eq_ok.mp h
  obtain ⟨category, -, h⟩ := bind_eq_ok.mp h
  obtain ⟨severity, -, h⟩ := bind_eq_ok.mp h
  obtain ⟨rawPatterns, hpatterns, h⟩ := bind_eq_ok.mp h
  obtain rfl := Except.ok.inj h
  exact ⟨headField_eq_ok.mp hid, headField_eq_ok.mp hpatterns⟩

/-- Only a mapping has fields; anything else raises what nobody catches. -/
theorem readHead_of_not_obj {entry : Json} (h : ∀ fields, entry ≠ .obj fields) :
    ∃ e, readHead lib fileName entry = .error (.uncaught e) := by
  cases entry with
  | obj fields => exact absurd rfl (h fields)
  | _ => exact ⟨_, rfl⟩

end Head

section Expressions

variable {lib : DocumentLibraries} {fileName : String} {fields : List (String × Json)}
  {label : String} {shown value id raw : Json}

theorem compileOf_eq_ok {regex : GroupedRegex} : compileOf lib label shown value = .ok regex ↔
    ∃ expression, value = .str expression ∧ lib.compile expression = .ok regex := by
  constructor
  · intro h
    cases value with
    | str expression => exact ⟨expression, rfl, mapError_eq_ok.mp h⟩
    | _ => cases h
  · rintro ⟨expression, rfl, h⟩
    exact mapError_eq_ok.mpr h

/-- An expression is reported exactly if `re` refuses it. -/
theorem reports_compileOf : Reports (compileOf lib label shown value) ↔
    ∃ expression message, value = .str expression ∧
      lib.compile expression = .error (.invalid message) := by
  constructor
  · rintro ⟨message, h⟩
    cases value with
    | str expression =>
      obtain ⟨e, he, hmessage⟩ := mapError_eq_error.mp h
      cases e with
      | invalid text => exact ⟨expression, text, rfl, he⟩
      | other e => cases hmessage
    | _ => cases h
  · rintro ⟨expression, message, rfl, h⟩
    exact ⟨_, mapError_eq_error.mpr ⟨_, h, rfl⟩⟩

theorem patternOf_eq_ok {pattern : DocumentPattern}
    (h : patternOf lib fileName id raw = .ok pattern) :
    ∃ expression, readPattern raw = .ok (.str expression, pattern.capture) ∧
      lib.compile expression = .ok pattern.regex := by
  obtain ⟨parts, hparts, h⟩ := bind_eq_ok.mp h
  obtain ⟨regex, hregex, h⟩ := bind_eq_ok.mp h
  obtain rfl := Except.ok.inj h
  obtain ⟨expression, hexpression, hcompile⟩ := compileOf_eq_ok.mp hregex
  refine ⟨expression, ?_, hcompile⟩
  rw [letThrough_eq_ok.mp hparts, ← hexpression]

theorem isOk_patternOf : (patternOf lib fileName id raw).isOk = true ↔ PatternReads lib raw := by
  constructor
  · intro h
    obtain ⟨pattern, h⟩ := exists_eq_ok h
    obtain ⟨expression, hread, hcompile⟩ := patternOf_eq_ok h
    exact ⟨expression, pattern.capture, pattern.regex, hread, hcompile⟩
  · rintro ⟨expression, capture, regex, hread, hcompile⟩
    refine isOk_bind.mpr ⟨_, letThrough_eq_ok.mpr hread, isOk_bind.mpr ⟨regex, ?_, rfl⟩⟩
    exact compileOf_eq_ok.mpr ⟨expression, rfl, hcompile⟩

theorem reports_patternOf : Reports (patternOf lib fileName id raw) ↔ PatternRefused lib raw := by
  rw [patternOf, reports_letThrough_bind]
  constructor
  · rintro ⟨⟨source, capture⟩, hread, h⟩
    obtain h | ⟨regex, -, h⟩ := reports_bind.mp h
    · obtain ⟨expression, message, hsource, hrefused⟩ := reports_compileOf.mp h
      exact ⟨expression, capture, message, hsource ▸ hread, hrefused⟩
    · exact absurd h (not_reports_ok _)
  · rintro ⟨expression, capture, message, hread, h⟩
    exact ⟨_, hread, reports_bind.mpr (Or.inl (reports_compileOf.mpr ⟨expression, message, rfl, h⟩))⟩

theorem isOk_rejectOf : (rejectOf lib fileName id raw).isOk = true ↔ RejectReads lib raw := by
  rw [isOk_iff]
  refine exists_congr fun regex => compileOf_eq_ok.trans ⟨?_, fun h => ⟨_, rfl, h⟩⟩
  rintro ⟨expression, hexpression, h⟩
  rwa [← Json.str.inj hexpression] at h

theorem reports_rejectOf : Reports (rejectOf lib fileName id raw) ↔ RejectRefused lib raw := by
  refine reports_compileOf.trans ⟨?_, fun ⟨message, h⟩ => ⟨_, message, rfl, h⟩⟩
  rintro ⟨expression, message, hexpression, h⟩
  rw [← Json.str.inj hexpression] at h
  exact ⟨message, h⟩

theorem rawRejects_eq_ok {items : List Json} :
    rawRejects (.obj fields) = .ok items ↔ RejectsListed fields items := Iff.rfl

end Expressions

section Details

variable {lib : DocumentLibraries} {fields : List (String × Json)} {key : String}

/-- A conversion of a field that may be missing returns if it does on the field. -/
theorem isOk_getD_bind {α : Type} {d : Json} {f : Json → Except PyError α}
    (hd : (f d).isOk = true) :
    ((Json.obj fields).getD key d >>= f).isOk = true ↔
      IfGiven fields key fun v => (f v).isOk = true := by
  show (f ((Dict.get? fields key).getD d)).isOk = true ↔ _
  unfold IfGiven
  cases Dict.get? fields key with
  | none => exact iff_of_true hd fun v hv => (nomatch hv)
  | some w => exact ⟨fun h v hv => Option.some.inj hv ▸ h, fun h => h w rfl⟩

/-- A field that is kept as it is cannot fail. -/
theorem isOk_keep_bind {α : Type} {d : Json} {f : Json → Except PyError α} :
    ((Json.obj fields).getD key d >>= f).isOk = true ↔
      (f ((Dict.get? fields key).getD d)).isOk = true := Iff.rfl

theorem isOk_floatOf {d : ℚ} : (floatOf lib (.obj fields) key d).isOk = true ↔
    IfGiven fields key fun v => (v.toFloat lib.toNumerals).isOk = true := isOk_getD_bind rfl

theorem isOk_intOf {d : ℤ} : (intOf lib (.obj fields) key d).isOk = true ↔
    IfGiven fields key fun v => (v.toInt lib.toNumerals).isOk = true := isOk_getD_bind rfl

theorem isOk_tupleOf {d : List Json} : (tupleOf (.obj fields) key d).isOk = true ↔
    IfGiven fields key fun v => v.iter.isOk = true := isOk_getD_bind rfl

theorem isOk_strippedOf : (strippedOf lib (.obj fields) key).isOk = true ↔
    IfGiven fields key fun v => ∃ text, v = .str text := by
  refine (isOk_getD_bind rfl).trans (forall₂_congr fun v _ => ?_)
  cases v with
  | str text => exact iff_of_true rfl ⟨text, rfl⟩
  | _ => exact iff_of_false Bool.false_ne_true fun ⟨_, h⟩ => nomatch h

/-- Only a mapping has fixtures. -/
theorem isOk_tupleOf_iff {v : Json} {d : List Json} : (tupleOf v key d).isOk = true ↔
    ∃ tests, v = .obj tests ∧ IfGiven tests key fun v => v.iter.isOk = true := by
  cases v with
  | obj tests =>
    rw [isOk_tupleOf]
    constructor
    · intro h
      exact ⟨tests, rfl, h⟩
    · rintro ⟨tests', htests, h⟩
      rwa [Json.obj.inj htests]
  | _ => exact iff_of_false Bool.false_ne_true fun ⟨_, h, _⟩ => nomatch h

theorem testsRead_iff :
    (tupleOf (((Dict.get? fields "tests").getD (.obj [])).orElse (.obj [])) "positive" []).isOk
        = true ∧
      (tupleOf (((Dict.get? fields "tests").getD (.obj [])).orElse (.obj [])) "negative" []).isOk
        = true ↔ TestsRead fields := by
  rw [isOk_tupleOf_iff, isOk_tupleOf_iff]
  constructor
  · rintro ⟨⟨tests, htests, hpositive⟩, tests', htests', hnegative⟩
    obtain rfl := Json.obj.inj (htests.symm.trans htests')
    exact ⟨tests, htests, hpositive, hnegative⟩
  · rintro ⟨tests, htests, hpositive, hnegative⟩
    exact ⟨⟨tests, htests, hpositive⟩, tests, htests, hnegative⟩

/-- **The arguments of a rule are read if each of them converts.** -/
theorem isOk_readDetails :
    (readDetails lib (.obj fields)).isOk = true ↔ DetailsRead lib fields := by
  have hsteps : (readDetails lib (.obj fields)).isOk = true ↔
      (floatOf lib (.obj fields) "confidence" (1 / 2)).isOk = true ∧
      (strippedOf lib (.obj fields) "description").isOk = true ∧
      (strippedOf lib (.obj fields) "remediation").isOk = true ∧
      (tupleOf (.obj fields) "tags" []).isOk = true ∧
      (floatOf lib (.obj fields) "min_entropy" 0).isOk = true ∧
      (intOf lib (.obj fields) "min_length" 0).isOk = true ∧
      (intOf lib (.obj fields) "max_length" 4096).isOk = true ∧
      (tupleOf (.obj fields) "encodings" defaultEncodings).isOk = true ∧
      (tupleOf (.obj fields) "requires_nearby" []).isOk = true ∧
      (intOf lib (.obj fields) "nearby_window" 120).isOk = true ∧
      TestsRead fields := by
    rw [← testsRead_iff]
    refine isOk_keep_bind.trans (isOk_bind_iff fun confidence => ?_)
    refine isOk_keep_bind.trans (isOk_bind_iff fun description => isOk_bind_iff fun remediation => ?_)
    refine isOk_bind_iff fun tags => isOk_bind_iff fun minEntropy => isOk_bind_iff fun minLength => ?_
    refine isOk_bind_iff fun maxLength => isOk_bind_iff fun encodings => ?_
    refine isOk_bind_iff fun requiresNearby => isOk_bind_iff fun nearbyWindow => ?_
    refine isOk_keep_bind.trans (isOk_keep_bind.trans (isOk_keep_bind.trans ?_))
    exact isOk_bind_iff fun examplesPositive => isOk_bind_of_forall fun examplesNegative => rfl
  rw [hsteps]
  simp only [isOk_floatOf, isOk_strippedOf, isOk_tupleOf, isOk_intOf]
  constructor
  · rintro ⟨hconfidence, hdescription, hremediation, htags, hentropy, hmin, hmax, hencodings,
      hnearby, hwindow, htests⟩
    exact ⟨hconfidence, hdescription, hremediation, htags, hentropy, hmin, hmax, hencodings,
      hnearby, hwindow, htests⟩
  · intro h
    exact ⟨h.confidence, h.description, h.remediation, h.tags, h.minEntropy, h.minLength,
      h.maxLength, h.encodings, h.requiresNearby, h.nearbyWindow, h.tests⟩

/-- What the arguments hold of the fields the scanner chooses by. -/
theorem readDetails_eq_ok {details : RuleDetails}
    (h : readDetails lib (.obj fields) = .ok details) :
    tupleOf (.obj fields) "tags" [] = .ok details.tags ∧
      tupleOf (.obj fields) "encodings" defaultEncodings = .ok details.encodings ∧
      tupleOf (.obj fields) "requires_nearby" [] = .ok details.requiresNearby ∧
      ((Dict.get? fields "shape_policy").getD (.str "context")).text lib.unicode.printable
        = details.shapePolicy := by
  obtain ⟨tests, -, h⟩ := bind_eq_ok.mp h
  obtain ⟨confidence, -, h⟩ := bind_eq_ok.mp h
  obtain ⟨cwe, -, h⟩ := bind_eq_ok.mp h
  obtain ⟨description, -, h⟩ := bind_eq_ok.mp h
  obtain ⟨remediation, -, h⟩ := bind_eq_ok.mp h
  obtain ⟨tags, htags, h⟩ := bind_eq_ok.mp h
  obtain ⟨minEntropy, -, h⟩ := bind_eq_ok.mp h
  obtain ⟨minLength, -, h⟩ := bind_eq_ok.mp h
  obtain ⟨maxLength, -, h⟩ := bind_eq_ok.mp h
  obtain ⟨encodings, hencodings, h⟩ := bind_eq_ok.mp h
  obtain ⟨requiresNearby, hnearby, h⟩ := bind_eq_ok.mp h
  obtain ⟨nearbyWindow, -, h⟩ := bind_eq_ok.mp h
  obtain ⟨shapePolicy, hshape, h⟩ := bind_eq_ok.mp h
  obtain ⟨requireMixedCase, -, h⟩ := bind_eq_ok.mp h
  obtain ⟨enabled, -, h⟩ := bind_eq_ok.mp h
  obtain ⟨examplesPositive, -, h⟩ := bind_eq_ok.mp h
  obtain ⟨examplesNegative, -, h⟩ := bind_eq_ok.mp h
  obtain rfl := Except.ok.inj h
  obtain rfl := Except.ok.inj hshape
  exact ⟨htags, hencodings, hnearby, rfl⟩

end Details

/-! ## Building a rule -/

section Build

variable {lib : DocumentLibraries} {fileName : String} {entry : Json}
  {fields : List (String × Json)}

/-- Where the parts of a rule come from. -/
theorem buildDocumentRule_eq_ok {rule : DocumentRule}
    (h : buildDocumentRule lib fileName entry = .ok rule) :
    ∃ raw items rejects, readHead lib fileName entry = .ok (rule.toRuleHead, raw) ∧
      raw.iter = .ok items ∧ items.mapM (patternOf lib fileName rule.id) = .ok rule.patterns ∧
      rawRejects entry = .ok rejects ∧
      rejects.mapM (rejectOf lib fileName rule.id) = .ok rule.rejectsMatching ∧
      readDetails lib entry = .ok rule.toRuleDetails := by
  obtain ⟨head, hhead, h⟩ := bind_eq_ok.mp h
  obtain ⟨items, hitems, h⟩ := bind_eq_ok.mp h
  obtain ⟨patterns, hpatterns, h⟩ := bind_eq_ok.mp h
  obtain ⟨rejects, hrejects, h⟩ := bind_eq_ok.mp h
  obtain ⟨rejectsMatching, hmatching, h⟩ := bind_eq_ok.mp h
  obtain ⟨details, hdetails, h⟩ := bind_eq_ok.mp h
  obtain rfl := Except.ok.inj h
  exact ⟨head.2, items, rejects, hhead, letThrough_eq_ok.mp hitems, hpatterns,
    letThrough_eq_ok.mp hrejects, hmatching, letThrough_eq_ok.mp hdetails⟩

/-- Only a mapping is an entry. -/
theorem exists_fields_of_readHead {head : RuleHead × Json}
    (h : readHead lib fileName entry = .ok head) : ∃ fields, entry = .obj fields := by
  by_contra hnot
  push Not at hnot
  obtain ⟨e, he⟩ := @readHead_of_not_obj lib fileName _ hnot
  rw [he] at h
  cases h

/-- **An entry builds a rule exactly if it reads.** -/
theorem isOk_buildDocumentRule : (buildDocumentRule lib fileName entry).isOk = true ↔
    ∃ fields, entry = .obj fields ∧ EntryReads lib fields := by
  constructor
  · intro h
    obtain ⟨rule, h⟩ := exists_eq_ok h
    obtain ⟨raw, items, rejects, hhead, hitems, hpatterns, hrejects, hmatching, hdetails⟩ :=
      buildDocumentRule_eq_ok h
    obtain ⟨fields, rfl⟩ := exists_fields_of_readHead hhead
    refine ⟨fields, rfl, isOk_readHead.mp (isOk_iff.mpr ⟨_, hhead⟩), fun v hv => ?_,
      ⟨rejects, hrejects, fun raw hraw => ?_⟩, isOk_readDetails.mp (isOk_iff.mpr ⟨_, hdetails⟩)⟩
    · obtain rfl := Option.some.inj ((readHead_eq_ok hhead).2.symm.trans hv)
      exact ⟨items, hitems, fun raw hraw =>
        isOk_patternOf.mp (isOk_mapM.mp (isOk_iff.mpr ⟨_, hpatterns⟩) raw hraw)⟩
    · exact isOk_rejectOf.mp (isOk_mapM.mp (isOk_iff.mpr ⟨_, hmatching⟩) raw hraw)
  · rintro ⟨fields, rfl, h⟩
    obtain ⟨head, hhead⟩ := exists_eq_ok (isOk_readHead.mpr h.head)
    obtain ⟨items, hitems, hpatterns⟩ := h.patterns head.2 (readHead_eq_ok hhead).2
    obtain ⟨rejects, hrejects, hmatching⟩ := h.rejects
    obtain ⟨details, hdetails⟩ := exists_eq_ok (isOk_readDetails.mpr h.details)
    refine isOk_bind.mpr ⟨head, hhead, isOk_bind.mpr ⟨items, letThrough_eq_ok.mpr hitems, ?_⟩⟩
    obtain ⟨patterns, hpatterns⟩ := exists_eq_ok (isOk_mapM.mpr fun raw hraw =>
      @isOk_patternOf lib fileName head.1.id raw |>.mpr (hpatterns raw hraw))
    refine isOk_bind.mpr ⟨patterns, hpatterns,
      isOk_bind.mpr ⟨rejects, letThrough_eq_ok.mpr hrejects, ?_⟩⟩
    obtain ⟨rejectsMatching, hmatching⟩ := exists_eq_ok (isOk_mapM.mpr fun raw hraw =>
      @isOk_rejectOf lib fileName head.1.id raw |>.mpr (hmatching raw hraw))
    exact isOk_bind.mpr ⟨rejectsMatching, hmatching,
      isOk_bind.mpr ⟨details, letThrough_eq_ok.mpr hdetails, rfl⟩⟩

/-- **An entry is reported exactly if what stops it is a missing field, a severity that is none, or
an expression that is refused.** -/
theorem reports_buildDocumentRule : Reports (buildDocumentRule lib fileName entry) ↔
    ∃ fields, entry = .obj fields ∧ EntryReported lib fields := by
  rw [buildDocumentRule, reports_bind]
  constructor
  · rintro (h | ⟨head, hhead, h⟩)
    · by_cases hobj : ∃ fields, entry = .obj fields
      · obtain ⟨fields, rfl⟩ := hobj
        exact ⟨fields, rfl, .head fun hreads => not_isOk_of_reports h (isOk_readHead.mpr hreads)⟩
      · push Not at hobj
        obtain ⟨e, he⟩ := @readHead_of_not_obj lib fileName _ hobj
        obtain ⟨message, h⟩ := h
        cases he.symm.trans h
    obtain ⟨fields, rfl⟩ := exists_fields_of_readHead hhead
    have hreads : HeadReads fields := isOk_readHead.mp (isOk_iff.mpr ⟨head, hhead⟩)
    have hraw := (readHead_eq_ok hhead).2
    refine ⟨fields, rfl, ?_⟩
    obtain ⟨items, hitems, h⟩ := reports_letThrough_bind.mp h
    obtain h | ⟨patterns, hpatterns, h⟩ := reports_bind.mp h
    · refine .pattern hreads head.2 hraw items hitems ?_
      exact (FirstReported.congr (fun _ => isOk_patternOf) fun _ => reports_patternOf).mp
        (reports_mapM.mp h)
    obtain ⟨rejects, hrejects, h⟩ := reports_letThrough_bind.mp h
    obtain h | ⟨rejectsMatching, hmatching, h⟩ := reports_bind.mp h
    · refine .reject hreads (fun v hv => ?_) rejects hrejects ?_
      · obtain rfl := Option.some.inj (hraw.symm.trans hv)
        exact ⟨items, hitems, fun raw hraw =>
          isOk_patternOf.mp (isOk_mapM.mp (isOk_iff.mpr ⟨_, hpatterns⟩) raw hraw)⟩
      · exact (FirstReported.congr (fun _ => isOk_rejectOf) fun _ => reports_rejectOf).mp
          (reports_mapM.mp h)
    obtain ⟨details, -, h⟩ := reports_letThrough_bind.mp h
    exact absurd h (not_reports_ok _)
  · rintro ⟨fields, rfl, h⟩
    by_cases hhead : (readHead lib fileName (.obj fields)).isOk = true
    · obtain ⟨head, hhead⟩ := exists_eq_ok hhead
      have hraw := (readHead_eq_ok hhead).2
      refine Or.inr ⟨head, hhead, reports_letThrough_bind.mpr ?_⟩
      cases h with
      | head hnot => exact absurd (isOk_readHead.mp (isOk_iff.mpr ⟨head, hhead⟩)) hnot
      | pattern _ v hv items hitems hfirst =>
        obtain rfl := Option.some.inj (hraw.symm.trans hv)
        refine ⟨items, hitems, reports_bind.mpr (Or.inl (reports_mapM.mpr ?_))⟩
        exact (FirstReported.congr (fun _ => isOk_patternOf) fun _ => reports_patternOf).mpr hfirst
      | reject _ hpatterns rejects hrejects hfirst =>
        obtain ⟨items, hitems, hpatterns⟩ := hpatterns head.2 hraw
        obtain ⟨patterns, hpatterns⟩ := exists_eq_ok (isOk_mapM.mpr fun raw hraw =>
          @isOk_patternOf lib fileName head.1.id raw |>.mpr (hpatterns raw hraw))
        refine ⟨items, hitems, reports_bind.mpr (Or.inr ⟨patterns, hpatterns, ?_⟩)⟩
        refine reports_letThrough_bind.mpr ⟨rejects, hrejects, reports_bind.mpr (Or.inl ?_)⟩
        exact reports_mapM.mpr
          ((FirstReported.congr (fun _ => isOk_rejectOf) fun _ => reports_rejectOf).mpr hfirst)
    · exact Or.inl (reports_readHead hhead)

end Build

/-! ## A rule as it was written -/

section Written

/-- The policies the scanner knows. -/
def shapePolicies : List String := ["off", "context", "strict"]

/-- The value is the list in the document, or the default if there is none. -/
def WrittenAs (fields : List (String × Json)) (key : String) (default value : List Json) : Prop :=
  Dict.get? fields key = none ∧ value = default ∨ Dict.get? fields key = some (.arr value)

/-- What a loaded rule promises: it looks at encodings there are, by a policy there is, for groups
there are, and its lists are those of the document. -/
structure RuleAsWritten (fields : List (String × Json)) (rule : DocumentRule) : Prop where
  encodings : WrittenAs fields "encodings" defaultEncodings rule.encodings
  someEncoding : rule.encodings ≠ []
  knownEncodings : ∀ encoding ∈ rule.encodings, encoding ∈ defaultEncodings
  shapePolicy : rule.shapePolicy ∈ shapePolicies
  captures : ∀ pattern ∈ rule.patterns, pattern.regex.Defines pattern.capture
  tags : WrittenAs fields "tags" [] rule.tags
  requiresNearby : WrittenAs fields "requires_nearby" [] rule.requiresNearby

variable (lib : DocumentLibraries)

/-- The group a pattern names is one of its expression. -/
def CaptureDefined (raw : Json) : Prop :=
  ∀ expression capture regex, readPattern raw = .ok (.str expression, capture) →
    lib.compile expression = .ok regex → regex.Defines capture

/-- The same of the document, without reading it: -/
structure EntryWritten (fields : List (String × Json)) : Prop where
  /-- the encodings, if any are given, are a list of some that there are… -/
  encodings : IfGiven fields "encodings" fun v =>
    ∃ items, v = .arr items ∧ items ≠ [] ∧ ∀ encoding ∈ items, encoding ∈ defaultEncodings
  /-- …the policy is one that there is… -/
  shapePolicy : IfGiven fields "shape_policy" fun v => v.text lib.unicode.printable ∈ shapePolicies
  /-- …the groups are groups of their expressions… -/
  captures : IfGiven fields "patterns" fun v =>
    ∀ items, v.iter = .ok items → ∀ raw ∈ items, CaptureDefined lib raw
  /-- …and the lists are lists. -/
  tags : IfGiven fields "tags" fun v => ∃ items, v = .arr items
  requiresNearby : IfGiven fields "requires_nearby" fun v => ∃ items, v = .arr items

variable {lib} {fileName : String} {fields : List (String × Json)} {rule : DocumentRule}

/-- A tuple is the list of the document exactly if the document has a list. -/
theorem writtenAs_iff {key : String} {default value : List Json}
    (h : tupleOf (.obj fields) key default = .ok value) :
    WrittenAs fields key default value ↔ IfGiven fields key fun v => v = .arr value := by
  obtain ⟨v, hv, hvalue⟩ := bind_eq_ok.mp h
  obtain rfl := Except.ok.inj hv
  unfold WrittenAs IfGiven
  cases hget : Dict.get? fields key with
  | none =>
    rw [hget] at hvalue
    exact iff_of_true (Or.inl ⟨rfl, (Except.ok.inj hvalue).symm⟩) fun v hv => (nomatch hv)
  | some w =>
    constructor
    · rintro (⟨hnone, -⟩ | hsome) v hv
      · cases hnone
      · exact (Option.some.inj hv).symm.trans (Option.some.inj hsome)
    · intro hall
      exact Or.inr (congrArg some (hall w rfl))

/-- The list of the document is the tuple, so to be a list is to be that list. -/
theorem isList_iff {key : String} {default value : List Json} {p : List Json → Prop}
    (h : tupleOf (.obj fields) key default = .ok value) :
    (IfGiven fields key fun v => ∃ items, v = .arr items ∧ p items) ↔
      (IfGiven fields key fun v => v = .arr value) ∧ (IfGiven fields key fun _ => p value) := by
  have hlist : ∀ v ∈ Dict.get? fields key, ∀ items, v = .arr items → items = value :=
    fun v hv items hitems => by
      obtain ⟨w, hw, hvalue⟩ := bind_eq_ok.mp h
      obtain rfl := Except.ok.inj hw
      rw [Option.mem_def.mp hv, hitems] at hvalue
      exact Except.ok.inj hvalue
  constructor
  · intro hall
    refine ⟨fun v hv => ?_, fun v hv => ?_⟩ <;> obtain ⟨items, hitems, hp⟩ := hall v hv
    · rwa [← hlist v hv items hitems]
    · rwa [← hlist v hv items hitems]
  · rintro ⟨hall, hp⟩ v hv
    exact ⟨value, hall v hv, hp v hv⟩

theorem writtenAs_iff_isList {key : String} {default value : List Json}
    (h : tupleOf (.obj fields) key default = .ok value) : WrittenAs fields key default value ↔
      IfGiven fields key fun v => ∃ items, v = .arr items := by
  rw [writtenAs_iff h]
  have := @isList_iff fields key default value (fun _ => True) h
  simp only [and_true, implies_true, IfGiven] at this ⊢
  exact this.symm

/-- Encodings that are written are given, or the default. -/
theorem encodings_iff {value : List Json}
    (h : tupleOf (.obj fields) "encodings" defaultEncodings = .ok value) :
    (WrittenAs fields "encodings" defaultEncodings value ∧ value ≠ [] ∧
      ∀ encoding ∈ value, encoding ∈ defaultEncodings) ↔
    IfGiven fields "encodings" fun v =>
      ∃ items, v = .arr items ∧ items ≠ [] ∧ ∀ encoding ∈ items, encoding ∈ defaultEncodings := by
  rw [isList_iff h, ← writtenAs_iff h]
  refine and_congr_right fun hwritten => ?_
  obtain ⟨hnone, rfl⟩ | hsome := hwritten
  · refine iff_of_true ⟨List.cons_ne_nil _ _, fun _ he => he⟩ fun v hv => ?_
    rw [hnone] at hv
    cases hv
  · exact ⟨fun h _ _ => h, fun h => h _ hsome⟩

/-- **A rule that is built is as it was written exactly if the entry is written as it must be.** -/
theorem ruleAsWritten_iff (h : buildDocumentRule lib fileName (.obj fields) = .ok rule) :
    RuleAsWritten fields rule ↔ EntryWritten lib fields := by
  obtain ⟨raw, items, rejects, hhead, hitems, hpatterns, -, -, hdetails⟩ :=
    buildDocumentRule_eq_ok h
  have hraw := (readHead_eq_ok hhead).2
  obtain ⟨htags, hencodings, hnearby, hshape⟩ := readDetails_eq_ok hdetails
  have hpolicy : rule.shapePolicy ∈ shapePolicies ↔ IfGiven fields "shape_policy" fun v =>
      v.text lib.unicode.printable ∈ shapePolicies := by
    rw [← hshape]
    unfold IfGiven
    cases Dict.get? fields "shape_policy" with
    | none => exact iff_of_true (List.mem_cons_of_mem _ List.mem_cons_self) fun v hv => (nomatch hv)
    | some w => exact ⟨fun h v hv => Option.some.inj hv ▸ h, fun h => h w rfl⟩
  have hcaptures : (∀ pattern ∈ rule.patterns, pattern.regex.Defines pattern.capture) ↔
      IfGiven fields "patterns" fun v =>
        ∀ items, v.iter = .ok items → ∀ raw ∈ items, CaptureDefined lib raw := by
    constructor
    · intro hall v hv items' hitems' raw' hraw' expression capture regex hread hcompile
      obtain rfl := Option.some.inj (hraw.symm.trans hv)
      obtain rfl := Except.ok.inj (hitems.symm.trans hitems')
      obtain ⟨pattern, hpattern, hbuilt⟩ := exists_mem_of_mapM_eq_ok hpatterns hraw'
      obtain ⟨expression', hread', hcompile'⟩ := patternOf_eq_ok hbuilt
      obtain ⟨hsource, rfl⟩ := Prod.mk.inj (Except.ok.inj (hread.symm.trans hread'))
      rw [← Json.str.inj hsource] at hcompile'
      rw [Except.ok.inj (hcompile.symm.trans hcompile')]
      exact hall pattern hpattern
    · intro hall pattern hpattern
      obtain ⟨raw', hraw', hbuilt⟩ := mem_of_mapM_eq_ok hpatterns hpattern
      obtain ⟨expression, hread, hcompile⟩ := patternOf_eq_ok hbuilt
      exact hall raw hraw items hitems raw' hraw' expression _ _ hread hcompile
  constructor
  · intro hrule
    exact ⟨(encodings_iff hencodings).mp ⟨hrule.encodings, hrule.someEncoding, hrule.knownEncodings⟩,
      hpolicy.mp hrule.shapePolicy, hcaptures.mp hrule.captures,
      (writtenAs_iff_isList htags).mp hrule.tags,
      (writtenAs_iff_isList hnearby).mp hrule.requiresNearby⟩
  · intro hentry
    obtain ⟨hwritten, hsome, hknown⟩ := (encodings_iff hencodings).mpr hentry.encodings
    exact ⟨hwritten, hsome, hknown, hpolicy.mpr hentry.shapePolicy, hcaptures.mpr hentry.captures,
      (writtenAs_iff_isList htags).mpr hentry.tags,
      (writtenAs_iff_isList hnearby).mpr hentry.requiresNearby⟩

end Written

/-! ## The rule the scanner reads -/

section Scanned

/-- The libraries, as the scanner's loader has them. -/
def DocumentLibraries.ruleLibraries (lib : DocumentLibraries) : RuleLibraries where
  yaml := lib.yaml
  compile expression := match lib.compile expression with
    | .ok regex => .ok regex.toRegex
    | .error (.invalid message) => .error (.valueError message)
    | .error (.other e) => .error e
  floatOf text := (lib.floatOf text).join
  unicode := lib.unicode

variable {lib : DocumentLibraries} {fileName : String} {entry : Json}

theorem mapM_asStr {items : List Json} {texts : List String}
    (h : items.mapM Json.asStr = .ok texts) : items = texts.map .str := by
  have hread := @map_of_mapM_eq_ok _ _ _ _ Json.asStr Json.str id items texts h
    fun item _ text htext => by
      cases item with
      | str s => exact congrArg Json.str (Except.ok.inj htext).symm
      | _ => cases htext
  rw [hread, List.map_id]

/-- Where a field has texts, the loaders read the same. -/
theorem tupleOf_of_textsField {key : String} {default texts : List String}
    (h : textsField entry key default = .ok texts) :
    tupleOf entry key (default.map .str) = .ok (texts.map .str) := by
  obtain ⟨v, hv, h⟩ := bind_eq_ok.mp h
  obtain ⟨items, hitems, h⟩ := bind_eq_ok.mp h
  rw [← mapM_asStr h]
  exact bind_eq_ok.mpr ⟨v, hv, hitems⟩

/-- …and the same pattern. -/
theorem patternOf_of_buildPattern {id : Json} {ruleId : String} {raw : Json} {pattern : Pattern}
    (h : buildPattern lib.ruleLibraries fileName ruleId raw = .ok pattern) :
    ∃ loaded, patternOf lib fileName id raw = .ok loaded ∧
      pattern = loaded.regex.pattern loaded.capture := by
  obtain ⟨⟨source, capture⟩, hparts, h⟩ := bind_eq_ok.mp h
  obtain ⟨regex, hregex, h⟩ := bind_eq_ok.mp h
  obtain rfl := Except.ok.inj h
  cases source with
  | str expression =>
    have hcompile : lib.ruleLibraries.compile expression = .ok regex := mapError_eq_ok.mp hregex
    simp only [DocumentLibraries.ruleLibraries] at hcompile
    split at hcompile
    · rename_i grouped hgrouped
      obtain rfl := Except.ok.inj hcompile
      refine ⟨⟨grouped, capture, .str expression⟩, bind_eq_ok.mpr ⟨_, mapError_eq_ok.mpr hparts, ?_⟩,
        rfl⟩
      exact bind_eq_ok.mpr ⟨grouped, mapError_eq_ok.mpr hgrouped, rfl⟩
    · cases hcompile
    · cases hcompile
  | _ => cases hregex

/-- A loop that reads the same as another reads the images. -/
theorem mapM_eq_map {α β γ ε ε' : Type} {f : α → Except ε β} {g : α → Except ε' γ} {φ : γ → β}
    (h : ∀ a b, f a = .ok b → ∃ c, g a = .ok c ∧ b = φ c) {l : List α} {bs : List β}
    {cs : List γ} (hf : l.mapM f = .ok bs) (hg : l.mapM g = .ok cs) : bs = cs.map φ := by
  induction l generalizing bs cs with
  | nil =>
    obtain rfl := Except.ok.inj hf
    obtain rfl := Except.ok.inj hg
    rfl
  | cons a l ih =>
    rw [List.mapM_cons] at hf hg
    obtain ⟨b, hb, hf⟩ := bind_eq_ok.mp hf
    obtain ⟨bs', hbs', hf⟩ := bind_eq_ok.mp hf
    obtain ⟨c, hc, hg⟩ := bind_eq_ok.mp hg
    obtain ⟨cs', hcs', hg⟩ := bind_eq_ok.mp hg
    obtain rfl := Except.ok.inj hf
    obtain rfl := Except.ok.inj hg
    obtain ⟨c', hc', rfl⟩ := h a b hb
    obtain rfl := Except.ok.inj (hc.symm.trans hc')
    rw [ih hbs' hcs', List.map_cons]

/-- A field both loaders must have. -/
theorem headField_of_requiredField {key : String} {v : Json}
    (h : requiredField fileName entry key = .ok v) : headField fileName entry key = .ok v :=
  mapError_eq_ok.mpr (mapError_eq_ok.mp h)


/-- **The scanner's loader reads the rule that is loaded here**, where its texts are texts. -/
theorem scanned_of_loaded {rule : ScanRule} {loaded : DocumentRule}
    (h : buildRule lib.ruleLibraries fileName entry = .ok rule)
    (hloaded : buildDocumentRule lib fileName entry = .ok loaded) :
    loaded.tags = rule.tags.map .str ∧ loaded.encodings = rule.encodings.map .str ∧
      loaded.requiresNearby = rule.requiresNearby.map .str ∧
      loaded.shapePolicy = rule.shapePolicy ∧
      rule.patterns = loaded.patterns.map fun p => p.regex.pattern p.capture := by
  obtain ⟨raw, items, rejects, hhead, hitems, hpatterns, -, -, hdetails⟩ :=
    buildDocumentRule_eq_ok hloaded
  obtain ⟨fields, rfl⟩ := exists_fields_of_readHead hhead
  obtain ⟨htags, hencodings, hnearby, hshape⟩ := readDetails_eq_ok hdetails
  obtain ⟨_, -, h⟩ := bind_eq_ok.mp h
  obtain ⟨id, -, h⟩ := bind_eq_ok.mp h
  obtain ⟨_, -, h⟩ := bind_eq_ok.mp h
  obtain ⟨name, -, h⟩ := bind_eq_ok.mp h
  obtain ⟨_, -, h⟩ := bind_eq_ok.mp h
  obtain ⟨category, -, h⟩ := bind_eq_ok.mp h
  obtain ⟨severity, -, h⟩ := bind_eq_ok.mp h
  obtain ⟨raw', hraw', h⟩ := bind_eq_ok.mp h
  obtain ⟨items', hitems', h⟩ := bind_eq_ok.mp h
  obtain ⟨patterns, hpatterns', h⟩ := bind_eq_ok.mp h
  obtain ⟨_, -, h⟩ := bind_eq_ok.mp h
  obtain ⟨_, -, h⟩ := bind_eq_ok.mp h
  obtain ⟨_, -, h⟩ := bind_eq_ok.mp h
  obtain ⟨confidence, -, h⟩ := bind_eq_ok.mp h
  obtain ⟨_, -, h⟩ := bind_eq_ok.mp h
  obtain ⟨cwe, -, h⟩ := bind_eq_ok.mp h
  obtain ⟨_, -, h⟩ := bind_eq_ok.mp h
  obtain ⟨remediation, -, h⟩ := bind_eq_ok.mp h
  obtain ⟨tags, htags', h⟩ := bind_eq_ok.mp h
  obtain ⟨minEntropy, -, h⟩ := bind_eq_ok.mp h
  obtain ⟨minLength, -, h⟩ := bind_eq_ok.mp h
  obtain ⟨maxLength, -, h⟩ := bind_eq_ok.mp h
  obtain ⟨encodings, hencodings', h⟩ := bind_eq_ok.mp h
  obtain ⟨requiresNearby, hnearby', h⟩ := bind_eq_ok.mp h
  obtain ⟨nearbyWindow, -, h⟩ := bind_eq_ok.mp h
  obtain ⟨shapePolicy, hshape', h⟩ := bind_eq_ok.mp h
  obtain ⟨requireMixedCase, -, h⟩ := bind_eq_ok.mp h
  obtain ⟨enabled, -, h⟩ := bind_eq_ok.mp h
  obtain ⟨_, -, h⟩ := bind_eq_ok.mp h
  obtain rfl := Except.ok.inj h
  obtain rfl := Except.ok.inj hshape'
  have hraw : raw' = raw := Option.some.inj
    ((headField_eq_ok.mp (headField_of_requiredField hraw')).symm.trans (readHead_eq_ok hhead).2)
  rw [hraw, hitems] at hitems'
  obtain rfl := Except.ok.inj hitems'
  exact ⟨Except.ok.inj (htags.symm.trans (tupleOf_of_textsField htags')),
    Except.ok.inj (hencodings.symm.trans (tupleOf_of_textsField hencodings')),
    Except.ok.inj (hnearby.symm.trans (tupleOf_of_textsField hnearby')), hshape.symm,
    mapM_eq_map (fun _ _ => patternOf_of_buildPattern) hpatterns' hpatterns⟩

end Scanned

/-! ## The directory, in the order of reading -/

section Directory

/-- An entry with its file, or why the file has none. -/
abbrev ReadItem := Except PyError (String × Json)

variable (lib : DocumentLibraries)

/-- The entries of one file. -/
def fileItems (file : String × Bytes) : List ReadItem :=
  match readEntries lib file.2 with
  | .ok entries => entries.map fun entry => .ok (file.1, entry)
  | .error e => [.error e]

/-- The entries of the directory, in the order of reading. -/
def readingOrder (d : RuleDirectory) : List ReadItem := d.ruleFiles.flatMap (fileItems lib)

/-- The id an entry has. -/
def itemId : ReadItem → Json
  | .ok (_, .obj fields) => (Dict.get? fields "id").getD .null
  | _ => .null

/-- An entry that reads, with an id that can be looked up. -/
def ItemReads (item : ReadItem) : Prop :=
  ∃ file fields, item = .ok (file, .obj fields) ∧ EntryReads lib fields ∧ (itemId item).Hashable

/-- Entries that read, none of which has the id of another. -/
structure AllRead (items : List ReadItem) : Prop where
  reads : ∀ item ∈ items, ItemReads lib item
  distinct : items.Pairwise fun earlier later => (itemId earlier).equals (itemId later) = false

/-- The first thing that does not load is an entry the loader reports: it is malformed in a way that
is caught, or repeats an id. -/
def StopsReported (items : List ReadItem) : Prop :=
  ∃ before item after, items = before ++ item :: after ∧ AllRead lib before ∧
    ((∃ file fields, item = .ok (file, .obj fields) ∧ EntryReported lib fields) ∨
      ItemReads lib item ∧ ∃ earlier ∈ before, (itemId earlier).equals (itemId item) = true)

/-- The loop over the items. -/
def addItem (loaded : List (String × DocumentRule)) (item : ReadItem) :
    Except LoadError (List (String × DocumentRule)) := do
  let entry ← letThrough item
  addDocumentRule lib entry.1 loaded entry.2

variable {lib}

/-- **One file after the other is one entry after the other.** -/
theorem addDocument_eq (loaded : List (String × DocumentRule)) (file : String × Bytes) :
    addDocument lib loaded file = (fileItems lib file).foldlM (addItem lib) loaded := by
  rw [addDocument, fileItems]
  cases readEntries lib file.2 with
  | error e => rfl
  | ok entries =>
    rw [List.foldlM_map]
    rfl

theorem foldlM_addDocument (files : List (String × Bytes)) (loaded : List (String × DocumentRule)) :
    files.foldlM (addDocument lib) loaded
      = (files.flatMap (fileItems lib)).foldlM (addItem lib) loaded := by
  induction files generalizing loaded with
  | nil => rfl
  | cons file files ih =>
    rw [List.foldlM_cons, List.flatMap_cons, List.foldlM_append, addDocument_eq]
    exact bind_congr fun loaded' => ih loaded'

section Step

variable {loaded loaded' : List (String × DocumentRule)} {item : ReadItem} {fileName : String}
  {entry : Json} {rule : DocumentRule}

/-- The id of a rule is that of its entry. -/
theorem id_of_buildDocumentRule (h : buildDocumentRule lib fileName entry = .ok rule) :
    itemId (.ok (fileName, entry)) = rule.id := by
  obtain ⟨raw, items, rejects, hhead, -⟩ := buildDocumentRule_eq_ok h
  obtain ⟨fields, rfl⟩ := exists_fields_of_readHead hhead
  rw [itemId, (readHead_eq_ok hhead).1]
  rfl

theorem itemReads_iff : ItemReads lib item ↔ ∃ file entry rule, item = .ok (file, entry) ∧
    buildDocumentRule lib file entry = .ok rule ∧ rule.id.Hashable := by
  constructor
  · rintro ⟨file, fields, rfl, hreads, hhash⟩
    obtain ⟨rule, hrule⟩ := exists_eq_ok (@isOk_buildDocumentRule lib file _ |>.mpr ⟨_, rfl, hreads⟩)
    exact ⟨file, .obj fields, rule, rfl, hrule, id_of_buildDocumentRule hrule ▸ hhash⟩
  · rintro ⟨file, entry, rule, rfl, hrule, hhash⟩
    obtain ⟨fields, rfl, hreads⟩ := isOk_buildDocumentRule.mp (isOk_iff.mpr ⟨rule, hrule⟩)
    exact ⟨file, fields, rfl, hreads, id_of_buildDocumentRule hrule ▸ hhash⟩

theorem hashOf_eq_ok {v : Json} {u : Unit} : hashOf v = .ok u ↔ v.Hashable := by
  unfold hashOf
  split
  · exact iff_of_true rfl ‹_›
  · exact iff_of_false (fun h => (nomatch h)) ‹_›

/-- **One item loads if it reads and its id is new.** -/
theorem addItem_eq_ok : addItem lib loaded item = .ok loaded' ↔
    ∃ file entry rule, item = .ok (file, entry) ∧ buildDocumentRule lib file entry = .ok rule ∧
      rule.id.Hashable ∧ (∀ old ∈ loaded, old.2.id.equals rule.id = false) ∧
      loaded' = loaded ++ [(file, rule)] := by
  constructor
  · intro h
    obtain ⟨⟨file, entry⟩, hitem, h⟩ := bind_eq_ok.mp h
    obtain ⟨rule, hrule, h⟩ := bind_eq_ok.mp h
    obtain ⟨_, hhash, h⟩ := bind_eq_ok.mp h
    split at h
    · cases h
    rename_i hnew
    obtain rfl := Except.ok.inj h
    exact ⟨file, entry, rule, letThrough_eq_ok.mp hitem, hrule,
      hashOf_eq_ok.mp (letThrough_eq_ok.mp hhash),
      fun old hold => eq_false_of_ne_true (List.find?_eq_none.mp hnew old hold), rfl⟩
  · rintro ⟨file, entry, rule, rfl, hrule, hhash, hnew, rfl⟩
    refine bind_eq_ok.mpr ⟨(file, entry), rfl, bind_eq_ok.mpr ⟨rule, hrule, ?_⟩⟩
    refine bind_eq_ok.mpr ⟨(), letThrough_eq_ok.mpr (hashOf_eq_ok.mpr hhash), ?_⟩
    have hnone : (loaded.find? fun old => old.2.id.equals rule.id) = none :=
      List.find?_eq_none.mpr fun old hold => ne_true_of_eq_false (hnew old hold)
    simp only [hnone]
    rfl

/-- **One item is reported if its entry is, or repeats an id.** -/
theorem reports_addItem : Reports (addItem lib loaded item) ↔
    (∃ file fields, item = .ok (file, .obj fields) ∧ EntryReported lib fields) ∨
      ItemReads lib item ∧ ∃ old ∈ loaded, old.2.id.equals (itemId item) = true := by
  rw [addItem, reports_letThrough_bind]
  constructor
  · rintro ⟨⟨file, entry⟩, rfl, h⟩
    obtain h | ⟨rule, hrule, h⟩ := reports_bind.mp h
    · obtain ⟨fields, hentry, hreported⟩ := reports_buildDocumentRule.mp h
      obtain rfl : entry = .obj fields := hentry
      exact Or.inl ⟨file, fields, rfl, hreported⟩
    obtain ⟨_, hhash, h⟩ := reports_letThrough_bind.mp h
    split at h
    · rename_i old hfind
      refine Or.inr ⟨itemReads_iff.mpr ⟨file, entry, rule, rfl, hrule, hashOf_eq_ok.mp hhash⟩, old,
        List.mem_of_find?_eq_some hfind, ?_⟩
      rw [id_of_buildDocumentRule hrule]
      exact List.find?_some (p := fun old : String × DocumentRule => old.2.id.equals rule.id) hfind
    · exact absurd h (not_reports_ok _)
  · rintro (⟨file, fields, rfl, h⟩ | ⟨hreads, old, hold, heq⟩)
    · exact ⟨_, rfl, reports_bind.mpr (Or.inl (reports_buildDocumentRule.mpr ⟨fields, rfl, h⟩))⟩
    · obtain ⟨file, entry, rule, rfl, hrule, hhash⟩ := itemReads_iff.mp hreads
      rw [id_of_buildDocumentRule hrule] at heq
      refine ⟨_, rfl, reports_bind.mpr (Or.inr ⟨rule, hrule, ?_⟩)⟩
      refine reports_letThrough_bind.mpr ⟨(), hashOf_eq_ok.mpr hhash, ?_⟩
      cases hfind : loaded.find? fun old => old.2.id.equals rule.id with
      | none => exact absurd heq (List.find?_eq_none.mp hfind old hold)
      | some found => exact ⟨_, rfl⟩

end Step

section Run

variable {items : List ReadItem} {loaded loaded' : List (String × DocumentRule)}

/-- A rule that is loaded for an item. -/
def LoadedFor (lib : DocumentLibraries) (item : ReadItem) (rule : DocumentRule) : Prop :=
  ∃ file entry, item = .ok (file, entry) ∧ buildDocumentRule lib file entry = .ok rule

theorem LoadedFor.id_eq {item : ReadItem} {rule : DocumentRule} (h : LoadedFor lib item rule) :
    itemId item = rule.id := by
  obtain ⟨file, entry, rfl, hrule⟩ := h
  exact id_of_buildDocumentRule hrule

/-- **The loop loads a rule for every item, in their order.** -/
theorem foldlM_addItem_eq_ok (h : items.foldlM (addItem lib) loaded = .ok loaded') :
    ∃ new, loaded' = loaded ++ new ∧
      List.Forall₂ (LoadedFor lib) items (new.map Prod.snd) := by
  induction items generalizing loaded with
  | nil =>
    obtain rfl := Except.ok.inj h
    exact ⟨[], (List.append_nil _).symm, .nil⟩
  | cons item items ih =>
    rw [List.foldlM_cons] at h
    obtain ⟨loaded₁, hitem, h⟩ := bind_eq_ok.mp h
    obtain ⟨file, entry, rule, rfl, hrule, -, -, rfl⟩ := addItem_eq_ok.mp hitem
    obtain ⟨new, rfl, hnew⟩ := ih h
    refine ⟨(file, rule) :: new, List.append_assoc _ _ _, ?_⟩
    exact .cons ⟨file, entry, rfl, hrule⟩ hnew

/-- **The loop returns exactly if the entries read, with ids that are new.** -/
theorem isOk_foldlM_addItem : (items.foldlM (addItem lib) loaded).isOk = true ↔
    AllRead lib items ∧ ∀ old ∈ loaded, ∀ item ∈ items, old.2.id.equals (itemId item) = false := by
  induction items generalizing loaded with
  | nil => exact iff_of_true rfl ⟨⟨fun _ h => (nomatch h), .nil⟩, fun _ _ _ h => (nomatch h)⟩
  | cons item items ih =>
    rw [List.foldlM_cons, isOk_bind]
    constructor
    · rintro ⟨loaded₁, hitem, h⟩
      obtain ⟨file, entry, rule, rfl, hrule, hhash, hnew, rfl⟩ := addItem_eq_ok.mp hitem
      obtain ⟨hread, hdistinct⟩ := ih.mp h
      have hid := id_of_buildDocumentRule hrule
      refine ⟨⟨List.forall_mem_cons.mpr ⟨?_, hread.reads⟩, List.pairwise_cons.mpr ⟨?_,
        hread.distinct⟩⟩, fun old hold => List.forall_mem_cons.mpr ⟨hid ▸ hnew old hold, ?_⟩⟩
      · exact itemReads_iff.mpr ⟨file, entry, rule, rfl, hrule, hhash⟩
      · exact fun later hlater => hid ▸
          hdistinct (file, rule) (List.mem_append_right _ List.mem_cons_self) later hlater
      · exact hdistinct old (List.mem_append_left _ hold)
    · rintro ⟨⟨hreads, hdistinct⟩, hnew⟩
      obtain ⟨hitem, hrest⟩ := List.forall_mem_cons.mp hreads
      obtain ⟨hfirst, hothers⟩ := List.pairwise_cons.mp hdistinct
      obtain ⟨file, entry, rule, rfl, hrule, hhash⟩ := itemReads_iff.mp hitem
      have hid := id_of_buildDocumentRule hrule
      refine ⟨loaded ++ [(file, rule)], addItem_eq_ok.mpr ⟨file, entry, rule, rfl, hrule, hhash,
        fun old hold => hid ▸ hnew old hold _ List.mem_cons_self, rfl⟩, ih.mpr ⟨⟨hrest, hothers⟩,
        fun old hold later hlater => ?_⟩⟩
      obtain hold | hold := List.mem_append.mp hold
      · exact hnew old hold later (List.mem_cons_of_mem _ hlater)
      · obtain rfl := List.mem_singleton.mp hold
        exact hid ▸ hfirst later hlater

/-- …and from the start if they read, with ids that differ. -/
theorem isOk_foldlM_addItem_nil :
    (items.foldlM (addItem lib) []).isOk = true ↔ AllRead lib items :=
  isOk_foldlM_addItem.trans (and_iff_left fun _ h => (nomatch h))

/-- A rule has an id exactly if an item has it. -/
theorem exists_equals_iff {rules : List DocumentRule} {id : Json}
    (h : List.Forall₂ (LoadedFor lib) items rules) :
    (∃ rule ∈ rules, rule.id.equals id = true) ↔
      ∃ earlier ∈ items, (itemId earlier).equals id = true := by
  induction h with
  | nil => exact ⟨fun ⟨_, h, _⟩ => (nomatch h), fun ⟨_, h, _⟩ => (nomatch h)⟩
  | cons hfirst _ ih => rw [List.exists_mem_cons_iff, List.exists_mem_cons_iff, ih, hfirst.id_eq]

/-- An id is taken if an item before it has it. -/
theorem exists_loaded_equals_iff (h : items.foldlM (addItem lib) [] = .ok loaded) {id : Json} :
    (∃ old ∈ loaded, old.2.id.equals id = true) ↔
      ∃ earlier ∈ items, (itemId earlier).equals id = true := by
  obtain ⟨new, rfl, hnew⟩ := foldlM_addItem_eq_ok h
  rw [← exists_equals_iff hnew]
  simp only [List.mem_map, exists_exists_and_eq_and]

/-- **The loop ends in a `RuleLoadError` exactly if it stops at an entry that is reported.** -/
theorem reports_foldlM_addItem :
    Reports (items.foldlM (addItem lib) []) ↔ StopsReported lib items := by
  constructor
  · rintro ⟨message, h⟩
    obtain ⟨before, item, after, loaded', rfl, hbefore, h⟩ := foldlM_eq_error.mp h
    refine ⟨before, item, after, rfl, isOk_foldlM_addItem_nil.mp (isOk_iff.mpr ⟨_, hbefore⟩), ?_⟩
    obtain h | ⟨hreads, hold⟩ := reports_addItem.mp ⟨message, h⟩
    · exact Or.inl h
    · exact Or.inr ⟨hreads, (exists_loaded_equals_iff hbefore).mp hold⟩
  · rintro ⟨before, item, after, rfl, hbefore, h⟩
    obtain ⟨loaded', hbefore⟩ := exists_eq_ok (isOk_foldlM_addItem_nil.mpr hbefore)
    rw [← exists_loaded_equals_iff hbefore] at h
    obtain ⟨message, h⟩ := reports_addItem.mpr h
    exact ⟨message, foldlM_eq_error.mpr ⟨before, item, after, loaded', rfl, hbefore, h⟩⟩

end Run

/-! ## The pack -/

variable (lib)

/-- `VERSION`, if there is one, is a text. -/
def VersionReads (d : RuleDirectory) : Prop :=
  ∀ raw ∈ d.version, (Utf8.decodeStrict raw).isSome = true

/-- The corpus, if there is one, is a mapping with a mapping of values to iterate. -/
def CorpusReads (d : RuleDirectory) : Prop :=
  ∀ raw ∈ d.falsePositives, ∃ text document fields groups, readText raw = .ok text ∧
    lib.yaml text = .ok document ∧ document.orElse (.obj []) = .obj fields ∧
    (Dict.get? fields "known_benign").getD (.obj []) = .obj groups ∧
    ∀ group ∈ Json.items groups, group.2.iter.isOk = true

/-- **What loading promises**: a pack whose rules are what was written, or a `RuleLoadError`. -/
def LoadsHonestly (d : RuleDirectory) : Prop :=
  Reports (loadDocuments lib d) ∨ ∃ pack, loadDocuments lib d = .ok pack ∧
    List.Forall₂ (fun item rule => ∃ file fields, item = .ok (file, .obj fields) ∧
      RuleAsWritten fields rule) (readingOrder lib d) pack.rules

variable {lib} {d : RuleDirectory}

theorem isOk_documentVersion : (documentVersion lib d).isOk = true ↔ VersionReads d := by
  unfold documentVersion VersionReads
  cases d.version with
  | none => exact iff_of_true rfl fun raw h => (nomatch h)
  | some raw =>
    have hread : ((readText raw).map fun text => String.ofList (strip lib.unicode.space text)).isOk
        = true ↔ (Utf8.decodeStrict raw).isSome = true := by
      unfold readText decodeText
      cases Utf8.decodeStrict raw <;> exact Iff.rfl
    exact hread.trans ⟨fun h raw' hraw' => Option.some.inj hraw' ▸ h, fun h => h raw rfl⟩

theorem isOk_documentCorpus : (documentCorpus lib d).isOk = true ↔ CorpusReads lib d := by
  unfold documentCorpus CorpusReads
  cases d.falsePositives with
  | none => exact iff_of_true rfl fun raw h => (nomatch h)
  | some raw =>
    constructor
    · intro h raw' hraw'
      obtain rfl := Option.some.inj hraw'
      obtain ⟨values, h⟩ := exists_eq_ok h
      obtain ⟨text, htext, h⟩ := bind_eq_ok.mp h
      obtain ⟨document, hdocument, h⟩ := bind_eq_ok.mp h
      obtain ⟨known, hknown, h⟩ := bind_eq_ok.mp h
      obtain ⟨groups, hgroups, h⟩ := bind_eq_ok.mp h
      obtain ⟨values, hvalues, -⟩ := bind_eq_ok.mp h
      cases hobj : document.orElse (.obj []) with
      | obj fields =>
        rw [hobj] at hknown
        obtain rfl := Except.ok.inj hknown
        cases hbenign : (Dict.get? fields "known_benign").getD (.obj []) with
        | obj groups' =>
          rw [hbenign] at hgroups
          obtain rfl := Except.ok.inj hgroups
          refine ⟨text, document, fields, groups', htext, hdocument, hobj, hbenign, ?_⟩
          exact fun group hgroup => isOk_mapM.mp (isOk_iff.mpr ⟨_, hvalues⟩) group.2
            (List.mem_map_of_mem hgroup)
        | _ =>
          rw [hbenign] at hgroups
          cases hgroups
      | _ =>
        rw [hobj] at hknown
        cases hknown
    · intro h
      obtain ⟨text, document, fields, groups, htext, hdocument, hobj, hbenign, hgroups⟩ := h raw rfl
      refine isOk_bind.mpr ⟨text, htext, isOk_bind.mpr ⟨document, hdocument, ?_⟩⟩
      refine isOk_bind.mpr ⟨.obj groups, ?_, isOk_bind.mpr ⟨_, rfl, ?_⟩⟩
      · rw [hobj, ← hbenign]
        rfl
      · refine (isOk_bind_of_forall fun _ => rfl).mpr (isOk_mapM.mpr fun v hv => ?_)
        obtain ⟨group, hgroup, rfl⟩ := List.mem_map.mp hv
        exact hgroups group hgroup

/-- The rules are as they were written exactly if the entries are written as they must be. -/
theorem forall₂_asWritten_iff {items : List ReadItem} {rules : List DocumentRule}
    (h : List.Forall₂ (LoadedFor lib) items rules) :
    List.Forall₂ (fun item rule => ∃ file fields, item = .ok (file, .obj fields) ∧
        RuleAsWritten fields rule) items rules ↔
      ∀ item ∈ items, ∀ file fields, item = .ok (file, .obj fields) → EntryWritten lib fields := by
  induction h with
  | nil => exact iff_of_true .nil fun item h => (nomatch h)
  | cons hfirst _ ih =>
    rw [List.forall₂_cons, List.forall_mem_cons, ih]
    refine and_congr_left fun _ => ?_
    obtain ⟨file, entry, rfl, hrule⟩ := hfirst
    obtain ⟨fields, rfl, -⟩ := isOk_buildDocumentRule.mp (isOk_iff.mpr ⟨_, hrule⟩)
    constructor
    · rintro ⟨file', fields', hitem, h⟩ file'' fields'' hitem'
      obtain ⟨-, rfl⟩ : file = file' ∧ fields = fields' := by simpa using hitem
      obtain ⟨-, rfl⟩ : file = file'' ∧ fields = fields'' := by simpa using hitem'
      exact (ruleAsWritten_iff hrule).mp h
    · intro h
      exact ⟨file, fields, rfl, (ruleAsWritten_iff hrule).mpr (h file fields rfl)⟩

/-- Every encoding of a pack that loads honestly is one that there is. -/
theorem LoadsHonestly.knownEncodings (h : LoadsHonestly lib d) {pack : DocumentPack}
    (hpack : loadDocuments lib d = .ok pack) {rule : DocumentRule} (hrule : rule ∈ pack.rules)
    {encoding : Json} (he : encoding ∈ rule.encodings) : encoding ∈ defaultEncodings := by
  obtain ⟨message, herror⟩ | ⟨pack', hpack', hall⟩ := h
  · rw [hpack] at herror
    cases herror
  · obtain rfl := Except.ok.inj (hpack.symm.trans hpack')
    obtain ⟨i, hi, rfl⟩ := List.mem_iff_getElem.mp hrule
    obtain ⟨file, fields, -, hwritten⟩ := hall.get (hall.length_eq ▸ hi) hi
    exact hwritten.knownEncodings encoding he

end Directory

/-- A rule with a scalar for its encodings. -/
def scalarRules : String :=
  "rules:\n- id: key\n  name: key\n  category: secret\n  severity: high\n" ++
    "  patterns: [hunter2-secret]\n  encodings: ascii\n"

/-- The libraries, on this document. -/
def scalarLibraries : DocumentLibraries where
  intOf _ := none
  floatOf _ := none
  yaml text :=
    if text = scalarRules.toList then
      .ok (.obj [("rules", .arr [.obj [("id", .str "key"), ("name", .str "key"),
        ("category", .str "secret"), ("severity", .str "high"),
        ("patterns", .arr [.str "hunter2-secret"]), ("encodings", .str "ascii")]])])
    else .error (.external "another document")
  compile expression :=
    if expression.toList.all fun c => c.isAlphanum || c == '-' then
      .ok { Regex.literal expression.toList with groups := 0, names := [] }
    else .error (.other (.external "another expression"))
  unicode := Unicode.ascii

end BareAnalysis
