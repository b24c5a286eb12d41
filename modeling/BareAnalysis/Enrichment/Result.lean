import BareAnalysis.Machinery.Fallible
import BareAnalysis.Machinery.Json
import Mathlib.Algebra.Order.Group.Int
import Mathlib.Algebra.Order.Ring.Int
import Mathlib.Algebra.Order.Group.Unbundled.Abs

/-!
# Enrichment/Result — what the Ghidra analyzer writes, read back

    result.json ──▸ GhidraResult ──▸ binaries ──▸ targets ──▸ references
                                         └── xref_functions : (staged path, offset) ↦ function

`core/analyzers/ghidra_result.py`.  A field that is missing has a default, one of the wrong shape
raises.  `Readable` says of a document, field by field and without reading it, that nothing raises.
-/

namespace BareAnalysis

/-! ## Numbers -/

/-- How the interpreter reads numerals. -/
structure Numerals where
  /-- `int(text)`. -/
  intOf : String → Option ℤ
  /-- `float(text)`; the inner `none` is a value that is not finite. -/
  floatOf : String → Option (Option ℚ)

/-- From here on an integer rounds to more than the largest float. -/
def floatLimit : ℤ := 2 ^ 1024 - 2 ^ 970

theorem floatLimit_pos : 0 < floatLimit :=
  sub_pos.mpr (pow_lt_pow_right₀ (by decide) (by decide))

section Numbers

variable (num : Numerals)

/-- `int(value)`. -/
def Json.toInt (v : Json) : Except PyError ℤ :=
  match v with
  | .int n => .ok n
  | .bool b => .ok (if b then 1 else 0)
  | .float q _ => .ok (q.num.tdiv q.den)
  | .nonFinite text =>
    if text = "nan" then .error (.valueError "cannot convert float NaN to integer")
    else .error (.overflowError "cannot convert float infinity to integer")
  | .str s =>
    match num.intOf s with
    | some n => .ok n
    | none => .error (.valueError ("invalid literal for int() with base 10: '" ++ s ++ "'"))
  | v => .error (.typeError ("int() argument must be a string, a bytes-like object or a real "
      ++ "number, not '" ++ v.typeName ++ "'"))

/-- `float(value)`, exactly; `none` if it is not finite. -/
def Json.toFloat (v : Json) : Except PyError (Option ℚ) :=
  match v with
  | .int n =>
    if |n| < floatLimit then .ok (some n)
    else .error (.overflowError "int too large to convert to float")
  | .bool b => .ok (some (if b then 1 else 0))
  | .float q _ => .ok (some q)
  | .nonFinite _ => .ok none
  | .str s =>
    match num.floatOf s with
    | some x => .ok x
    | none => .error (.valueError ("could not convert string to float: '" ++ s ++ "'"))
  | v => .error (.typeError ("float() argument must be a string or a real number, not '"
      ++ v.typeName ++ "'"))

end Numbers

/-! ## The document -/

/-- One place a flagged string is referenced from. -/
structure XrefSite where
  fromAddress : String
  referenceType : String
  function : Option String := none
  functionAddress : Option String := none
  context : Option String := none
  deriving DecidableEq, Repr

/-- One flagged string, and everywhere it is used. -/
structure XrefTarget where
  fileOffset : ℤ
  address : Option String := none
  found : Bool := false
  references : List XrefSite := []
  deriving DecidableEq, Repr

/-- The first named function, in Ghidra's address order. -/
def XrefTarget.bestFunction (t : XrefTarget) : Option String :=
  (t.references.filterMap (·.function)).find? (· != "")

/-- What happened to one binary in the tree. -/
structure BinaryResult where
  path : String
  status : String := "analyzed"
  reason : Option String := none
  language : Option String := none
  functionCount : ℤ := 0
  durationS : Option ℚ := some 0
  targets : List XrefTarget := []
  deriving DecidableEq, Repr

def BinaryResult.degraded (b : BinaryResult) : Bool := !(["analyzed", "skipped"].contains b.status)

/-- The whole `/output/result.json`. -/
structure GhidraResult where
  schemaVersion : ℤ := 1
  analyzer : String := "ghidra"
  ghidraVersion : String := "unknown"
  binaries : List BinaryResult := []
  truncated : Bool := false
  deriving DecidableEq, Repr

namespace GhidraResult

/-- `xref_functions`: `(staged path, file offset) -> function name`. -/
def xrefFunctions (result : GhidraResult) : Dict (String × ℤ) String :=
  result.binaries.flatMap fun binary => binary.targets.filterMap fun target =>
    target.bestFunction.map fun name => ((binary.path, target.fileOffset), name)

def degradedBinaries (result : GhidraResult) : List BinaryResult :=
  result.binaries.filter BinaryResult.degraded

end GhidraResult

/-! ## Reading it -/

/-- The entries of a list; `isinstance(raw, list)` fails on anything else. -/
def Json.listed : Json → List Json
  | .arr items => items
  | _ => []

section Read

variable (num : Numerals) (printable : Char → Bool)

/-- `str(value or default)`. -/
def textOr (v : Json) (default : String) : String := (v.orElse (.str default)).text printable

/-- `_optional_str`: the empty string and null both mean absent. -/
def optionalStr (v : Json) : Option String :=
  match v with
  | .null => none
  | v => if v.text printable = "" then none else some (v.text printable)

/-- `XrefSite.from_json`. -/
def XrefSite.fromJson (data : Json) : Except PyError XrefSite := do
  return {
    fromAddress := textOr printable (← data.getOrNull "from_address") ""
    referenceType := textOr printable (← data.getOrNull "reference_type") "UNKNOWN"
    function := optionalStr printable (← data.getOrNull "function")
    functionAddress := optionalStr printable (← data.getOrNull "function_address")
    context := optionalStr printable (← data.getOrNull "context") }

/-- `XrefTarget.from_json`. -/
def XrefTarget.fromJson (data : Json) : Except PyError XrefTarget := do
  let references ← (← data.getOrNull "references").listed.mapM (XrefSite.fromJson printable)
  let fileOffset ← ((← data.getOrNull "file_offset").orElse (.int 0)).toInt num
  let address := optionalStr printable (← data.getOrNull "address")
  return { fileOffset, address, found := (← data.getOrNull "found").truthy, references }

/-- `BinaryResult.from_json`. -/
def BinaryResult.fromJson (data : Json) : Except PyError BinaryResult := do
  let targets ← (← data.getOrNull "targets").listed.mapM (XrefTarget.fromJson num printable)
  let path := textOr printable (← data.getOrNull "path") ""
  let status := textOr printable (← data.getOrNull "status") "failed"
  let reason := optionalStr printable (← data.getOrNull "reason")
  let language := optionalStr printable (← data.getOrNull "language")
  let functionCount ← ((← data.getOrNull "function_count").orElse (.int 0)).toInt num
  let durationS ← ((← data.getOrNull "duration_s").orElse (.float 0 "0.0")).toFloat num
  return { path, status, reason, language, functionCount, durationS, targets }

/-- `GhidraResult.from_json`. -/
def GhidraResult.fromJson (data : Json) : Except PyError GhidraResult := do
  let binaries ← (← data.getOrNull "binaries").listed.mapM (BinaryResult.fromJson num printable)
  let tools := (← data.getOrNull "tool_versions").orElse (.obj [])
  let version := (← tools.getOrNull "ghidra").orElse (← data.getOrNull "ghidra_version")
  let schemaVersion ← ((← data.getOrNull "schema_version").orElse (.int 0)).toInt num
  let analyzer := textOr printable (← data.getOrNull "analyzer") "ghidra"
  return {
    schemaVersion, analyzer, binaries
    ghidraVersion := textOr printable version "unknown"
    truncated := (← data.getOrNull "truncated").truthy }

end Read

/-! ## What can be read -/

/-- `isinstance(value, dict)`. -/
def Json.IsObject (v : Json) : Prop := ∃ fields, v = .obj fields

/-- A field of an object; a missing one is `None`. -/
def Json.field (v : Json) (key : String) : Json :=
  match v with
  | .obj fields => (Dict.get? fields key).getD .null
  | _ => .null

section Readable

variable (num : Numerals)

/-- What `int(value or 0)` takes. -/
def IntReadable : Json → Prop
  | .null | .bool _ | .int _ | .float _ _ => True
  | .nonFinite _ => False
  | .str s => s = "" ∨ (num.intOf s).isSome
  | .arr items => items = []
  | .obj fields => fields = []

/-- What `float(value or 0.0)` takes. -/
def FloatReadable : Json → Prop
  | .null | .bool _ | .float _ _ | .nonFinite _ => True
  | .int n => |n| < floatLimit
  | .str s => s = "" ∨ (num.floatOf s).isSome
  | .arr items => items = []
  | .obj fields => fields = []

/-- A target: an object whose references are objects… -/
structure TargetReadable (v : Json) : Prop where
  isObject : v.IsObject
  fileOffset : IntReadable num (v.field "file_offset")
  references : ∀ r ∈ (v.field "references").listed, r.IsObject

/-- …a binary: an object whose targets can be read… -/
structure BinaryReadable (v : Json) : Prop where
  isObject : v.IsObject
  functionCount : IntReadable num (v.field "function_count")
  durationS : FloatReadable num (v.field "duration_s")
  targets : ∀ t ∈ (v.field "targets").listed, TargetReadable num t

/-- …and the document: an object whose binaries can be read. -/
structure Readable (v : Json) : Prop where
  isObject : v.IsObject
  schemaVersion : IntReadable num (v.field "schema_version")
  toolVersions : (v.field "tool_versions").truthy = true → (v.field "tool_versions").IsObject
  binaries : ∀ b ∈ (v.field "binaries").listed, BinaryReadable num b

end Readable

variable {num : Numerals} {printable : Char → Bool} {v : Json}

theorem Json.IsObject.getOrNull_eq (h : v.IsObject) (key : String) :
    v.getOrNull key = .ok (v.field key) := by
  obtain ⟨fields, rfl⟩ := h
  rfl

/-- Only an object has fields to get. -/
theorem Json.isObject_of_getOrNull_eq {key : String} {x : Json} (h : v.getOrNull key = .ok x) :
    v.IsObject := by
  cases v with
  | obj fields => exact ⟨fields, rfl⟩
  | _ => cases h

theorem Json.isOk_getOrNull_iff {key : String} : (v.getOrNull key).isOk = true ↔ v.IsObject := by
  rw [isOk_iff]
  exact ⟨fun ⟨_, hx⟩ => isObject_of_getOrNull_eq hx, fun h => ⟨_, h.getOrNull_eq key⟩⟩

/-- `int(value or 0)` returns on what it takes. -/
theorem isOk_toInt_iff : ((v.orElse (.int 0)).toInt num).isOk = true ↔ IntReadable num v := by
  cases v with
  | null => exact iff_of_true rfl trivial
  | bool b => cases b <;> exact iff_of_true rfl trivial
  | int n =>
    rw [Json.orElse]
    split <;> exact iff_of_true rfl trivial
  | float q text =>
    rw [Json.orElse]
    split <;> exact iff_of_true rfl trivial
  | nonFinite text =>
    refine iff_of_false ?_ id
    rw [Json.truthy_orElse_left rfl, Json.toInt]
    split <;> exact Bool.false_ne_true
  | str s =>
    by_cases hs : s = ""
    · rw [hs]
      exact iff_of_true rfl (Or.inl rfl)
    · rw [Json.truthy_orElse_left (by simpa [Json.truthy] using hs), Json.toInt, IntReadable,
        or_iff_right hs]
      cases num.intOf s <;> simp [Except.isOk, Except.toBool]
  | arr items =>
    cases items with
    | nil => exact iff_of_true rfl rfl
    | cons x xs => exact iff_of_false Bool.false_ne_true (List.cons_ne_nil x xs)
  | obj fields =>
    cases fields with
    | nil => exact iff_of_true rfl rfl
    | cons x xs => exact iff_of_false Bool.false_ne_true (List.cons_ne_nil x xs)

/-- `float(value or 0.0)` returns on what it takes. -/
theorem isOk_toFloat_iff :
    ((v.orElse (.float 0 "0.0")).toFloat num).isOk = true ↔ FloatReadable num v := by
  cases v with
  | null => exact iff_of_true rfl trivial
  | bool b => cases b <;> exact iff_of_true rfl trivial
  | int n =>
    by_cases hn : n = 0
    · rw [hn]
      refine iff_of_true rfl ?_
      rw [FloatReadable, abs_zero]
      exact floatLimit_pos
    · rw [Json.truthy_orElse_left (by simpa [Json.truthy] using hn), Json.toFloat, FloatReadable]
      split <;> simp_all [Except.isOk, Except.toBool]
  | float q text =>
    rw [Json.orElse]
    split <;> exact iff_of_true rfl trivial
  | nonFinite text => exact iff_of_true rfl trivial
  | str s =>
    by_cases hs : s = ""
    · rw [hs]
      exact iff_of_true rfl (Or.inl rfl)
    · rw [Json.truthy_orElse_left (by simpa [Json.truthy] using hs), Json.toFloat, FloatReadable,
        or_iff_right hs]
      cases num.floatOf s <;> simp [Except.isOk, Except.toBool]
  | arr items =>
    cases items with
    | nil => exact iff_of_true rfl rfl
    | cons x xs => exact iff_of_false Bool.false_ne_true (List.cons_ne_nil x xs)
  | obj fields =>
    cases fields with
    | nil => exact iff_of_true rfl rfl
    | cons x xs => exact iff_of_false Bool.false_ne_true (List.cons_ne_nil x xs)

/-! ## Reading returns exactly on what can be read -/

theorem isOk_xrefSite_iff : (XrefSite.fromJson printable v).isOk = true ↔ v.IsObject := by
  constructor
  · intro h
    obtain ⟨x, hx, -⟩ := isOk_bind.mp h
    exact Json.isObject_of_getOrNull_eq hx
  · rintro ⟨fields, rfl⟩
    rfl

theorem isOk_xrefTarget_iff :
    (XrefTarget.fromJson num printable v).isOk = true ↔ TargetReadable num v := by
  have hread : v.IsObject → ((XrefTarget.fromJson num printable v).isOk = true ↔
      (∀ r ∈ (v.field "references").listed, r.IsObject) ∧
        IntReadable num (v.field "file_offset")) := by
    intro hobj
    rw [XrefTarget.fromJson]
    simp only [hobj.getOrNull_eq, ok_bind]
    rw [isOk_bind_iff fun _ => isOk_bind_of_forall fun _ => rfl, isOk_mapM, isOk_toInt_iff]
    simp only [isOk_xrefSite_iff]
  constructor
  · intro h
    obtain ⟨x, hx, -⟩ := isOk_bind.mp h
    have hobj := Json.isObject_of_getOrNull_eq hx
    obtain ⟨hrefs, hoffset⟩ := (hread hobj).mp h
    exact ⟨hobj, hoffset, hrefs⟩
  · rintro ⟨hobj, hoffset, hrefs⟩
    exact (hread hobj).mpr ⟨hrefs, hoffset⟩

theorem isOk_binaryResult_iff :
    (BinaryResult.fromJson num printable v).isOk = true ↔ BinaryReadable num v := by
  have hread : v.IsObject → ((BinaryResult.fromJson num printable v).isOk = true ↔
      (∀ t ∈ (v.field "targets").listed, TargetReadable num t) ∧
        IntReadable num (v.field "function_count") ∧ FloatReadable num (v.field "duration_s")) := by
    intro hobj
    rw [BinaryResult.fromJson]
    simp only [hobj.getOrNull_eq, ok_bind]
    rw [isOk_bind_iff fun _ => isOk_bind_iff fun _ => isOk_bind_of_forall fun _ => rfl,
      isOk_mapM, isOk_toInt_iff, isOk_toFloat_iff]
    simp only [isOk_xrefTarget_iff]
  constructor
  · intro h
    obtain ⟨x, hx, -⟩ := isOk_bind.mp h
    have hobj := Json.isObject_of_getOrNull_eq hx
    obtain ⟨htargets, hcount, hduration⟩ := (hread hobj).mp h
    exact ⟨hobj, hcount, hduration, htargets⟩
  · rintro ⟨hobj, hcount, hduration, htargets⟩
    exact (hread hobj).mpr ⟨htargets, hcount, hduration⟩

/-- **A document is read exactly when it is readable.** -/
theorem isOk_ghidraResult_iff :
    (GhidraResult.fromJson num printable v).isOk = true ↔ Readable num v := by
  have hread : v.IsObject → ((GhidraResult.fromJson num printable v).isOk = true ↔
      (∀ b ∈ (v.field "binaries").listed, BinaryReadable num b) ∧
        ((v.field "tool_versions").orElse (.obj [])).IsObject ∧
          IntReadable num (v.field "schema_version")) := by
    intro hobj
    rw [GhidraResult.fromJson]
    simp only [hobj.getOrNull_eq, ok_bind]
    rw [isOk_bind_iff fun _ => isOk_bind_iff fun _ => isOk_bind_of_forall fun _ => rfl,
      isOk_mapM, isOk_toInt_iff]
    simp only [isOk_binaryResult_iff, Json.isOk_getOrNull_iff]
  constructor
  · intro h
    obtain ⟨x, hx, -⟩ := isOk_bind.mp h
    have hobj := Json.isObject_of_getOrNull_eq hx
    obtain ⟨hbinaries, htools, hschema⟩ := (hread hobj).mp h
    exact ⟨hobj, hschema, fun h => Json.truthy_orElse_left h ▸ htools, hbinaries⟩
  · rintro ⟨hobj, hschema, htools, hbinaries⟩
    refine (hread hobj).mpr ⟨hbinaries, ?_, hschema⟩
    by_cases h : (v.field "tool_versions").truthy = true
    · rw [Json.truthy_orElse_left h]
      exact htools h
    · rw [Json.orElse_of_not_truthy (by simpa using h)]
      exact ⟨[], rfl⟩

end BareAnalysis
