import BareAnalysis.Machinery.Scalars

/-!
# Machinery/JsonText — `json.loads`, and what it raises

    {"a": [1, "b"]} rest   ──reads a value──▸   its value, and what is left: rest

The decoder reads a value off the front of a text.  Objects and arrays are read level by level, as
far as the interpreter's stack goes; what a text cannot be is an error of its own kind, so that a
caller who catches one is seen to let the others pass.
-/

namespace BareAnalysis

/-- What `json.loads` raises. -/
inductive LoadsError
  /-- `JSONDecodeError`. -/
  | decode
  /-- Another `ValueError`: a number with too many digits. -/
  | value (message : String)
  /-- `RecursionError`. -/
  | recursion
  deriving DecidableEq, Repr

/-- What a decoder takes from the interpreter. -/
structure Decoder where
  /-- How many arrays and objects may be open. -/
  levels : ℕ
  /-- `sys.get_int_max_str_digits()`. -/
  maxDigits : ℕ := 4300
  /-- `float(text)`. -/
  float : List Char → Json

namespace Decoder

/-- A reader takes a value off the front of a text. -/
abbrev Reader (α : Type) := List Char → Except LoadsError (α × List Char)

/-- The white space of JSON. -/
def isBlank (c : Char) : Bool := c == ' ' || c == '\t' || c == '\n' || c == '\r'

def skipBlanks (s : List Char) : List Char := s.dropWhile isBlank

/-! ## Strings -/

/-- Up to the closing quote: what stands ahead of it, as written, and what follows it. -/
def scanString : List Char → Option (List Char × List Char)
  | [] => none
  | c :: s =>
    if c = '"' then some ([], s)
    else if c = '\\' then
      match s with
      | [] => none
      | e :: s => (scanString s).map fun found => (c :: e :: found.1, found.2)
    else if c.toNat < 32 then none
    else (scanString s).map fun found => (c :: found.1, found.2)

/-- The escapes of one character. -/
def escaped? : Char → Option Char
  | '"' => some '"'
  | '\\' => some '\\'
  | '/' => some '/'
  | 'b' => some '\x08'
  | 'f' => some '\x0c'
  | 'n' => some '\n'
  | 'r' => some '\r'
  | 't' => some '\t'
  | _ => none

/-- The characters of a string, and the codes that were written out. -/
def unescape : List Char → Option (List (Char ⊕ ℕ))
  | [] => some []
  | c :: s =>
    if c ≠ '\\' then (unescape s).map (.inl c :: ·)
    else
      match s with
      | [] => none
      | 'u' :: s =>
        match s with
        | h₁ :: h₂ :: h₃ :: h₄ :: s => do
          let code ← [h₁, h₂, h₃, h₄].foldlM (fun n h => (hexValue? h).map (16 * n + ·)) 0
          return .inr code :: (← unescape s)
        | _ => none
      | e :: s => do return .inl (← escaped? e) :: (← unescape s)

/-- The character of a code; half of a pair is no character. -/
def codeChar (n : ℕ) : Char := if 0xD800 ≤ n ∧ n ≤ 0xDFFF then '\uFFFD' else Char.ofNat n

/-- Codes of a pair are one character. -/
def joinCodes : List (Char ⊕ ℕ) → List Char
  | [] => []
  | .inl c :: units => c :: joinCodes units
  | .inr high :: .inr low :: units =>
    if 0xD800 ≤ high ∧ high ≤ 0xDBFF ∧ 0xDC00 ≤ low ∧ low ≤ 0xDFFF then
      Char.ofNat (0x10000 + (high - 0xD800) * 0x400 + (low - 0xDC00)) :: joinCodes units
    else codeChar high :: joinCodes (.inr low :: units)
  | .inr n :: units => codeChar n :: joinCodes units

/-- A string, after its opening quote. -/
def readString : Reader String := fun s =>
  match scanString s with
  | none => .error .decode
  | some (raw, rest) =>
    match unescape raw with
    | none => .error .decode
    | some units => .ok (String.ofList (joinCodes units), rest)

/-! ## Numbers -/

/-- `0`, or digits that do not begin with it. -/
def scanWhole : List Char → Option (List Char × List Char)
  | '0' :: s => some (['0'], s)
  | s =>
    if s.takeWhile Char.isDigit = [] then none
    else some (s.takeWhile Char.isDigit, s.dropWhile Char.isDigit)

/-- Digits after a mark, or nothing. -/
def scanDigitsAfter (mark s : List Char) : List Char × List Char :=
  if s.takeWhile Char.isDigit = [] then ([], mark ++ s)
  else (mark ++ s.takeWhile Char.isDigit, s.dropWhile Char.isDigit)

def scanFraction : List Char → List Char × List Char
  | '.' :: s => scanDigitsAfter ['.'] s
  | s => ([], s)

def scanExponent : List Char → List Char × List Char
  | e :: s =>
    if e = 'e' ∨ e = 'E' then
      match s with
      | '+' :: s => scanDigitsAfter [e, '+'] s
      | '-' :: s => scanDigitsAfter [e, '-'] s
      | s => scanDigitsAfter [e] s
    else ([], e :: s)
  | [] => ([], [])

/-- A number: its sign, its digits ahead of the point, the rest of it, and what follows it. -/
def scanNumber (s : List Char) : Option (List Char × List Char × List Char × List Char) :=
  let (sign, s) := match s with
    | '-' :: s => (['-'], s)
    | s => ([], s)
  (scanWhole s).map fun (whole, s) =>
    let (fraction, s) := scanFraction s
    let (exponent, s) := scanExponent s
    (sign, whole, fraction ++ exponent, s)

/-- The number that digits stand for. -/
def ofDigits (digits : List Char) : ℕ := digits.foldl (fun n c => 10 * n + (c.toNat - 48)) 0

def literals : List (String × Json) :=
  [("null", .null), ("true", .bool true), ("false", .bool false), ("NaN", .nonFinite "nan"),
    ("Infinity", .nonFinite "inf"), ("-Infinity", .nonFinite "-inf")]

variable (d : Decoder)

/-- A literal or a number. -/
def readScalar : Reader Json := fun s =>
  match literals.find? fun literal => literal.1.toList.isPrefixOf s with
  | some (text, v) => .ok (v, s.drop text.toList.length)
  | none =>
    match scanNumber s with
    | none => .error .decode
    | some (sign, whole, more, rest) =>
      if more ≠ [] then .ok (d.float (sign ++ whole ++ more), rest)
      else if d.maxDigits < whole.length then
        .error (.value ("Exceeds the limit (" ++ toString d.maxDigits
          ++ " digits) for integer string conversion"))
      else .ok (.int (if sign = [] then ofDigits whole else -(ofDigits whole : ℤ)), rest)

/-! ## Values -/

/-- The items of an array from its first on; no more of them than there are characters. -/
def readItems (value : Reader Json) : ℕ → Reader (List Json)
  | 0, _ => .error .decode
  | fuel + 1, s => do
    let (v, s) ← value s
    match skipBlanks s with
    | ',' :: s => do
      let (vs, s) ← readItems value fuel (skipBlanks s)
      return (v :: vs, s)
    | ']' :: s => return ([v], s)
    | _ => .error .decode

/-- An array, after its bracket. -/
def readArray (value : Reader Json) : Reader Json := fun s =>
  match skipBlanks s with
  | ']' :: s => .ok (.arr [], s)
  | s => do
    let (items, rest) ← readItems value s.length s
    return (.arr items, rest)

/-- The members of an object from its first on. -/
def readMembers (value : Reader Json) : ℕ → Reader (List (String × Json))
  | 0, _ => .error .decode
  | fuel + 1, '"' :: s => do
    let (key, s) ← readString s
    match skipBlanks s with
    | ':' :: s => do
      let (v, s) ← value (skipBlanks s)
      match skipBlanks s with
      | ',' :: s => do
        let (fields, s) ← readMembers value fuel (skipBlanks s)
        return ((key, v) :: fields, s)
      | '}' :: s => return ([(key, v)], s)
      | _ => .error .decode
    | _ => .error .decode
  | _ + 1, _ => .error .decode

/-- An object, after its brace. -/
def readObject (value : Reader Json) : Reader Json := fun s =>
  match skipBlanks s with
  | '}' :: s => .ok (.obj [], s)
  | s => do
    let (fields, rest) ← readMembers value s.length s
    return (.obj fields, rest)

/-- A value, given how arrays and objects are read. -/
def readWith (array object : Reader Json) : Reader Json := fun s =>
  match s with
  | '"' :: s => do
    let (text, rest) ← readString s
    return (.str text, rest)
  | '[' :: s => array s
  | '{' :: s => object s
  | s => d.readScalar s

/-- A value with so many levels to go. -/
def readValue : ℕ → Reader Json
  | 0 => d.readWith (fun _ => .error .recursion) fun _ => .error .recursion
  | levels + 1 => d.readWith (readArray (readValue levels)) (readObject (readValue levels))

/-- `json.loads`. -/
def loads (s : List Char) : Except LoadsError Json :=
  if s.head? = some '\uFEFF' then .error .decode
  else do
    let (v, rest) ← d.readValue d.levels (skipBlanks s)
    if skipBlanks rest = [] then return v else .error .decode

/-- A decoder for texts without floats. -/
def plain : Decoder where
  levels := 900
  float _ := .null

example : (plain.readValue 2 "[1, [-20, \"\\u00e9\"]]]".toList).map Prod.snd = .ok [']'] := by
  decide +kernel

end Decoder

end BareAnalysis
