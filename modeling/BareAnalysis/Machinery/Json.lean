import BareAnalysis.Machinery.Dict
import Mathlib.Algebra.Group.Nat.Defs
import Mathlib.Data.List.Infix
import Mathlib.Data.Rat.Defs

/-!
# Machinery/Json — decoded JSON values and how Python code reads them

`json.loads` gives values of any shape, and the code reads them with `payload.get(key, default)`,
`node[key]`, `or` and `for … in`.  Each reader is fallible the way the interpreter is: a value of
the wrong shape raises.
-/

namespace BareAnalysis

/-- The exceptions the modelled code raises or lets through, with their message. -/
inductive PyError
  | lookupError (message : String)
  | keyError (key : String)
  | attributeError (message : String)
  | typeError (message : String)
  | valueError (message : String)
  | overflowError (message : String)
  /-- Raised outside the code under `src`: the driver, the disk, the store. -/
  | external (message : String)
  /-- Raised by a flush: the session takes no further statement. -/
  | database (message : String)
  deriving DecidableEq, Repr

/-- `str(exc)`. -/
def PyError.message : PyError → String
  | lookupError m | attributeError m | typeError m | valueError m | overflowError m | external m
  | database m => m
  | keyError key => "'" ++ key ++ "'"

/-- A decoded JSON value; a float keeps the text Python prints for it. -/
inductive Json
  | null
  | bool (b : Bool)
  | int (n : ℤ)
  | float (q : ℚ) (repr : String)
  /-- `NaN` and the infinities, which `json.loads` accepts. -/
  | nonFinite (repr : String)
  | str (s : String)
  | arr (items : List Json)
  | obj (fields : List (String × Json))
  deriving Repr

namespace Json

instance : Inhabited Json := ⟨null⟩

/-- `type(value).__name__`. -/
def typeName : Json → String
  | null => "NoneType"
  | bool _ => "bool"
  | int _ => "int"
  | float _ _ | nonFinite _ => "float"
  | str _ => "str"
  | arr _ => "list"
  | obj _ => "dict"

/-- `bool(value)`. -/
def truthy : Json → Bool
  | null => false
  | bool b => b
  | int n => n != 0
  | float q _ => q != 0
  | nonFinite _ => true
  | str s => s != ""
  | arr items => !items.isEmpty
  | obj fields => !fields.isEmpty

/-- `value or default`. -/
def orElse (v d : Json) : Json := if v.truthy then v else d

/-- `value.get(key)`, `none` for a missing key. -/
def get? (v : Json) (key : String) : Except PyError (Option Json) :=
  match v with
  | obj fields => .ok (Dict.get? fields key)
  | v => .error (.attributeError ("'" ++ v.typeName ++ "' object has no attribute 'get'"))

/-- `value.get(key, default)`. -/
def getD (v : Json) (key : String) (default : Json) : Except PyError Json :=
  return (← v.get? key).getD default

/-- `value[key]`. -/
def index (v : Json) (key : String) : Except PyError Json :=
  match v with
  | obj fields =>
    match Dict.get? fields key with
    | some x => .ok x
    | none => .error (.keyError key)
  | arr _ => .error (.typeError "list indices must be integers or slices, not str")
  | str _ => .error (.typeError "string indices must be integers, not 'str'")
  | v => .error (.typeError ("'" ++ v.typeName ++ "' object is not subscriptable"))

/-- `value.items()` of a dictionary: a key assigned twice keeps its first place and its last value. -/
def items (fields : List (String × Json)) : List (String × Json) :=
  (fields.map Prod.fst).reverse.dedup.reverse.filterMap fun key =>
    (Dict.get? fields key).map fun value => (key, value)

/-- `for item in value`: a string gives its characters, a dictionary its keys. -/
def iter (v : Json) : Except PyError (List Json) :=
  match v with
  | arr items => .ok items
  | str s => .ok (s.toList.map fun c => str (String.singleton c))
  | obj fields => .ok ((items fields).map fun kv => str kv.1)
  | v => .error (.typeError ("'" ++ v.typeName ++ "' object is not iterable"))

/-- `len(value)`. -/
def len (v : Json) : Except PyError ℕ :=
  match v with
  | arr items => .ok items.length
  | str s => .ok s.toList.length
  | obj fields => .ok (fields.map Prod.fst).dedup.length
  | v => .error (.typeError ("object of type '" ++ v.typeName ++ "' has no len()"))

/-- A value a `str` column takes. -/
def asStr (v : Json) : Except PyError String :=
  match v with
  | str s => .ok s
  | v => .error (.typeError ("expected str instance, " ++ v.typeName ++ " found"))

/-- A value a nullable `str` column takes. -/
def asStr? (v : Json) : Except PyError (Option String) :=
  match v with
  | null => .ok none
  | v => v.asStr.map some

/-- A value an integer column takes. -/
def asInteger (v : Json) : Except PyError ℤ :=
  match v with
  | int n => .ok n
  | v => .error (.typeError ("expected int, " ++ v.typeName ++ " found"))

/-- A value a nullable integer column takes. -/
def asInteger? (v : Json) : Except PyError (Option ℤ) :=
  match v with
  | null => .ok none
  | v => v.asInteger.map some

/-- A value a nullable float column takes. -/
def asNumber? (v : Json) : Except PyError (Option ℚ) :=
  match v with
  | null => .ok none
  | int n => .ok (some n)
  | float q _ => .ok (some q)
  | v => .error (.typeError ("expected float, " ++ v.typeName ++ " found"))

/-- The entries `{**value}` copies. -/
def asMapping (v : Json) : Except PyError (Dict String Json) :=
  match v with
  | obj fields => .ok fields
  | v => .error (.typeError ("'" ++ v.typeName ++ "' object is not a mapping"))

/-- `value.get(key)` where a missing key reads as `None`. -/
def getOrNull (v : Json) (key : String) : Except PyError Json := v.getD key null

/-- `value == text`. -/
def isText (v : Json) (text : String) : Bool :=
  match v with
  | str s => s == text
  | _ => false

/-- The number a boolean, an integer or a float stands for. -/
def number? : Json → Option ℚ
  | bool b => some (if b then 1 else 0)
  | int n => some n
  | float q _ => some q
  | _ => none

mutual

/-- `value == other`: numbers by value, dictionaries whatever the order of their keys. -/
def equals : Json → Json → Bool
  | null, null => true
  | str s, str t => s == t
  | nonFinite s, nonFinite t => s != "nan" && s == t
  | arr items, arr items' => equalsItems items items'
  | obj fields, obj fields' =>
    equalsFields fields fields' && fields'.all fun kv => (Dict.get? fields kv.1).isSome
  | v, w =>
    match v.number?, w.number? with
    | some p, some q => p == q
    | _, _ => false

/-- …item by item… -/
def equalsItems : List Json → List Json → Bool
  | [], [] => true
  | v :: vs, w :: ws => equals v w && equalsItems vs ws
  | _, _ => false

/-- …or key by key; of a key assigned twice the last value counts. -/
def equalsFields : List (String × Json) → List (String × Json) → Bool
  | [], _ => true
  | (key, v) :: rest, fields' =>
    ((Dict.get? rest key).isSome || (match Dict.get? fields' key with
      | some w => equals v w
      | none => false)) && equalsFields rest fields'

end

/-- `item in value`. -/
def contains (v item : Json) : Except PyError Bool :=
  match v, item with
  | obj fields, str key => .ok (Dict.get? fields key).isSome
  | obj _, arr _ | obj _, obj _ =>
    .error (.typeError ("unhashable type: '" ++ item.typeName ++ "'"))
  | obj _, _ => .ok false
  | arr items, item => .ok (items.any item.equals)
  | str s, str t => .ok (decide (t.toList <:+: s.toList))
  | str _, item => .error (.typeError ("'in <string>' requires string as left operand, not "
      ++ item.typeName))
  | v, _ => .error (.typeError ("argument of type '" ++ v.typeName ++ "' is not iterable"))

/-! ## Depth -/

mutual

/-- How deep values nest. -/
def depth : Json → ℕ
  | arr items => depthItems items + 1
  | obj fields => depthFields fields + 1
  | _ => 1

/-- …in a list… -/
def depthItems : List Json → ℕ
  | [] => 0
  | v :: vs => max (depth v) (depthItems vs)

/-- …and in the fields of a dictionary. -/
def depthFields : List (String × Json) → ℕ
  | [] => 0
  | (_, v) :: rest => max (depth v) (depthFields rest)

end

/-! ## Texts -/

section Text

variable (printable : Char → Bool)

/-- The lower-case hexadecimal digits of a code point. -/
def hexText (width n : ℕ) : String :=
  String.ofList ((List.range width).reverse.map fun i => Nat.digitChar (n / 16 ^ i % 16))

/-- One character of a quoted text; past ASCII it depends on what the interpreter can print. -/
def quoteChar (mark c : Char) : String :=
  if c = mark ∨ c = '\\' then "\\" ++ String.singleton c
  else if c = '\t' then "\\t"
  else if c = '\n' then "\\n"
  else if c = '\r' then "\\r"
  else if c.toNat < 32 ∨ c.toNat = 127 then "\\x" ++ hexText 2 c.toNat
  else if c.toNat < 127 ∨ printable c = true then String.singleton c
  else if c.toNat < 256 then "\\x" ++ hexText 2 c.toNat
  else if c.toNat < 65536 then "\\u" ++ hexText 4 c.toNat
  else "\\U" ++ hexText 8 c.toNat

/-- `repr(text)`: in double quotes only if that saves escaping. -/
def quoteText (s : String) : String :=
  let mark := if s.toList.contains '\'' ∧ ¬s.toList.contains '"' then '"' else '\''
  String.singleton mark ++ "".intercalate (s.toList.map (quoteChar printable mark))
    ++ String.singleton mark

mutual

/-- `repr(value)`. -/
def reprText : Json → String
  | null => "None"
  | bool b => if b then "True" else "False"
  | int n => toString n
  | float _ text | nonFinite text => text
  | str s => quoteText printable s
  | arr items => "[" ++ ", ".intercalate (reprItems items) ++ "]"
  | obj fields => "\x7b" ++ ", ".intercalate ((Dict.entries (reprFields fields)).map fun kv =>
      quoteText printable kv.1 ++ ": " ++ kv.2) ++ "\x7d"

/-- …in a list… -/
def reprItems : List Json → List String
  | [] => []
  | v :: vs => reprText v :: reprItems vs

/-- …and in the fields of a dictionary. -/
def reprFields : List (String × Json) → List (String × String)
  | [] => []
  | (key, v) :: rest => (key, reprText v) :: reprFields rest

end

/-- `str(value)`. -/
def text : Json → String
  | str s => s
  | v => v.reprText printable

end Text

/-! ## Integers -/

/-- The digits of a numeral, with single underscores between them. -/
def digitsOf : List Char → ℕ → Option ℕ
  | [], n => some n
  | '_' :: c :: rest, n =>
    if c.isDigit then digitsOf rest (10 * n + (c.toNat - '0'.toNat)) else none
  | c :: rest, n =>
    if c.isDigit then digitsOf rest (10 * n + (c.toNat - '0'.toNat)) else none

/-- An unsigned numeral, which starts with a digit. -/
def unsignedOf : List Char → Option ℕ
  | c :: rest => if c.isDigit then digitsOf (c :: rest) 0 else none
  | [] => none

/-- `int(text)` of an ASCII text: blanks around a numeral with an optional sign. -/
def intOfText (text : String) : Option ℤ :=
  match (text.toList.dropWhile Char.isWhitespace).reverse.dropWhile Char.isWhitespace |>.reverse with
  | '-' :: digits => (unsignedOf digits).map fun n => -(n : ℤ)
  | '+' :: digits => (unsignedOf digits).map Int.ofNat
  | digits => (unsignedOf digits).map Int.ofNat

/-- `int(value)`: a float is cut towards zero. -/
def asInt (v : Json) : Except PyError ℤ :=
  match v with
  | int n => .ok n
  | bool b => .ok (if b then 1 else 0)
  | float q _ => .ok (q.num.tdiv q.den)
  | nonFinite text => .error (.valueError ("cannot convert float " ++ text ++ " to integer"))
  | str s =>
    match intOfText s with
    | some n => .ok n
    | none => .error (.valueError ("invalid literal for int() with base 10: '" ++ s ++ "'"))
  | v => .error (.typeError ("int() argument must be a string, a bytes-like object or a real "
      ++ "number, not '" ++ v.typeName ++ "'"))

example : intOfText " -1_2 " = some (-12) := by decide

@[simp] theorem get?_obj (fields : List (String × Json)) (key : String) :
    (obj fields).get? key = .ok (Dict.get? fields key) := rfl

theorem truthy_orElse_left {v d : Json} (h : v.truthy = true) : v.orElse d = v := if_pos h

theorem orElse_of_not_truthy {v d : Json} (h : v.truthy = false) : v.orElse d = d := by
  rw [orElse, h]; rfl

end Json

end BareAnalysis
