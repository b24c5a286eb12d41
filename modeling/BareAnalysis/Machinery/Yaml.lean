import BareAnalysis.Machinery.Calendar
import BareAnalysis.Machinery.Json
import BareAnalysis.Machinery.Text

/-!
# Machinery/Yaml — what `yaml.safe_load` makes of a document

    version: 1            {"version": 1}                     keys are scalars of any kind
    expires: 2026-11-01   {"expires": date(2026, 11, 1)}

and what `str`, `repr`, `int` and `bool` make of that.
-/

namespace BareAnalysis

/-- A lower-case letter of ASCII, a digit, or an underscore. -/
def isPlainChar (c : Char) : Bool := c.isLower || c.isDigit || c == '_'

/-- What depends on the interpreter. -/
structure Builtins extends Unicode where
  /-- `int(text)`. -/
  intOf : String → Option ℤ
  lower_word : ∀ text : List Char, text.all isPlainChar = true → lower text = text
  space_word : ∀ c, isPlainChar c = true → space c = false

/-- A value of a document. -/
inductive Yaml
  | null
  | bool (b : Bool)
  | int (n : ℤ)
  /-- A float, with the text Python prints for it. -/
  | float (q : ℚ) (repr : String)
  | nonFinite (repr : String)
  | str (s : String)
  | bytes (bs : List UInt8)
  | date (d : Date)
  /-- A point in time: its date, and what is printed of it. -/
  | datetime (d : Date) (text repr : String)
  | list (items : List Yaml)
  | tuple (items : List Yaml)
  | set (items : List Yaml)
  | map (entries : List (Yaml × Yaml))
  /-- A list or a dictionary where an alias leads back into it: all that is read of it there is
  its text. -/
  | recursive (repr : String)

namespace Yaml

/-- `type(value).__name__`. -/
def typeName : Yaml → String
  | null => "NoneType"
  | bool _ => "bool"
  | int _ => "int"
  | float _ _ | nonFinite _ => "float"
  | str _ => "str"
  | bytes _ => "bytes"
  | date _ => "date"
  | datetime _ _ _ => "datetime"
  | list _ => "list"
  | tuple _ => "tuple"
  | set _ => "set"
  | map _ => "dict"
  | recursive repr => if repr = "[...]" then "list" else "dict"

/-- `bool(value)`. -/
def truthy : Yaml → Bool
  | null => false
  | bool b => b
  | int n => n != 0
  | float q _ => q != 0
  | str s => s != ""
  | bytes bs => !bs.isEmpty
  | list items | tuple items | set items => !items.isEmpty
  | map entries => !entries.isEmpty
  | nonFinite _ | date _ | datetime _ _ _ | recursive _ => true

/-- The entries of a dictionary under a text. -/
def textEntry : Yaml × Yaml → Option (String × Yaml)
  | (str key, value) => some (key, value)
  | _ => none

/-- `mapping.get(key)`. -/
def lookup (entries : List (Yaml × Yaml)) (key : String) : Option Yaml :=
  Dict.get? (entries.filterMap textEntry) key

/-! ## Texts -/

/-- `str(n)`: there is a limit to the digits. -/
def intText (n : ℤ) : Except PyError String :=
  if n.natAbs < 10 ^ 4300 then .ok (toString n)
  else .error (.valueError ("Exceeds the limit (4300 digits) for integer string conversion; use "
    ++ "sys.set_int_max_str_digits() to increase the limit"))

/-- One byte of `repr(bytes)`. -/
def quoteByte (mark : Char) (b : UInt8) : String :=
  let c := Char.ofNat b.toNat
  if c = mark ∨ c = '\\' then "\\" ++ String.singleton c
  else if c = '\t' then "\\t"
  else if c = '\n' then "\\n"
  else if c = '\r' then "\\r"
  else if b < 32 ∨ 127 ≤ b then "\\x" ++ Json.hexText 2 b.toNat
  else String.singleton c

/-- `repr(bytes)`. -/
def quoteBytes (bs : List UInt8) : String :=
  let mark := if bs.contains 39 ∧ ¬bs.contains 34 then '"' else '\''
  "b" ++ String.singleton mark ++ "".intercalate (bs.map (quoteByte mark)) ++ String.singleton mark

section Text

variable (printable : Char → Bool)

mutual

/-- `repr(value)`. -/
def reprText : Yaml → Except PyError String
  | null => .ok "None"
  | bool b => .ok (if b then "True" else "False")
  | int n => intText n
  | float _ repr | nonFinite repr | recursive repr => .ok repr
  | str s => .ok (Json.quoteText printable s)
  | bytes bs => .ok (quoteBytes bs)
  | date d => .ok ("datetime.date(" ++ toString d.year ++ ", " ++ toString d.month ++ ", "
      ++ toString d.day ++ ")")
  | datetime _ _ repr => .ok repr
  | list items => do return "[" ++ ", ".intercalate (← reprItems items) ++ "]"
  | tuple items => do
    match ← reprItems items with
    | [item] => return "(" ++ item ++ ",)"
    | texts => return "(" ++ ", ".intercalate texts ++ ")"
  | set items => do
    match ← reprItems items with
    | [] => return "set()"
    | texts => return "\x7b" ++ ", ".intercalate texts ++ "\x7d"
  | map entries => do return "\x7b" ++ ", ".intercalate (← reprEntries entries) ++ "\x7d"

/-- …in a list… -/
def reprItems : List Yaml → Except PyError (List String)
  | [] => .ok []
  | v :: vs => do return (← reprText v) :: (← reprItems vs)

/-- …and in a dictionary. -/
def reprEntries : List (Yaml × Yaml) → Except PyError (List String)
  | [] => .ok []
  | (key, v) :: rest => do
    return ((← reprText key) ++ ": " ++ (← reprText v)) :: (← reprEntries rest)

end

/-- `str(value)`. -/
def text : Yaml → Except PyError String
  | str s => .ok s
  | date d => .ok d.isoformat
  | datetime _ text _ => .ok text
  | v => reprText printable v

variable {printable}

/-- What has a text has a representation. -/
theorem isOk_reprText {v : Yaml} (h : (v.text printable).isOk = true) :
    (v.reprText printable).isOk = true := by
  cases v with
  | str s => rw [reprText]; rfl
  | date d => rw [reprText]; rfl
  | datetime d text repr => rw [reprText]; rfl
  | _ => exact h

end Text

/-! ## Integers -/

/-- `int(bytes)`: only what is ASCII is read, and the separators of information are no blanks. -/
def intOfBytes (b : Builtins) (bs : List UInt8) : Option ℤ :=
  if bs.all fun byte => byte < 28 ∨ (32 ≤ byte ∧ byte < 128) then
    b.intOf (String.ofList (bs.map fun byte => Char.ofNat byte.toNat))
  else none

/-- `int(value)`: a float is cut towards zero. -/
def toInt (b : Builtins) (v : Yaml) : Except PyError ℤ :=
  match v with
  | int n => .ok n
  | bool b => .ok (if b then 1 else 0)
  | float q _ => .ok (q.num.tdiv q.den)
  | nonFinite repr =>
    if repr = "nan" then .error (.valueError "cannot convert float NaN to integer")
    else .error (.overflowError "cannot convert float infinity to integer")
  | str s =>
    match b.intOf s with
    | some n => .ok n
    | none => .error (.valueError ("invalid literal for int() with base 10: "
        ++ Json.quoteText b.printable s))
  | bytes bs =>
    match intOfBytes b bs with
    | some n => .ok n
    | none => .error (.valueError ("invalid literal for int() with base 10: " ++ quoteBytes bs))
  | v => .error (.typeError ("int() argument must be a string, a bytes-like object or a real "
      ++ "number, not '" ++ v.typeName ++ "'"))

end Yaml

end BareAnalysis
