import BareAnalysis.Machinery.Scalars
import BareAnalysis.Policy.Loader

/-!
# Policy/Waive — a waiver written into a waiver file

    --expires ──parse_expiry──▸ date ──build_waiver──▸ Waiver ──append_waiver──▸ new text

`core/policy/waive.py`.  A text that is appended to is loaded again before it is returned; a file
that is started is not.
-/

namespace BareAnalysis

/-- What `yaml.safe_load` raises: a `YAMLError`, or what a constructor lets through. -/
inductive SafeLoadError
  | yamlError (message : String)
  | other (e : PyError)
  deriving DecidableEq, Repr

/-- What writing a waiver takes from elsewhere. -/
structure WaiveLibraries extends Builtins where
  /-- `\d`. -/
  decimal : Char → Bool
  /-- `yaml.safe_load(text)`. -/
  safeLoad : String → Except SafeLoadError Yaml

/-- How writing a waiver ends when it does not end well. -/
inductive WaiveFailure
  | waiveError (message : String)
  | yamlError (message : String)
  | uncaught (e : PyError)
  deriving DecidableEq, Repr

namespace Waive

open Yaml PolicyLoader

/-! ## The expiry -/

section Expiry

variable (lib : WaiveLibraries)

/-- `_RELATIVE_RE`: the digits of a number of days. -/
def relativeDays? (value : String) : Option String :=
  match value.toList.reverse with
  | 'd' :: digits =>
    if digits ≠ [] ∧ digits.all lib.decimal = true then some (String.ofList digits.reverse) else none
  | _ => none

/-- `today + timedelta(days=n)`. -/
def plusDays (today : Date) (n : ℤ) : Except PyError Date :=
  if 999999999 < |n| then
    .error (.overflowError ("days=" ++ toString n ++ "; must have magnitude <= 999999999"))
  else match Date.fromordinal? (today.toordinal + n).toNat with
    | some d => .ok d
    | none => .error (.overflowError "date value out of range")

/-- `parse_expiry`. -/
def parseExpiry (text : String) (today : Date) : Except WaiveFailure Date :=
  let value := normalText lib.toBuiltins text
  match relativeDays? lib value with
  | some digits =>
    match lib.intOf digits with
    | some n => (plusDays today n).mapError .uncaught
    | none => .error (.uncaught (.valueError ("Exceeds the limit (4300 digits) for integer string "
        ++ "conversion: value has " ++ toString digits.length ++ " digits; use "
        ++ "sys.set_int_max_str_digits() to increase the limit")))
  | none =>
    match Date.fromisoformat? value with
    | some d => .ok d
    | none => .error (.waiveError ("--expires must be a date (YYYY-MM-DD) or a number of days such "
        ++ "as 30d, got " ++ Json.quoteText lib.printable text))

end Expiry

/-! ## The waiver -/

/-- A hexadecimal digit, in lower case. -/
def isHexLower (c : Char) : Bool := c.isDigit || decide ('a' ≤ c ∧ c ≤ 'f')

/-- `_FINDING_ID_RE`. -/
def IsFindingId (id : String) : Prop := id.toList.length = 32 ∧ id.toList.all isHexLower = true

/-- `_PREFIX_RE`. -/
def IsIdPrefix (id : String) : Prop :=
  1 ≤ id.toList.length ∧ id.toList.length ≤ 31 ∧ id.toList.all isHexLower = true

instance (id : String) : Decidable (IsFindingId id) := inferInstanceAs (Decidable (_ ∧ _))

instance (id : String) : Decidable (IsIdPrefix id) := inferInstanceAs (Decidable (_ ∧ _))

/-- The days from one date to another. -/
def daysUntil (today expires : Date) : ℤ := expires.toordinal - today.toordinal

section Build

variable (b : Builtins)

/-- `build_waiver`. -/
def buildWaiver (findingId reason owner : String) (expires : Date) (policy : LoadedPolicy)
    (today : Date) : Except WaiveFailure Waiver :=
  let normalised := normalText b findingId
  let reason := stripText b reason
  let owner := stripText b owner
  let shown := Json.quoteText b.printable findingId
  let name := Json.quoteText b.printable policy.name
  if ¬IsFindingId normalised then
    if IsIdPrefix normalised then
      .error (.waiveError (shown ++ " is a shortened finding id. The gate matches waivers against "
        ++ "the full 32-character id, so a prefix would never apply. The full id is printed in the "
        ++ "gate output and in `--json`."))
    else .error (.waiveError (shown ++ " is not a finding id (expected 32 hex characters)"))
  else if policy.requireWaiverReason ∧ reason = "" then
    .error (.waiveError ("a --reason is required by policy " ++ name))
  else if policy.requireWaiverOwner ∧ owner = "" then
    .error (.waiveError ("an --owner is required by policy " ++ name))
  else if expires < today then
    .error (.waiveError ("expiry " ++ expires.isoformat ++ " is already in the past"))
  else if policy.maxWaiverDays < daysUntil today expires then
    .error (.waiveError ("expiry " ++ expires.isoformat ++ " is "
      ++ toString (daysUntil today expires) ++ " days away; policy " ++ name ++ " allows at most "
      ++ toString policy.maxWaiverDays))
  else .ok ⟨normalised, reason, owner, expires⟩

end Build

/-! ## The text -/

/-- `NEW_FILE_HEADER`. -/
def newFileHeader : String :=
  "# BARE release-gate waivers.\n#\n"
    ++ "# Each entry exempts one finding from the gate until it expires. Every field is\n"
    ++ "# required, and an expired waiver fails the build rather than lapsing quietly.\n"
    ++ "# Add entries with:  bare waive <finding-id> --reason ... --expires ...\n\nwaivers:\n"

/-- `_scalar`. -/
def scalar (value : String) : String := String.ofList (jsonQuote value.toList)

/-- `render_entry`: one list item. -/
def renderEntry (w : Waiver) (indent : String) : String :=
  indent ++ "- finding_id: " ++ w.findingId ++ "\n"
    ++ indent ++ "  reason: " ++ scalar w.reason ++ "\n"
    ++ indent ++ "  owner: " ++ scalar w.owner ++ "\n"
    ++ indent ++ "  expires: " ++ w.expires.isoformat ++ "\n"

/-- The blanks of the expressions below. -/
def isIndent (c : Char) : Bool := c == ' ' || c == '\t'

/-- `_EMPTY_FLOW_LIST_RE`, on one line. -/
def isEmptyFlowList (line : List Char) : Bool :=
  "waivers:".toList.isPrefixOf line &&
    match (line.drop 8).dropWhile isIndent with
    | '[' :: rest =>
      match rest.dropWhile isIndent with
      | ']' :: rest => rest.all isIndent
      | _ => false
    | _ => false

/-- `_EMPTY_FLOW_LIST_RE.sub("waivers:", text, count=1)`. -/
def openFlowList (lines : List (List Char)) : List (List Char) :=
  match lines with
  | [] => []
  | line :: lines =>
    if isEmptyFlowList line then "waivers:".toList :: lines else line :: openFlowList lines

/-- `_ITEM_INDENT_RE`, on one line: the blanks ahead of an item. -/
def itemIndent? (line : List Char) : Option (List Char) :=
  match line.dropWhile (· == ' ') with
  | '-' :: rest =>
    if (rest.head?.any isIndent) && "finding_id:".toList.isPrefixOf (rest.dropWhile isIndent) then
      some (line.takeWhile (· == ' '))
    else none
  | _ => none

/-- The lines of a text. -/
def linesOf (text : String) : List (List Char) := text.toList.splitOn '\n'

/-- `_ITEM_INDENT_RE.search(text)`, or two blanks. -/
def indentOf (text : String) : String :=
  String.ofList (((linesOf text).findSome? itemIndent?).getD [' ', ' '])

section Append

variable (lib : WaiveLibraries)

/-- `not text.strip()`. -/
def isBlankText (text : String) : Bool := (strip lib.space text.toList).isEmpty

/-- `_load`. -/
def load (policy : LoadedPolicy) (source text : String) : Except WaiveFailure (List Waiver) :=
  if isBlankText lib text then .ok []
  else match lib.safeLoad text with
    | .error (.yamlError message) => .error (.waiveError (source
        ++ " is not valid YAML; fix it before adding to it: " ++ message))
    | .error (.other e) => .error (.uncaught e)
    | .ok .null => .ok []
    | .ok (.map entries) => (parseWaivers lib.toBuiltins policy source entries).mapError fun
      | .policyLoadError message => .waiveError
          ("the existing file does not load; fix it before adding to it: " ++ message)
      | .uncaught e => .uncaught e
    | .ok _ => .error (.waiveError (source ++ " must be a mapping with a 'waivers' list"))

/-- `_has_waivers_key`: no error is caught. -/
def hasWaiversKey (text : String) : Except WaiveFailure Bool :=
  match lib.safeLoad text with
  | .ok (.map entries) => .ok (lookup entries "waivers").isSome
  | .ok _ => .ok false
  | .error (.yamlError message) => .error (.yamlError message)
  | .error (.other e) => .error (.uncaught e)

/-- The text with its last line ended and an empty list opened up. -/
def opened (text : String) : String :=
  let text := if text.toList.getLast? = some '\n' then text else text ++ "\n"
  String.ofList (['\n'].intercalate (openFlowList (linesOf text)))

/-- The text an entry is added to, with what is added. -/
def candidateOf (text : String) (hasKey : Bool) (w : Waiver) : String :=
  let text := if hasKey then text else text ++ "\nwaivers:\n"
  text ++ renderEntry w (indentOf text)

/-- `append_waiver`. -/
def appendWaiver (existingText : String) (w : Waiver) (policy : LoadedPolicy) (source : String) :
    Except WaiveFailure String := do
  let existing ← load lib policy source existingText
  match existing.find? (·.findingId = w.findingId) with
  | some current =>
    throw (.waiveError (source ++ " already waives " ++ w.findingId ++ " (expires "
      ++ current.expires.isoformat ++ ", owner "
      ++ (if current.owner = "" then "unknown" else current.owner) ++ "). Edit that entry rather "
      ++ "than adding a second one; the gate rejects duplicates."))
  | none =>
    if isBlankText lib existingText then return newFileHeader ++ renderEntry w "  "
    let text := opened existingText
    let candidate := candidateOf text (← hasWaiversKey lib text) w
    let after ← match load lib policy source candidate with
      | .ok after => pure after
      | .error (.waiveError _) => pure []
      | .error e => throw e
    if after ≠ sortBy waiverKey (existing ++ [w]) then
      throw (.waiveError ("could not add to " ++ source ++ " safely: its layout does not allow a "
        ++ "plain append (for example, another key follows the waiver list). Add this entry by "
        ++ "hand:\n\n" ++ renderEntry w "  "))
    return candidate

/-- What the command does between reading the file and writing it. -/
def waive (findingId reason owner expires existingText : String) (policy : LoadedPolicy)
    (today : Date) (source : String) : Except WaiveFailure String := do
  let expires ← parseExpiry lib expires today
  let w ← buildWaiver lib.toBuiltins findingId reason owner expires policy today
  appendWaiver lib existingText w policy source

end Append

end Waive

end BareAnalysis
