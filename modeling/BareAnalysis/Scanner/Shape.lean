import BareAnalysis.Machinery.Text
import Mathlib.Data.List.Infix

/-!
# Scanner/Shape — what shape a candidate value has

    haystack   ──blob run, markers──▸ rejected under every policy
    the value  ──uuid, hex, path, number, variety──▸ rejected under `strict`

`core/rules/shape.py`.  The scanner asks only whether a shape disqualifies.
-/

namespace BareAnalysis

/-- `_BASE64_ALPHABET`. -/
def isBase64Char (c : Char) : Bool :=
  c.isAlphanum || c == '+' || c == '/' || c == '=' || c == '\r' || c == '\n'

/-- `BLOB_RUN_THRESHOLD`. -/
def blobRunThreshold : ℕ := 120

/-- `_STRUCTURE_MARKERS`. -/
def structureMarkers : List String :=
  ["MII", "BgkqhkiG", "-----BEGIN", "-----END", "%PDF", "endstream", "endobj", "/Filter",
    "FlateDecode", "<?xml", "data:image/", "base64,"]

/-- `Shape`. -/
inductive Shape
  | credentialLike
  | blobSlice
  | encodedStructure
  | hexDigest
  | uuid
  | pathOrUrl
  | numeric
  | lowVariety
  deriving DecidableEq, Repr

/-- `Shape.is_disqualifying`. -/
def Shape.isDisqualifying (s : Shape) : Bool := s != .credentialLike

/-- `base64_run_length`. -/
def base64RunLength (haystack : List Char) (start stop : ℕ) : ℕ :=
  ((haystack.take start).reverse.takeWhile isBase64Char).length + (stop - start)
    + ((haystack.drop stop).takeWhile isBase64Char).length

/-- `character_classes`. -/
def characterClasses (value : List Char) : ℕ :=
  [value.any Char.isLower, value.any Char.isUpper, value.any Char.isDigit,
    value.any fun c => !c.isAlphanum].count true

def isHexChar (c : Char) : Bool := c.isDigit || ('a' ≤ c && c ≤ 'f') || ('A' ≤ c && c ≤ 'F')

/-- `_UUID_RE`. -/
def isUuid (value : List Char) : Bool :=
  let body := if value.head? = some '\x7b' then value.drop 1 else value
  let body := if body.getLast? = some '\x7d' then body.dropLast else body
  let groups := body.splitOn '-'
  groups.map List.length = [8, 4, 4, 4, 12] && groups.all (·.all isHexChar)

/-- `_URL_RE`. -/
def isUrl (value : List Char) : Bool :=
  match value with
  | c :: rest => c.isAlpha && decide ("://".toList <+:
      rest.dropWhile fun c => c.isAlphanum || c == '+' || c == '.' || c == '-')
  | [] => false

def isSlash (c : Char) : Bool := c == '\\' || c == '/'

/-- `_PATH_RE`. -/
def isPath (value : List Char) : Bool :=
  match value with
  | '.' :: '.' :: c :: _ => isSlash c
  | '.' :: c :: _ => isSlash c
  | c :: ':' :: d :: _ => isSlash c || (c.isAlpha && isSlash d)
  | c :: _ => isSlash c
  | [] => false

/-- `_NUMERIC_RE`. -/
def isNumeric (value : List Char) : Bool :=
  value.all fun c => c.isDigit || ".,:_-+eE".toList.contains c

inductive ShapePolicy
  | context
  | strict
  deriving DecidableEq, Repr

/-- What the surroundings say: a slice of a blob, or encoded structure. -/
def contextShape (haystack : List Char) (start stop : ℕ) : Option Shape :=
  if haystack ≠ [] ∧ start < stop ∧ stop ≤ haystack.length then
    if blobRunThreshold ≤ base64RunLength haystack start stop then some .blobSlice
    else
      let window := (haystack.take (stop + 200)).drop (start - 200)
      if structureMarkers.any fun marker => decide (marker.toList <:+: window) then
        some .encodedStructure
      else none
  else none

/-- What the value itself says. -/
def valueShape (stripped : List Char) (requireMixedCase : Bool) : Shape :=
  let distinct := stripped.dedup.length
  if isUuid stripped then .uuid
  else if stripped.all isHexChar then .hexDigest
  else if isUrl stripped || isPath stripped then .pathOrUrl
  else if isNumeric stripped then .numeric
  else if distinct ≤ 4 ∨ 50 * distinct < 9 * stripped.length then .lowVariety
  else if requireMixedCase && characterClasses stripped < 3 then .lowVariety
  else .credentialLike

/-- `classify`. -/
def classify (u : Unicode) (value haystack : List Char) (start stop : ℕ) (policy : ShapePolicy)
    (requireMixedCase : Bool) : Shape :=
  let stripped := strip u.space value
  if stripped = [] then .lowVariety
  else
    match contextShape haystack start stop with
    | some shape => shape
    | none =>
      match policy with
      | .context => .credentialLike
      | .strict => valueShape stripped requireMixedCase

/-- `has_nearby`. -/
def hasNearby (u : Unicode) (haystack : List Char) (start : ℕ) (keywords : List String)
    (window : ℤ) : Bool :=
  keywords.isEmpty ||
    let near := pySlice (u.lower haystack) (max 0 (start - window))
      (min haystack.length (start + window))
    keywords.any fun keyword => decide (u.lower keyword.toList <:+: near)

end BareAnalysis
