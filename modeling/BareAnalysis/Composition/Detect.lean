import BareAnalysis.Composition.Model
import BareAnalysis.Machinery.JsonText
import BareAnalysis.Machinery.Regex
import BareAnalysis.Machinery.Sorting
import BareAnalysis.Machinery.Utf8
import BareAnalysis.Unpack.Detect

/-!
# Composition/Detect — the components an artifact declares

    files ──package.json, .nuspec, METADATA, Go build info──▸ components ──first of a key──▸ inventory

`core/composition/detect.py`.  A file is what reading it gives; what the interpreter's tables and its
JSON decoder say is a parameter.
-/

namespace BareAnalysis.Composition

/-- `MAX_MANIFEST_BYTES`. -/
def maxManifestBytes : ℕ := 512 * 1024

/-- A staged file: its name, its size and its bytes, unless the system refuses them. -/
structure StagedFile where
  name : String
  pathInTree : String
  size : Option ℕ
  content : Option Bytes

/-- What detection takes from the interpreter. -/
structure Reading where
  unicode : Unicode
  /-- `str(value)` of a value that is no text. -/
  str : Json → String
  /-- `json.loads`. -/
  loads : List Char → Except LoadsError Json

/-- Universal newlines. -/
def translateNewlines : List Char → List Char
  | [] => []
  | '\r' :: '\n' :: s => '\n' :: translateNewlines s
  | '\r' :: s => '\n' :: translateNewlines s
  | c :: s => c :: translateNewlines s

/-- `path.read_text(encoding="utf-8", errors="replace")` of a file that is no larger than a
manifest. -/
def StagedFile.manifestText (file : StagedFile) : Option (List Char) := do
  if maxManifestBytes < (← file.size) then none
  else return translateNewlines (Utf8.decode ['\uFFFD'] (← file.content))

section Clean

variable (p : Reading)

/-- `_clean` of a text. -/
def cleanText (text : List Char) : String :=
  let text := strip isSpace text
  if text = [] ∨ String.ofList (p.unicode.lower text) ∈ ["unknown", "none", "null"] then ""
  else String.ofList text

/-- `_clean`. -/
def clean (value : Json) : String :=
  cleanText p (match value.orElse (.str "") with
    | .str text => text.toList
    | value => (p.str value).toList)

/-- `_NOT_AN_EXPRESSION`. -/
def notAnExpression : Re :=
  .alt
    (.all [.start, .alt (.seq (Re.text "see") (.char isSpace))
      (.seq (.rep 0 (some 2) (.char (· == '.'))) (.char (· == '/')))])
    (.all [.char (· == '.'), .alt (Re.text "md") (.alt (Re.text "txt") (Re.text "html")), .stop])

/-- `_as_spdx_expression`. -/
def asSpdxExpression (text : String) : String :=
  if notAnExpression.found text.toList then "" else text

/-- `document.get(key)`. -/
def field (document : Dict String Json) (key : String) : Json :=
  (Dict.get? document key).getD .null

/-- `_licence_from`: a text, an object or a list of either. -/
def licenceFrom (document : Dict String Json) : String :=
  let typeOf (fields : Dict String Json) := asSpdxExpression (clean p (field fields "type"))
  match (field document "license").orElse (field document "licence") with
  | .str text => asSpdxExpression (clean p (.str text))
  | .obj fields => typeOf fields
  | .arr (.obj fields :: _) => typeOf fields
  | .arr (first :: _) => asSpdxExpression (clean p first)
  | _ => ""

end Clean

/-! ## Manifests -/

section Manifests

variable (p : Reading)

/-- `from_package_json`: nothing without a name and a version. -/
def fromPackageJson (file : StagedFile) : Except LoadsError (Option Component) :=
  match file.manifestText with
  | none => .ok none
  | some text =>
    match p.loads text with
    | .error .recursion => .error .recursion
    | .error _ => .ok none
    | .ok (.obj document) =>
      let name := clean p (field document "name")
      let version := clean p (field document "version")
      if name = "" ∨ version = "" then .ok none
      else .ok (some
        { name := name
          version := version
          ecosystem := .npm
          confidence := .declared
          pathInTree := file.pathInTree
          licence := licenceFrom p document
          evidence := "package.json" })
    | .ok _ => .ok none

/-- What is between two tags: `<tag>\s*([^<]{1,most})</tag>`. -/
def tagged (opening : List Re) (tag : String) (most : ℕ) : Re :=
  .all (opening ++ [.rep 0 none (.char isSpace), .group (.rep 1 (some most) (.char (· != '<'))),
    Re.text ("</" ++ tag ++ ">")])

/-- What a line says after a mark: `^mark\s*(.+)$`. -/
def marked (mark : String) : Re :=
  .all [.lineStart, Re.exactly mark, .rep 0 none (.char isSpace),
    .group (.rep 1 none (.char (· != '\n'))), .lineStop]

/-- How a manifest that is no JSON is searched. -/
structure Searches where
  name : Re
  version : Re
  licence : Re
  ecosystem : Ecosystem
  evidence : String

/-- Of a `.nuspec`. -/
def nuspecSearches : Searches where
  name := tagged [Re.text "<id>"] "id" 200
  version := tagged [Re.text "<version>"] "version" 80
  licence := tagged [Re.text "<license", .rep 0 none (.char (· != '>')), .char (· == '>')]
    "license" 120
  ecosystem := .nuget
  evidence := ".nuspec"

/-- Of a `METADATA`. -/
def metadataSearches : Searches where
  name := marked "Name:"
  version := marked "Version:"
  licence := marked "License:"
  ecosystem := .pypi
  evidence := "dist-info METADATA"

/-- The common part of `from_nuspec` and `from_python_metadata`. -/
def fromSearches (searches : Searches) (file : StagedFile) : Option Component := do
  let text ← file.manifestText
  let name ← searches.name.group1 text
  let version ← searches.version.group1 text
  return { name := cleanText p name
           version := cleanText p version
           ecosystem := searches.ecosystem
           confidence := .declared
           pathInTree := file.pathInTree
           licence := ((searches.licence.group1 text).map fun licence =>
             asSpdxExpression (cleanText p licence)).getD ""
           evidence := searches.evidence }

/-- `from_nuspec`. -/
def fromNuspec : StagedFile → Option Component := fromSearches p nuspecSearches

/-- `from_python_metadata`. -/
def fromPythonMetadata : StagedFile → Option Component := fromSearches p metadataSearches

end Manifests

/-! ## Go binaries -/

/-- `[\w./+~-]`, of bytes. -/
def isGoNameByte (b : UInt8) : Bool :=
  (Char.ofNat b.toNat).isAlphanum || (ascii "_./+~-").contains b

/-- `[\w.+~-]`, of bytes. -/
def isGoVersionByte (b : UInt8) : Bool :=
  (Char.ofNat b.toNat).isAlphanum || (ascii "_.+~-").contains b

/-- `_GO_DEP_LINE` at a place: the module, its version and the length of the match.  What a name is
made of ends ahead of the tab, so there is one way to match. -/
def goDepAt (data : Bytes) : Option (Bytes × Bytes × ℕ) :=
  if (ascii "dep\t").isPrefixOf data || (ascii "mod\t").isPrefixOf data then
    let name := (data.drop 4).takeWhile isGoNameByte
    match (data.drop 4).dropWhile isGoNameByte with
    | 0x09 :: 0x76 :: rest =>
      let version := (rest.takeWhile isGoVersionByte).take 60
      if 3 ≤ name.length ∧ name.length ≤ 180 ∧ version ≠ [] then
        some (name, 0x76 :: version, 4 + name.length + 2 + version.length)
      else none
    | _ => none
  else none

/-- `_GO_DEP_LINE.finditer`: a match is passed over before the next is looked for. -/
def goDeps : ℕ → Bytes → List (Bytes × Bytes)
  | _, [] => []
  | skip + 1, _ :: data => goDeps skip data
  | 0, b :: data =>
    match goDepAt (b :: data) with
    | some (name, version, length) => (name, version) :: goDeps (length - 1) data
    | none => goDeps 0 data

/-- A text of ASCII bytes. -/
def textOf (data : Bytes) : String := String.ofList (data.map fun b => Char.ofNat b.toNat)

/-- `from_go_binary`. -/
def fromGoBinary (file : StagedFile) : List Component :=
  match file.content.map (List.take (64 * 1024 * 1024)) with
  | none => []
  | some data =>
    if !occursIn (ascii "Go buildinf:") data then []
    else
      let named := (goDeps 0 data).filter fun dep => (ascii ".").all dep.1.contains
      (keepFirst id named).map fun dep =>
        { name := textOf dep.1
          version := textOf dep.2
          ecosystem := .golang
          confidence := .declared
          pathInTree := file.pathInTree
          evidence := "Go buildinfo" }

/-! ## The inventory -/

section Inventory

variable (p : Reading)

/-- `text.lower()`. -/
def lowerText (text : String) : List Char := p.unicode.lower text.toList

/-- `detect_in_file`. -/
def detectInFile (file : StagedFile) : Except LoadsError (List Component) :=
  let name := lowerText p file.name
  if name = "package.json".toList then do return (← fromPackageJson p file).toList
  else if name = "metadata".toList then
    if !((lowerText p file.pathInTree).tails.any ".dist-info".toList.isPrefixOf) then .ok []
    else .ok (fromPythonMetadata p file).toList
  else if ".nuspec".toList.isSuffixOf name then .ok (fromNuspec p file).toList
  else
    match file.size with
    | none => .ok []
    | some size =>
      if 1000000 < size then
        match file.content with
        | none => .ok []
        | some data =>
          if (0x7f :: ascii "ELF").isPrefixOf (data.take 4) || (ascii "MZ").isPrefixOf (data.take 4)
          then .ok (fromGoBinary file)
          else .ok []
      else .ok []

/-- The state of the loop of `inventory`; `examined` is no part of the program, and holds the files
that were looked at. -/
structure Walk where
  seen : Dict (String × String × String) Component := []
  truncated : Bool := false
  examined : List StagedFile := []

/-- The loop of `inventory`. -/
def walk (maxComponents : ℤ) : List StagedFile → Walk → Except LoadsError Walk
  | [], w => .ok w
  | file :: files, w =>
    if maxComponents ≤ w.seen.length then .ok { w with truncated := true }
    else do
      let found ← detectInFile p file
      walk maxComponents files
        { w with
          seen := found.foldl (fun seen component => seen.setDefault component.key component) w.seen
          examined := w.examined ++ [file] }

/-- What components are sorted by. -/
def sortKey (c : Component) : String ×ₗ String ×ₗ String :=
  toLex (c.ecosystem.value, toLex (String.ofList (lowerText p c.name), c.version))

/-- `inventory`, with the files it looked at. -/
def inventory (files : List StagedFile) (maxComponents : ℤ) :
    Except LoadsError (ComponentInventory × List StagedFile) := do
  let w ← walk p maxComponents files {}
  return ({ components := sortBy (sortKey p) (w.seen.map Prod.snd)
            filesExamined := files.length
            truncated := w.truncated }, w.examined)

end Inventory

end BareAnalysis.Composition
