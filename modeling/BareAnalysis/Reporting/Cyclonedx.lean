import BareAnalysis.Composition.Model
import BareAnalysis.Machinery.Json
import BareAnalysis.Machinery.Sha256

/-!
# Reporting/Cyclonedx — CycloneDX 1.5 export

    inventory ──build_sbom──▸ {bomFormat, …, components: [{name, version, purl, evidence, …}, …]}

No clock and no random serial: two exports of one run are the same document.
-/

namespace BareAnalysis.Cyclonedx

open BareAnalysis.Composition

def specVersion : String := "1.5"

/-- `_CONFIDENCE_SCORE`. -/
def confidenceScore : Confidence → Json
  | .declared => .float 1 "1.0"
  | .embedded => .float (4 / 5) "0.8"
  | .inferred => .float (1 / 2) "0.5"

/-- `_CONFIDENCE_METHOD`. -/
def confidenceMethod : Confidence → String
  | .declared => "manifest-analysis"
  | .embedded | .inferred => "binary-analysis"

/-- `_serial`: a stable URN for this run. -/
def serial (runId : String) : String :=
  let digest := (sha256 ("bare:" ++ runId)).toList
  let part (start stop : ℕ) : String := String.ofList ((digest.take stop).drop start)
  "urn:uuid:" ++ part 0 8 ++ "-" ++ part 8 12 ++ "-" ++ part 12 16 ++ "-" ++ part 16 20 ++ "-"
    ++ part 20 32

/-- A property of a component. -/
def property (name value : String) : Json := .obj [("name", .str name), ("value", .str value)]

/-- How a component was identified. -/
def evidenceOf (c : Composition.Component) : Json :=
  .obj [("identity", .obj [
    ("field", .str "purl"),
    ("confidence", confidenceScore c.confidence),
    ("methods", .arr [.obj [
      ("technique", .str (confidenceMethod c.confidence)),
      ("confidence", confidenceScore c.confidence),
      ("value", .str (if c.evidence ≠ "" then c.evidence else c.pathInTree))]])])]

/-- What every entry says about its component. -/
def entryFields (c : Composition.Component) : List (String × Json) :=
  [("type", .str "library"), ("bom-ref", .str c.purl), ("name", .str c.name),
    ("version", .str c.version), ("purl", .str c.purl), ("evidence", evidenceOf c),
    ("properties", .arr [property "bare:path" c.pathInTree,
      property "bare:confidence" c.confidence.value])]

/-- The entry of one component; a licence is an expression, not an id. -/
def entry (c : Composition.Component) : Json :=
  .obj (entryFields c ++
    if c.licence ≠ "" then [("licenses", .arr [.obj [("expression", .str c.licence)]])] else [])

/-- What the document says about the artifact besides its components. -/
structure SbomSubject where
  runId : String
  artifactName : String
  artifactSha256 : String
  artifactSizeBytes : ℕ
  toolVersion : String

/-- The component the document is about. -/
def metadataComponent (inventory : ComponentInventory) (subject : SbomSubject) : Json :=
  let short := String.ofList (subject.artifactSha256.toList.take 32)
  .obj [("type", .str "application"),
    ("bom-ref", .str ("artifact:" ++ if short ≠ "" then short else subject.runId)),
    ("name", .str subject.artifactName),
    ("hashes", .arr (if subject.artifactSha256 ≠ "" then
      [.obj [("alg", .str "SHA-256"), ("content", .str subject.artifactSha256)]] else [])),
    ("properties", .arr [
      property "bare:run" subject.runId,
      property "bare:size_bytes" (toString subject.artifactSizeBytes),
      property "bare:files_examined" (toString inventory.filesExamined),
      property "bare:inventory_complete" (if inventory.truncated then "false" else "true")])]

/-- `build_sbom`. -/
def buildSbom (inventory : ComponentInventory) (subject : SbomSubject) : Json :=
  .obj [("bomFormat", .str "CycloneDX"), ("specVersion", .str specVersion),
    ("serialNumber", .str (serial subject.runId)), ("version", .int 1),
    ("metadata", .obj [
      ("tools", .obj [("components", .arr [.obj [("type", .str "application"),
        ("name", .str "BARE"), ("version", .str subject.toolVersion)]])]),
      ("component", metadataComponent inventory subject)]),
    ("components", .arr (inventory.components.map entry))]

/-- What an entry says under a key that every entry has. -/
theorem get?_entry (c : Composition.Component) {key : String} (h : key ≠ "licenses") :
    (entry c).get? key = .ok (Dict.get? (entryFields c) key) := by
  rw [entry, Json.get?_obj]
  split
  · rw [Dict.get?_concat, if_neg (Ne.symm h)]
  · rw [List.append_nil]

end BareAnalysis.Cyclonedx
