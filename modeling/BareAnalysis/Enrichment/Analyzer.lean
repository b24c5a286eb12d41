import BareAnalysis.Enrichment.Result
import BareAnalysis.Machinery.PurePath
import BareAnalysis.Machinery.Sorting
import BareAnalysis.Machinery.Text
import Mathlib.Algebra.Order.Ring.Unbundled.Rat
import Mathlib.Data.Finset.Dedup
import Mathlib.Data.List.Lex

/-!
# Enrichment/Analyzer — the container that runs Ghidra, one binary after the other

    targets.json ──work_order──▸ (path, offsets) …  ──analyze_binary──▸ BinaryResult …
                                     budget, staging, runner │                  │
                                              xrefs.json ──_interpret──┘   result.json

`sandbox/images/ghidra/analyzer.py`.  The loop of `main` has no handler: what one binary's output
raises ends the run before anything is written.
-/

namespace BareAnalysis.GhidraAnalyzer

/-! ## What the container is given -/

/-- What `json.loads(path.read_text(…))` gives. -/
inductive JsonFile
  /-- `not path.is_file()`. -/
  | missing
  /-- An `OSError` or a `ValueError`, which is caught. -/
  | unreadable (message : String)
  /-- What is not caught: `RecursionError`. -/
  | raises (e : PyError)
  | document (v : Json)

/-- `HeadlessOutcome`. -/
structure HeadlessOutcome where
  exitCode : Option ℤ
  output : String
  timedOut : Bool := false

/-- A budget in seconds. -/
inductive Seconds
  | finite (s : ℚ)
  | infinite

namespace Seconds

/-- `start + total - now`. -/
def left : Seconds → ℚ → ℚ → Seconds
  | finite total, start, now => finite (start + total - now)
  | infinite, _, _ => infinite

/-- `min(a, b)`. -/
def min : Seconds → Seconds → Seconds
  | finite a, finite b => finite (Min.min a b)
  | finite a, infinite => finite a
  | infinite, b => b

/-- `budget < bound`. -/
def Below : Seconds → ℚ → Prop
  | finite s, bound => s < bound
  | infinite, _ => False

instance (s : Seconds) (bound : ℚ) : Decidable (s.Below bound) :=
  match s with
  | finite s => inferInstanceAs (Decidable (s < bound))
  | infinite => .isFalse id

end Seconds

/-- The arguments. -/
structure Args where
  totalTimeout : Seconds := .finite 1500
  perBinaryTimeout : Seconds := .finite 600
  maxBinaries : ℤ := 16

/-- What a run finds around it, by the place of a binary in the work order. -/
structure Surroundings where
  ghidraVersion : String := "unknown"
  /-- `time.monotonic()` when the deadline is set… -/
  start : ℚ
  /-- …and when the binary's budget is. -/
  now : ℕ → ℚ
  /-- `(input_dir / BINARIES_DIR / path).is_file()`, which raises for a name that is too long. -/
  isFile : String → Except PyError Bool
  outcome : ℕ → HeadlessOutcome
  /-- The binary's `xrefs.json`. -/
  output : ℕ → JsonFile
  durationS : ℕ → ℚ

/-- The interpreter's tables. -/
structure Tables extends Numerals where
  unicode : Unicode
  /-- What ends a line for `str.splitlines`. -/
  lineEnd : Char → Bool
  /-- `f"{seconds:.0f}"`. -/
  seconds : ℚ → String
  /-- `round(x, 3)` and `repr(x)`. -/
  round3 : ℚ → ℚ
  repr : ℚ → String

/-! ## The document -/

section Write

variable (tables : Tables)

/-- A nullable text. -/
def ofOption : Option String → Json
  | none => .null
  | some s => .str s

/-- `XrefSite.to_json`. -/
def siteToJson (site : XrefSite) : Json :=
  .obj [("from_address", .str site.fromAddress), ("reference_type", .str site.referenceType),
    ("function", ofOption site.function), ("function_address", ofOption site.functionAddress),
    ("context", ofOption site.context)]

/-- `XrefTarget.to_json`. -/
def targetToJson (target : XrefTarget) : Json :=
  .obj [("file_offset", .int target.fileOffset), ("address", ofOption target.address),
    ("found", .bool target.found), ("references", .arr (target.references.map siteToJson))]

/-- `round(self.duration_s, 3)`. -/
def durationToJson : Option ℚ → Json
  | some q => .float (tables.round3 q) (tables.repr (tables.round3 q))
  | none => .nonFinite "nan"

/-- `BinaryResult.to_json`. -/
def binaryToJson (binary : BinaryResult) : Json :=
  .obj [("path", .str binary.path), ("status", .str binary.status),
    ("reason", ofOption binary.reason), ("language", ofOption binary.language),
    ("function_count", .int binary.functionCount),
    ("duration_s", durationToJson tables binary.durationS),
    ("targets", .arr (binary.targets.map targetToJson))]

/-- `GhidraResult.to_json`. -/
def resultToJson (result : GhidraResult) : Json :=
  .obj [("schema_version", .int result.schemaVersion), ("analyzer", .str result.analyzer),
    ("ghidra_version", .str result.ghidraVersion), ("truncated", .bool result.truncated),
    ("tool_versions", .obj [("ghidra", .str result.ghidraVersion)]),
    ("binaries", .arr ((sortBy BinaryResult.path result.binaries).map (binaryToJson tables)))]

end Write

/-! ## The work order -/

section Order

variable (tables : Tables)

/-- A path that could leave `/input/binaries`, or none. -/
def Unusable (path : String) : Prop :=
  path = "" ∨ (PurePath.posix path).root ≠ "" ∨ ".." ∈ (PurePath.posix path).tail

instance (path : String) : Decidable (Unusable path) := inferInstanceAs (Decidable (_ ∨ _ ∨ _))

/-- An offset: an integer that is not negative, and no truth value. -/
def offsetOf : Json → Option ℤ
  | .int n => if 0 ≤ n then some n else none
  | _ => none

/-- `str(raw.get("path") or "")`. -/
def pathOf (raw : Json) : String := textOr tables.unicode.printable (raw.field "path") ""

/-- `raw.get("offsets") or []`, as it is iterated. -/
def rawOffsets (raw : Json) : Except PyError (List Json) :=
  ((raw.field "offsets").orElse (.arr [])).iter

/-- One turn of the loop of `work_order`; nothing for an entry that is dropped. -/
def readEntry (raw : Json) : Except PyError (Option (String × List ℤ)) :=
  match raw with
  | .obj fields =>
    if Unusable (pathOf tables (.obj fields)) then .ok none
    else do
      let values ← rawOffsets (.obj fields)
      return some (pathOf tables (.obj fields), sortedSet (values.filterMap offsetOf).toFinset)
  | _ => .ok none

/-- `work_order`. -/
def workOrder (order : Json) : Except PyError (List (String × List ℤ)) := do
  let entries ← (order.field "binaries").listed.mapM (readEntry tables)
  return sortBy (fun entry => toLex (entry.1, entry.2)) entries.reduceOption

end Order

/-! ## One binary -/

section Analyze

variable (tables : Tables)

/-- `BENIGN_LOG_ERRORS`. -/
def benignLogErrors : List String :=
  ["Could not determine local host name", "UnknownHostException", "DWARF", "DW_OP_",
    "pseudo-relocation"]

/-- A log line that explains a failure. -/
def Explains (line : List Char) : Prop :=
  ("ERROR".toList <:+: line ∨ "Exception".toList <:+: line) ∧
    ∀ noise ∈ benignLogErrors, ¬noise.toList <:+: line

instance (line : List Char) : Decidable (Explains line) := inferInstanceAs (Decidable (_ ∧ _))

/-- `failure_reason`.  No blank line explains anything, so `\r\n` may end two lines. -/
def failureReason (outcome : HeadlessOutcome) : String :=
  match ((outcome.output.toList.splitOnP tables.lineEnd).map (strip tables.unicode.space)).find?
      fun line => decide (Explains line) with
  | some line => String.ofList (line.take 300)
  | none =>
    "analyzeHeadless exited " ++ (outcome.exitCode.elim "None" toString)
      ++ " without writing a result"

/-- `_address_order`. -/
def addressOrder (site : XrefSite) : ℕ ×ₗ String :=
  toLex (site.fromAddress.length, site.fromAddress)

/-- `MAX_REFERENCES_PER_TARGET`. -/
def maxReferencesPerTarget : ℕ := 32

/-- A target, with its first references in the order of their addresses. -/
def readTarget (raw : Json) : Except PyError XrefTarget := do
  let target ← XrefTarget.fromJson tables.toNumerals tables.unicode.printable raw
  return { target with
    references := (sortBy addressOrder target.references).take maxReferencesPerTarget }

/-- `isinstance(value, dict)`. -/
def isObject : Json → Bool
  | .obj _ => true
  | _ => false

/-- `_interpret`, from the document on. -/
def interpretDocument (path : String) (outcome : HeadlessOutcome) (durationS : ℚ) (data : Json) :
    Except PyError BinaryResult := do
  let raws ← ((← data.getOrNull "targets").orElse (.arr [])).iter
  let targets ← (raws.filter isObject).mapM (readTarget tables)
  let timedOut := "timed out".toList <:+: tables.unicode.lower outcome.output.toList
  let language := textOr tables.unicode.printable (← data.getOrNull "language") ""
  let functionCount ← ((← data.getOrNull "function_count").orElse (.int 0)).toInt tables.toNumerals
  return {
    path
    status := "analyzed"
    reason := if timedOut then
      some "Ghidra's analysis timeout fired; references may be incomplete" else none
    language := if language = "" then none else some language
    functionCount
    durationS := some durationS
    targets := sortBy XrefTarget.fileOffset targets }

/-- `_interpret`. -/
def interpret (path : String) (outcome : HeadlessOutcome) (output : JsonFile) (durationS : ℚ) :
    Except PyError BinaryResult :=
  if outcome.timedOut then
    .ok { path, status := "timeout", durationS := some durationS
          reason := some ("no result within " ++ tables.seconds durationS ++ "s") }
  else
    match output with
    | .missing =>
      .ok { path, status := "failed", durationS := some durationS
            reason := some (failureReason tables outcome) }
    | .unreadable message =>
      .ok { path, status := "failed", durationS := some durationS
            reason := some ("the post-script wrote unreadable output: " ++ message) }
    | .raises e => .error e
    | .document data => interpretDocument tables path outcome durationS data

/-- `max(1, int(budget_s * ANALYSIS_SHARE))`. -/
def analysisTimeout : Seconds → Except PyError ℤ
  | .finite s => .ok (max 1 ((s * (3 / 4)).num.tdiv (s * (3 / 4)).den))
  | .infinite => .error (.overflowError "cannot convert float infinity to integer")

variable (args : Args) (around : Surroundings)

/-- `min(args.per_binary_timeout, deadline - time.monotonic())`. -/
def budget (i : ℕ) : Seconds :=
  args.perBinaryTimeout.min (args.totalTimeout.left around.start (around.now i))

/-- `MIN_BINARY_BUDGET_S`. -/
def minBinaryBudgetS : ℚ := 30

/-- `analyze_binary`, when there is time.  The runner gets the offsets and the timeout; what it says
is `around`'s. -/
def runBinary (i : ℕ) (path : String) : Except PyError BinaryResult := do
  if !(← around.isFile path) then
    return { path, status := "failed", reason := some "the binary was not staged" }
  let _ ← analysisTimeout (budget args around i)
  interpret tables path (around.outcome i) (around.output i) (around.durationS i)

/-- `analyze_binary`. -/
def analyzeBinary (i : ℕ) (path : String) : Except PyError BinaryResult :=
  if (budget args around i).Below minBinaryBudgetS then
    .ok { path, status := "skipped"
          reason := some "the analyzer's time budget ran out before this binary" }
  else runBinary tables args around i path

/-- The body of the loop of `main`, up to the result of the binary. -/
def binaryOf (i : ℕ) (path : String) : Except PyError BinaryResult :=
  if args.maxBinaries ≤ i then
    .ok { path, status := "skipped"
          reason := some ("over the " ++ toString args.maxBinaries ++ "-binary cap for one run") }
  else analyzeBinary tables args around i path

/-- …and the rest of it. -/
def addBinary (result : GhidraResult) (entry : (String × List ℤ) × ℕ) :
    Except PyError GhidraResult := do
  let binary ← binaryOf tables args around entry.2 entry.1.1
  return { result with
    truncated := result.truncated || binary.status == "skipped"
    binaries := result.binaries ++ [binary] }

/-- `main`: the exit code, and the document that was written. -/
def main (order : JsonFile) : Except PyError (ℕ × Option Json) :=
  match order with
  | .missing | .unreadable _ => .ok (2, none)
  | .raises e => .error e
  | .document order => do
    let entries ← workOrder tables order
    let result ← entries.zipIdx.foldlM (addBinary tables args around)
      { ghidraVersion := around.ghidraVersion }
    return (0, some (resultToJson tables result))

end Analyze

end BareAnalysis.GhidraAnalyzer
