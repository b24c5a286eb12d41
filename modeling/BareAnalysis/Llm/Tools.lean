import BareAnalysis.Foundations.Tables
import BareAnalysis.Machinery.Json
import BareAnalysis.Machinery.Utf8
import BareAnalysis.Scanner.Scan

/-!
# Llm/Tools — what an investigating model may call

    call ──handler──▸ text, as it stands ──mask long runs──▸ · ──cut──▸ output

`core/llm/tools.py`.  A handler gives the text it found and whether `_emit` has to mask it; `run`
masks and cuts.  The bytes a call read or decoded are kept beside its reply, for what is proved about
it.
-/

namespace BareAnalysis

/-- `MAX_BYTES_WINDOW`. -/
def maxBytesWindow : ℤ := 512

/-- `MAX_DECODE_INPUT`. -/
def maxDecodeInput : ℕ := 16384

/-- `MAX_RESULT_CHARS`. -/
def maxResultChars : ℕ := 1200

/-- `MAX_SEARCH_HITS`. -/
def maxSearchHits : ℕ := 40

/-- `MAX_ARTIFACTS_LISTED`. -/
def maxArtifactsListed : ℕ := 60

/-! ## Redaction -/

/-- `[A-Za-z0-9+/=_\-]`. -/
def isSecretish (c : Char) : Bool := c.isAlphanum || ['+', '/', '=', '_', '-'].contains c

/-- How long a run has to be. -/
def secretishLength : ℕ := 20

/-- A run that has ended. -/
def maskRun (run : List Char) : List Char := if secretishLength ≤ run.length then mask run else run

/-- `_SECRETISH.sub`, inside a run: runs are matched whole. -/
def maskSecretishFrom : List Char → List Char → List Char
  | run, [] => maskRun run
  | run, c :: text =>
    if isSecretish c then maskSecretishFrom (run ++ [c]) text
    else maskRun run ++ c :: maskSecretishFrom [] text

/-- `_mask_secretish`. -/
def maskSecretish (text : List Char) : List Char := maskSecretishFrom [] text

/-! ## Results -/

/-- What a handler found. -/
structure ToolReply where
  ok : Bool
  text : List Char
  /-- The text goes through `_emit`. -/
  emitted : Bool := false
  detail : String := ""
  /-- The bytes read or decoded for it. -/
  bytes : Bytes := []

/-- A reply with nothing but a reason. -/
def ToolReply.failed (detail : String) : ToolReply := { ok := false, text := [], detail }

structure ToolResult where
  ok : Bool
  output : List Char
  detail : String := ""

/-- What follows a cut output, after a line break. -/
def truncationNote : List Char := "... [truncated at 1200 characters]".toList

/-- The output of `ToolResult.truncated`. -/
def truncatedOutput (output : List Char) : List Char :=
  if output.length ≤ maxResultChars then output
  else output.take maxResultChars ++ '\n' :: truncationNote

/-! ## Renderings -/

/-- `f"{n:x}"`. -/
def hexDigits (n : ℕ) : List Char := Nat.toDigits 16 n

/-- `f"{n:0widthx}"`. -/
def hexPadded (width n : ℕ) : List Char :=
  List.replicate (width - (hexDigits n).length) '0' ++ hexDigits n

/-- `text.ljust(width)`. -/
def ljust (width : ℕ) (text : List Char) : List Char :=
  text ++ List.replicate (width - text.length) ' '

/-- The printable column of a dump. -/
def dumpChar (b : UInt8) : Char := if 0x20 ≤ b ∧ b < 0x7F then Char.ofNat b.toNat else '.'

/-- One row of a dump. -/
def dumpRow (offset : ℕ) (chunk : Bytes) : List Char :=
  hexPadded 8 offset ++ [' ', ' ']
    ++ ljust 47 ([' '].intercalate (chunk.map fun b => hexPadded 2 b.toNat))
    ++ [' ', ' ', '|'] ++ chunk.map dumpChar ++ ['|']

/-- The rows of a dump, sixteen bytes each. -/
def dumpRows (offset : ℕ) (data : Bytes) : List (List Char) :=
  (List.range ((data.length + 15) / 16)).map fun i =>
    dumpRow (offset + 16 * i) ((data.drop (16 * i)).take 16)

/-- `data.hex()`. -/
def bytesHex (data : Bytes) : List Char := data.flatMap fun b => hexPadded 2 b.toNat

/-! ## The libraries -/

/-- What the tools call. -/
structure ToolLibraries where
  unicode : Unicode
  /-- `base64.b64decode(text, validate=True)`. -/
  b64decode : List Char → Except PyError Bytes
  /-- `base64.urlsafe_b64decode(text)`. -/
  urlsafeB64decode : List Char → Except PyError Bytes
  /-- `binascii.unhexlify(text)`. -/
  unhexlify : List Char → Except PyError Bytes
  /-- `urllib.parse.unquote_to_bytes(text)`. -/
  unquoteToBytes : List Char → Except PyError Bytes
  /-- `gzip.decompress(data)`. -/
  gunzip : Bytes → Except PyError Bytes
  /-- `zlib.decompress(data)`. -/
  inflate : Bytes → Except PyError Bytes
  /-- `re.compile(pattern).search`. -/
  compile : String → Except PyError (List Char → Bool)
  /-- `f"{shannon_entropy(text):.2f}"`. -/
  entropyText : List Char → List Char

section Decoders

variable (lib : ToolLibraries)

/-- `text + "=" * (-len(text) % 4)`. -/
def padded (text : List Char) : List Char := text ++ List.replicate ((4 - text.length % 4) % 4) '='

/-- `text.encode("latin-1")`. -/
def encodeLatin1 (text : List Char) : Except PyError Bytes :=
  if text.all fun c => c.toNat < 256 then .ok (text.map fun c => UInt8.ofNat c.toNat)
  else .error (.valueError "'latin-1' codec can't encode characters")

/-- `text.encode("utf-16-le", "replace")`. -/
def encodeUtf16le (text : List Char) : Bytes :=
  let unit (n : ℕ) : Bytes := [UInt8.ofNat (n % 256), UInt8.ofNat (n / 256)]
  text.flatMap fun c =>
    if c.toNat < 0x10000 then unit c.toNat
    else unit (0xD800 + (c.toNat - 0x10000) / 0x400) ++ unit (0xDC00 + (c.toNat - 0x10000) % 0x400)

/-- `_DECODERS`. -/
def toolDecoders : List (String × (List Char → Except PyError Bytes)) :=
  [("base64", fun text => lib.b64decode (padded text)),
    ("base64url", fun text => lib.urlsafeB64decode (padded text)),
    ("hex", fun text => lib.unhexlify ((strip lib.unicode.space text).filter (· ≠ ' '))),
    ("url", lib.unquoteToBytes),
    ("gzip", fun text => do lib.gunzip (← encodeLatin1 text)),
    ("zlib", fun text => do lib.inflate (← encodeLatin1 text)),
    ("utf-16", fun text => .ok (encodeUtf16le text))]

/-- `_as_printable`: more than 85 in a hundred characters are. -/
def asPrintable (raw : Bytes) : Option (List Char) :=
  let text := (Utf8.decodeStrict raw).getD (raw.map fun b => Char.ofNat b.toNat)
  let printable := text.countP fun c => lib.unicode.printable c || ['\n', '\r', '\t'].contains c
  if text ≠ [] ∧ 85 * text.length < 100 * printable then some text else none

end Decoders

/-- `type(exc).__name__`. -/
def PyError.typeName : PyError → String
  | lookupError _ => "LookupError"
  | keyError _ => "KeyError"
  | attributeError _ => "AttributeError"
  | typeError _ => "TypeError"
  | valueError _ => "ValueError"
  | overflowError _ => "OverflowError"
  | external _ => "ClientError"
  | database _ => "DatabaseError"

/-! ## The box -/

/-- A file of the run. -/
structure ToolFile extends Artifact

/-- The tools of one run, under one redaction policy. -/
structure ToolBox where
  /-- The rows of the run. -/
  files : List ToolFile := []
  evidence : List Evidence := []
  /-- The object store. -/
  objects : String → Option Bytes := fun _ => none
  allowPlaintext : Bool := false

/-- A tool, and its arguments. -/
structure ToolCall where
  tool : String
  arguments : List (String × Json)

/-- `args.get(key, default)`. -/
def ToolCall.argument (call : ToolCall) (key : String) (default : Json) : Json :=
  (Dict.get? call.arguments key).getD default

namespace ToolBox

variable (lib : ToolLibraries) (box : ToolBox)

/-- `str(args.get(key, ""))`. -/
def textArgument (call : ToolCall) (key : String) : String :=
  (call.argument key (.str "")).text lib.unicode.printable

/-- `_artifact_index`. -/
def artifactIndex : Dict String ToolFile := indexBy (·.pathInTree) box.files

/-- `ObjectStore.read_range`. -/
def readRange (key : String) (offset : ℕ) (length : ℤ) : Except PyError Bytes :=
  match box.objects key with
  | none => .error (.external "NoSuchKey")
  | some content =>
    if content.length ≤ offset then .error (.external "InvalidRange")
    else .ok ((content.take (offset + (max length 1).toNat)).drop offset)

/-- `_read_bytes`, of a file that has bytes. -/
def readStored (call : ToolCall) (path key : String) : Except PyError ToolReply := do
  let offset := max 0 (← (call.argument "offset" (.int 0)).asInt)
  let length := min (← ((call.argument "length" (.int 256)).orElse (.int 256)).asInt) maxBytesWindow
  let data ← box.readRange key offset.toNat length
  if data = [] then
    return .failed ("no bytes at offset " ++ toString offset ++ " in "
      ++ Json.quoteText lib.unicode.printable path)
  return {
    ok := true
    text := ['\n'].intercalate (dumpRows offset.toNat data)
    emitted := true
    bytes := data }

/-- `_read_bytes`. -/
def readBytes (call : ToolCall) : Except PyError ToolReply :=
  let path := textArgument lib call "artifact_path"
  let quoted := Json.quoteText lib.unicode.printable path
  match Dict.get? box.artifactIndex path with
  | none => .ok (.failed ("no file " ++ quoted ++ " in this run; call list_files first"))
  | some file =>
    match file.storageKey with
    | none | some "" => .ok (.failed (quoted ++ " has no stored bytes (it was not retained)"))
    | some key => box.readStored lib call path key

/-- `_decode`, once it is decoded. -/
def decoded (raw : Bytes) : ToolReply :=
  match asPrintable lib raw with
  | some text => {
      ok := true
      text
      emitted := true
      detail := toString raw.length ++ " bytes, printable"
      bytes := raw }
  | none => {
      ok := true
      text := "not printable; first ".toList ++ (toString (min raw.length 256)).toList
        ++ " bytes as hex:\n".toList ++ bytesHex (raw.take 256)
      detail := toString raw.length ++ " bytes, binary"
      bytes := raw }

/-- `_decode`. -/
def decode (call : ToolCall) : ToolReply :=
  let text := (textArgument lib call "text").toList.take maxDecodeInput
  let codec := String.ofList (lib.unicode.lower
    (strip lib.unicode.space (textArgument lib call "codec").toList))
  if text = [] then .failed "nothing to decode"
  else
    match (toolDecoders lib).find? fun decoder => decoder.1 == codec with
    | none => .failed ("unknown codec " ++ Json.quoteText lib.unicode.printable codec ++ "; try "
        ++ (Json.arr ((toolDecoders lib).map fun d => .str d.1)).reprText lib.unicode.printable)
    | some decoder =>
      match decoder.2 text with
      | .ok raw => decoded lib raw
      | .error e => .failed ("not valid " ++ codec ++ ": " ++ e.typeName)

/-- `f"0x{row.offset:x}"`. -/
def offsetText : Option ℤ → List Char
  | none => ['?']
  | some n => "0x".toList ++ (if n < 0 then ['-'] else []) ++ hexDigits n.natAbs

/-- A line of `search_strings`. -/
def hitLine (row : Evidence) : List Char :=
  let byId : Dict String String := box.artifactIndex.entries.map fun entry => (entry.2.id, entry.1)
  row.ruleId.toList ++ "  ".toList ++ row.valueMasked.toList ++ "  ".toList
    ++ ((Dict.get? byId row.artifactId).getD "?").toList ++ " @".toList ++ offsetText row.offset

/-- The hits of `search_strings` among some rows. -/
def searchRows (search : List Char → Bool) (rows : List Evidence) : ToolReply :=
  let hits := ((rows.filter fun row => search row.valueMasked.toList).take maxSearchHits).map
    box.hitLine
  if hits = [] then { ok := true, text := "no matches".toList, detail := "0 hits" }
  else {
    ok := true
    text := ['\n'].intercalate hits
    detail := toString hits.length ++ " hit(s)" }

/-- `_search_strings`. -/
def searchStrings (call : ToolCall) : ToolReply :=
  let pattern := textArgument lib call "pattern"
  if pattern = "" then .failed "a pattern is required"
  else
    match lib.compile pattern with
    | .error e => .failed ("bad regular expression: " ++ e.message)
    | .ok search =>
      let path := call.argument "artifact_path" .null
      if path.truthy then
        match Dict.get? box.artifactIndex (path.text lib.unicode.printable) with
        | none => .failed ("no file " ++ path.reprText lib.unicode.printable ++ " in this run")
        | some file =>
          box.searchRows search (box.evidence.filter fun row => row.artifactId == file.id)
      else box.searchRows search box.evidence

/-- `_list_files`. -/
def listFiles : ToolReply :=
  let rows := sortBy Prod.fst box.artifactIndex.entries
  let lines := (rows.take maxArtifactsListed).map fun row =>
    row.1.toList ++ "  ".toList ++ (toString row.2.sizeBytes).toList ++ " bytes  ".toList
      ++ (if row.2.kind.getD "" = "" then "unknown" else row.2.kind.getD "").toList
  let more := if maxArtifactsListed < rows.length then
    ["... and ".toList ++ (toString (rows.length - maxArtifactsListed)).toList
      ++ " more files".toList] else []
  let text := ['\n'].intercalate (lines ++ more)
  { ok := true
    text := if text = [] then "no files".toList else text
    detail := toString rows.length ++ " file(s)" }

/-- `_entropy`. -/
def entropy (call : ToolCall) : ToolReply :=
  let text := (textArgument lib call "text").toList
  if text = [] then .failed "nothing to measure"
  else {
    ok := true
    text := lib.entropyText text ++ " bits/char over ".toList ++ (toString text.length).toList
      ++ " characters".toList }

/-- The names in `TOOL_SPECS`. -/
def toolNames : List String := ["read_bytes", "decode", "search_strings", "list_files", "entropy"]

/-- What the handler of a call found. -/
def reply (call : ToolCall) : ToolReply :=
  match call.tool with
  | "read_bytes" =>
    match box.readBytes lib call with
    | .ok reply => reply
    | .error e => .failed (String.ofList ((e.typeName ++ ": " ++ e.message).toList.take 300))
  | "decode" => decode lib call
  | "search_strings" => box.searchStrings lib call
  | "list_files" => box.listFiles
  | "entropy" => entropy lib call
  | tool => .failed ("no such tool " ++ Json.quoteText lib.unicode.printable tool ++ "; available: "
      ++ ", ".intercalate toolNames)

/-- `_emit`. -/
def emit (text : List Char) : List Char := if box.allowPlaintext then text else maskSecretish text

/-- `ToolBox.run`. -/
def run (call : ToolCall) : ToolResult :=
  let reply := box.reply lib call
  let output := if reply.emitted then box.emit reply.text else reply.text
  ⟨reply.ok, truncatedOutput output, reply.detail⟩

end ToolBox

end BareAnalysis
