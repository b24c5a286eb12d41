import BareAnalysis.Machinery.Effects
import BareAnalysis.Machinery.Json
import BareAnalysis.Unpack.Budget
import BareAnalysis.Unpack.Disk

/-!
# Unpack/Extractor — recursive extraction

    _walk ──depth? budget? container?──▸ _extract_one ──written──▸ nodes ──▸ _walk each child

`core/unpack/extractor.py`.  The decoders (zip, tar, gzip, JSON, `7z`, `unsquashfs`) come in as
`Libraries`; everything the extractor does with their output is here.  `Extraction.journal` is no
part of the program: it records what was done in which order, for the proofs.
-/

namespace BareAnalysis

/-! ## What the extractor is given -/

/-- A stream: the bytes it delivers, and what it raises after them. -/
structure Reader where
  content : Bytes
  failure : Option String := none

/-- `zipfile.ZipInfo`, with what opening the member raises and its stream. -/
structure ZipInfo where
  filename : String
  isDir : Bool := false
  fileSize : ℕ
  openError : Option String := none
  reader : Reader

/-- `tarfile.TarInfo`, with the stream `extractfile` gives. -/
structure TarInfo where
  name : String
  isFile : Bool := true
  size : ℤ
  extracted : Option Reader

/-- A run of an external tool: the files it wrote, by their path under the destination, and its exit
code with the end of its error output, or the exception of a run that timed out. -/
structure ToolRun where
  files : List (Path × Bytes)
  outcome : Except String (ℤ × String)

/-- The code outside the repository that the extractor calls. -/
structure Libraries where
  /-- `str.isalnum`, `str.isalpha`, `str.lower`, `repr`. -/
  isAlnum : Char → Bool
  isAlpha : Char → Bool
  lower : String → String
  repr : String → String
  /-- Paths the operating system does not create: names too long, or not encodable. -/
  refuses : Path → Option String
  /-- `st_size` of a directory. -/
  directorySize : ℕ
  zip : Bytes → Except String (List ZipInfo)
  tar : Bytes → Except String (List TarInfo)
  isTar : Bytes → Except String Bool
  gunzip : Bytes → Reader
  /-- `json.loads(data.decode("utf-8"))`. -/
  loads : Bytes → Except String Json
  sevenZip : Option (Disk → Path → Path → ToolRun)
  unsquashfs : Option (Disk → Path → Path → ToolRun)

/-! ## What the extractor keeps -/

/-- A file of an archive that was written; its bytes are kept for the proofs. -/
structure Written where
  path : Path
  content : Bytes
  deriving DecidableEq

/-- `ExtractedNode`. -/
structure ExtractedNode where
  pathInTree : String
  relativePath : Path
  parentPathInTree : Option String
  depth : ℤ
  sizeBytes : ℕ
  container : String
  extractedBy : String
  sha256 : String := ""
  deriving DecidableEq

/-- What an extraction did, step by step. -/
inductive Event
  /-- A container was opened. -/
  | opened (source : Path)
  /-- The depth cap stopped the walk at a file; `wanted` if `detect` says to unpack it. -/
  | tooDeep (source : Path) (wanted : Bool)
  /-- An exhausted budget stopped the walk at a file. -/
  | exhausted (source : Path) (wanted : Bool)
  | reserved (size : ℤ)
  | refused (size : ℤ)
  /-- A file was written for which `allowed` bytes had been reserved. -/
  | wrote (via : Container) (path : Path) (content : Bytes) (allowed : ℤ)
  | removed (path : Path)
  | ranTool (source : Path)
  /-- An extraction returned the file. -/
  | kept (file : Written)
  /-- A node was made of the file. -/
  | listed (file : Written)
  deriving DecidableEq

/-- `BudgetExceeded`, or any other exception, with its text. -/
inductive ExtractionError
  | budget (e : BudgetExceeded)
  | other (text : String)
  deriving DecidableEq

/-- `str(exc)`. -/
def ExtractionError.message : ExtractionError → String
  | budget e => e.message
  | other text => text

/-- The state of an `Extractor`, with the disk it writes to. -/
structure Extraction where
  disk : Disk := {}
  budget : ExtractionBudget := {}
  nodes : List ExtractedNode := []
  errors : List String := []
  journal : List Event := []

/-- `ExtractionResult.truncated`. -/
def Extraction.truncated (x : Extraction) : Bool := !x.budget.exceeded.isEmpty

/-- Write down what happened. -/
def Extraction.log (x : Extraction) (events : List Event) : Extraction :=
  { x with journal := x.journal ++ events }

/-- A step of an extraction. -/
abbrev Act (α : Type) := Eff ExtractionError Extraction α

/-! ## Names -/

/-- The last item of `text.split(sep)`: `skip` characters of a separator are still to be passed over,
and the item so far is held backwards. -/
def lastItem (sep : List Char) : List Char → ℕ → List Char → List Char
  | [], _, item => item.reverse
  | _ :: text, skip + 1, item => lastItem sep text skip item
  | c :: text, 0, item =>
    if sep.isPrefixOf (c :: text) then lastItem sep text (sep.length - 1) []
    else lastItem sep text 0 (c :: item)

/-- `_slugify`. -/
def slugify (isAlnum : Char → Bool) (pathInTree : String) (depth : ℤ) : String :=
  let tail := lastItem " → ".toList pathInTree.toList 0 []
  let safe := (tail.map fun c => if isAlnum c || c ∈ ['.', '_', '-'] then c else '_').take 60
  "d" ++ toString depth ++ "_" ++ (if safe = [] then "node" else String.ofList safe)

example : slugify Char.isAlphanum "setup.exe → app 1.7z" 1 = "d1_app_1.7z" := by decide

/-- `_safe_join`: a member's path under `root`, or nothing if it escapes.  A null character makes
`resolve` raise. -/
def safeJoin (isAlpha : Char → Bool) (root : Path) (member : String) :
    Except ExtractionError (Option Path) :=
  let cleaned := member.toList.map fun c => if c = '\\' then '/' else c
  let cleaned := match cleaned with
    | c :: ':' :: rest => if isAlpha c then rest else cleaned
    | _ => cleaned
  let cleaned := cleaned.dropWhile fun c => c = '/'
  if cleaned = [] ∨ cleaned = ['.'] ∨ cleaned = ['.', '.'] then .ok none
  else if '\x00' ∈ cleaned then .error (.other "lstat: embedded null character in path")
  else
    let candidate := Path.resolve (root ++ Path.partsOf (String.ofList cleaned))
    .ok ((candidate.relativeTo? root).map fun _ => candidate)

/-! ## Steps -/

section Steps

variable (lib : Libraries)

/-- Write down what happened. -/
def record (events : List Event) : Act Unit := modify fun x => x.log events

/-- `self.result.errors.append`. -/
def noteError (text : String) : Act Unit :=
  modify fun x => { x with errors := x.errors ++ [text] }

/-- `self.budget.reserve`. -/
def reserve (size : ℤ) : Act Unit := do
  let x ← get
  match x.budget.reserve size with
  | (budget, none) => modify fun x => { x with budget := budget }.log [.reserved size]
  | (budget, some e) => do
    modify fun x => { x with budget := budget }.log [.refused size]
    throw (.budget e)

/-- `path.mkdir(parents=True, exist_ok=True)`. -/
def mkdir (p : Path) : Act Unit := do
  let x ← get
  match x.disk.mkdir lib.refuses p with
  | .ok disk => modify fun x => { x with disk := disk }
  | .error text => throw (.other text)

/-- The bytes of a file that is read. -/
def contentOf (p : Path) : Act Bytes := do
  let x ← get
  match x.disk.read p with
  | some content => pure content
  | none => throw (.other (Disk.osError 2 "No such file or directory" p))

/-- `path.open("wb")`, and the bytes written to it. -/
def writeBytes (via : Container) (p : Path) (content : Bytes) (allowed : ℤ) : Act Unit := do
  let x ← get
  match x.disk.openError lib.refuses p with
  | some text => throw (.other text)
  | none => modify fun x => { x with disk := x.disk.put p content }.log [.wrote via p content allowed]

/-- What a stream raises in the end. -/
def finish (reader : Reader) : Act Unit :=
  match reader.failure with
  | some text => throw (.other text)
  | none => pure ()

/-- `shutil.copyfileobj` into a new file: what came before an exception stays written. -/
def copyTo (via : Container) (p : Path) (reader : Reader) (allowed : ℤ) : Act Unit := do
  writeBytes lib via p reader.content allowed
  finish reader

/-! ## Formats -/

/-- One turn of the loop of `_extract_zip`. -/
def addZipEntry (destination : Path) (written : List Written) (info : ZipInfo) :
    Act (List Written) := do
  if info.isDir then pure written
  else
    match ← Eff.ofExcept (safeJoin lib.isAlpha destination info.filename) with
    | none => do
      noteError ("refused path-traversing zip entry " ++ lib.repr info.filename)
      pure written
    | some target => do
      reserve info.fileSize
      mkdir lib target.dropLast
      finish ⟨[], info.openError⟩
      copyTo lib .zip target info.reader info.fileSize
      pure (written ++ [⟨target, info.reader.content⟩])

/-- `_extract_zip`. -/
def extractZip (source destination : Path) : Act (List Written) := do
  let content ← contentOf source
  let infolist ← Eff.ofExcept ((lib.zip content).mapError .other)
  infolist.foldlM (addZipEntry lib destination) []

/-- One turn of the loop of `_extract_tar`. -/
def addTarMember (destination : Path) (written : List Written) (member : TarInfo) :
    Act (List Written) := do
  if !member.isFile then pure written
  else
    match ← Eff.ofExcept (safeJoin lib.isAlpha destination member.name) with
    | none => do
      noteError ("refused path-traversing tar entry " ++ lib.repr member.name)
      pure written
    | some target => do
      reserve member.size
      mkdir lib target.dropLast
      match member.extracted with
      | none => pure written
      | some reader => do
        copyTo lib .tar target reader member.size
        pure (written ++ [⟨target, reader.content⟩])

/-- `_extract_tar`. -/
def extractTar (source destination : Path) : Act (List Written) := do
  let content ← contentOf source
  let members ← Eff.ofExcept ((lib.tar content).mapError .other)
  members.foldlM (addTarMember lib destination) []

/-- `_extract_gzip`: a tar inside, or a single file, for which the reservation is a guess. -/
def extractGzip (source destination : Path) : Act (List Written) := do
  let content ← contentOf source
  if ← Eff.ofExcept ((lib.isTar content).mapError .other) then extractTar lib source destination
  else
    let name := if source.stem = "" then "decompressed" else source.stem
    let target := Path.resolve (destination ++ [name])
    let x ← get
    let guess := min x.budget.bytesRemaining (content.length * 20)
    reserve guess
    copyTo lib .gzip target (lib.gunzip content) guess
    pure [⟨target, (lib.gunzip content).content⟩]

/-- The files of an ASAR directory with their paths, in the order `walk` comes to them. -/
def asarFiles : ℕ → Json → String → List (String × Json)
  | 0, _, _ => []
  | levels + 1, .obj fields, pre =>
    match Dict.get? fields "files" with
    | some (.obj files) => (Json.items files).flatMap fun file =>
      match file.2 with
      | .obj entry =>
        let childPath := if pre = "" then file.1 else pre ++ "/" ++ file.1
        if (Dict.get? entry "files").isSome then asarFiles levels file.2 childPath
        else [(childPath, file.2)]
      | _ => []
    | _ => []
  | _ + 1, _, _ => []

/-- `handle.seek(start)`, `handle.read(size)`: a size of -1 reads to the end. -/
def readAt (content : Bytes) (start size : ℤ) : Except ExtractionError Bytes :=
  if start < 0 then .error (.other "[Errno 22] Invalid argument")
  else if 2 ^ 63 ≤ start then .error (.other "Python int too large to convert to C long")
  else if size = -1 then .ok (content.drop start.toNat)
  else if size < -1 then .error (.other "read length must be non-negative or -1")
  else .ok ((content.drop start.toNat).take size.toNat)

/-- One turn of the loop of `_extract_asar`. -/
def addAsarFile (content : Bytes) (baseOffset : ℕ) (destination : Path) (written : List Written)
    (file : String × Json) : Act (List Written) := do
  let number (key : String) : Except ExtractionError ℤ :=
    ((file.2.getD key (.int 0)).bind Json.asInt).mapError fun e => .other e.message
  let size ← Eff.ofExcept (number "size")
  let offset ← Eff.ofExcept (number "offset")
  match ← Eff.ofExcept (safeJoin lib.isAlpha destination file.1) with
  | none => do
    noteError ("refused ASAR entry " ++ lib.repr file.1)
    pure written
  | some target => do
    reserve size
    mkdir lib target.dropLast
    let data ← Eff.ofExcept (readAt content (baseOffset + offset) size)
    writeBytes lib .asar target data size
    pure (written ++ [⟨target, data⟩])

/-- `_extract_asar`. -/
def extractAsar (source destination : Path) : Act (List Written) := do
  let content ← contentOf source
  if content.length < 16 then throw (.other "truncated ASAR header")
  else
    let headerSize := fromLittle (slice content 12 16)
    let header := slice content 16 (16 + headerSize)
    let text := (header.reverse.dropWhile fun b => b = 0).reverse
    let directory ← Eff.ofExcept ((lib.loads text).mapError .other)
    let _ ← Eff.ofExcept ((directory.get? "files").mapError fun e => .other e.message)
    (asarFiles directory.depth directory "").foldlM
      (addAsarFile lib content (16 + headerSize) destination) []

/-- One turn of the loop of `_collect`: an external tool writes before it can be charged, so a file
over the cap is deleted. -/
def collectFile (collected : List Written) (p : Path) : Act (List Written) := do
  let x ← get
  match x.disk.read p with
  | none => pure collected
  | some content =>
    if content.length < 1 then pure collected
    else do
      tryCatch (reserve content.length) fun e => do
        modify fun x => { x with disk := x.disk.unlink p }.log [.removed p]
        throw e
      pure (collected ++ [⟨p, content⟩])

/-- `_collect`. -/
def collect (destination : Path) : Act (List Written) := do
  let x ← get
  (x.disk.filesUnder destination).foldlM collectFile []

/-- An external tool's files on the disk. -/
def placeFile (via : Container) (file : Path × Bytes) : Act Unit := do
  modify fun x => { x with disk := x.disk.addDirs file.1.dropLast }
  modify fun x => { x with disk := x.disk.put file.1 file.2 }.log [.wrote via file.1 file.2 0]

/-- An external tool on one container: run it, judge its exit code, collect what it wrote. -/
def extractWithTool (via : Container) (tool : Option (Disk → Path → Path → ToolRun))
    (name : String) (failed : ℤ → Bool) (source destination : Path) : Act (List Written) :=
  match tool with
  | none => throw (.other (name ++ " is not available in this image"))
  | some run => do
    let x ← get
    let completed := run x.disk source destination
    record [.ranTool source]
    completed.files.forM fun file => placeFile via (destination ++ file.1, file.2)
    match completed.outcome with
    | .error text => throw (.other text)
    | .ok (code, stderr) =>
      if failed code then
        throw (.other (name ++ " exited " ++ toString code ++ ": "
          ++ String.ofList (stderr.toList.take 400)))
      else collect destination

/-- `_extract_with_7z`: an exit code of 1 is a warning. -/
def extractWith7z : Path → Path → Act (List Written) :=
  extractWithTool .sevenzip lib.sevenZip "7z" fun code => decide (1 < code)

/-- `_extract_squashfs`. -/
def extractSquashfs : Path → Path → Act (List Written) :=
  extractWithTool .squashfs lib.unsquashfs "unsquashfs" fun code => decide (code ≠ 0)

/-- `_extract_one`. -/
def extractOne (source destination : Path) (container : Container) : Act (List Written) :=
  match container with
  | .zip | .jar | .apk => extractZip lib source destination
  | .tar => extractTar lib source destination
  | .gzip => extractGzip lib source destination
  | .asar => extractAsar lib source destination
  | .pyinstaller | .sevenzip | .rar | .cab | .msi | .iso | .nsis | .xz | .bzip2 | .dmg | .cpio
  | .inno => extractWith7z lib source destination
  | .squashfs => extractSquashfs lib source destination
  | .none => throw (.other ("no extractor for " ++ container.value))

/-! ## Recursion -/

/-- `detect(path)`. -/
def detect (disk : Disk) (p : Path) : Detection :=
  match disk.read p with
  | some content => detectContent content (lib.lower p.suffix)
  | none => ⟨.none, 0, "unreadable: " ++ Disk.osError 2 "No such file or directory" p⟩

/-- The `try` of `_walk`: what an extraction raises is noted, and nothing is listed. -/
def attempt (pathInTree : String) (container : Container) (extraction : Act (List Written)) :
    Act (Option (List Written)) :=
  tryCatch (do return some (← extraction)) fun e => do
    match e with
    | .budget e => noteError (pathInTree ++ ": " ++ e.message)
    | .other text =>
      noteError (pathInTree ++ ": " ++ container.value ++ " extraction failed: " ++ text)
    return none

/-- `path.stat().st_size`. -/
def sizeOnDisk (disk : Disk) (p : Path) : Except ExtractionError ℕ :=
  match disk.read p with
  | some content => .ok content.length
  | none =>
    if disk.isDir p then .ok lib.directorySize
    else .error (.other (Disk.osError 2 "No such file or directory" p))

/-- `path.relative_to(base)`. -/
def relativeTo (p base : Path) : Except ExtractionError Path :=
  match p.relativeTo? base with
  | some rel => .ok rel
  | none => .error (.other ("'/" ++ "/".intercalate p ++ "' is not in the subpath of '/"
      ++ "/".intercalate base ++ "'"))

/-- One turn of the loop of `_walk` over what an extraction wrote. -/
def addChild (outputRoot : Path) (walk : Path → String → ℤ → Act Unit) (destination : Path)
    (container : Container) (pathInTree : String) (depth : ℤ) (child : Written) : Act Unit := do
  let relative ← Eff.ofExcept (relativeTo child.path outputRoot)
  let childName ← Eff.ofExcept (relativeTo child.path destination)
  let childPathInTree := pathInTree ++ " → " ++ childName.asPosix
  let x ← get
  let childDetection := detect lib x.disk child.path
  let size ← Eff.ofExcept (sizeOnDisk lib x.disk child.path)
  let node : ExtractedNode :=
    { pathInTree := childPathInTree
      relativePath := relative
      parentPathInTree := some pathInTree
      depth := depth + 1
      sizeBytes := size
      container := childDetection.container.value
      extractedBy := container.value }
  modify fun x => { x with nodes := x.nodes ++ [node] }.log [.listed child]
  if childDetection.shouldUnpack then walk child.path childPathInTree (depth + 1)
  else pure ()

/-- `_walk` from its `try` on: extract the container, list what came out, walk each child. -/
def unpack (outputRoot : Path) (walk : Path → String → ℤ → Act Unit) (source : Path)
    (container : Container) (pathInTree : String) (depth : ℤ) : Act Unit := do
  let destination := outputRoot ++ [slugify lib.isAlnum pathInTree depth]
  let extraction := do
    mkdir lib destination
    extractOne lib source destination container
  match ← attempt pathInTree container extraction with
  | none => pure ()
  | some written => do
    record (written.map .kept)
    written.forM (addChild lib outputRoot walk destination container pathInTree depth)

/-- The body of `_walk`, with the walk of the children a parameter. -/
def walkBody (outputRoot : Path) (walk : Path → String → ℤ → Act Unit) (source : Path)
    (pathInTree : String) (depth : ℤ) : Act Unit := do
  let x ← get
  let detection := detect lib x.disk source
  match x.budget.checkDepth depth with
  | (budget, some e) => do
    modify fun x => { x with budget := budget }.log [.tooDeep source detection.shouldUnpack]
    noteError (pathInTree ++ ": " ++ e.message)
  | (_, none) =>
    -- the one stop that leaves no note
    if x.budget.isExhausted then record [.exhausted source detection.shouldUnpack]
    else if !detection.shouldUnpack then pure ()
    else do
      record [.opened source]
      unpack lib outputRoot walk source detection.container pathInTree depth

/-- `_walk`, down to a number of levels below which the depth check lets no call pass. -/
def walk (outputRoot : Path) : ℕ → Path → String → ℤ → Act Unit
  | 0 => walkBody lib outputRoot fun _ _ _ => pure ()
  | levels + 1 => walkBody lib outputRoot (walk outputRoot levels)

/-- `Extractor.extract_tree`. -/
def extractTree (artifact outputRoot : Path) (rootName : String) : Act Unit := do
  let x ← get
  mkdir lib outputRoot
  walk lib outputRoot (x.budget.maxDepth + 1).toNat artifact rootName 0

end Steps

end BareAnalysis
