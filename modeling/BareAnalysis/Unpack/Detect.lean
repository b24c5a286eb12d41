import Mathlib.Data.Rat.Floor
import Mathlib.Data.List.Infix

/-!
# Unpack/Detect — what a file is, and whether to open it

`core/unpack/detect.py`.  Extensions that decide alone, then magic bytes, then the markers of
installers in a PE's head, overlay and tail.
-/

namespace BareAnalysis

/-- The bytes of a file. -/
abbrev Bytes := List UInt8

/-- The bytes of an ASCII literal. -/
def ascii (text : String) : Bytes := text.toList.map fun c => UInt8.ofNat c.toNat

/-- `int.from_bytes(data, "little")`. -/
def fromLittle (data : Bytes) : ℕ := data.foldr (fun b n => b.toNat + 256 * n) 0

/-- `data[start:stop]`. -/
def slice (data : Bytes) (start stop : ℕ) : Bytes := (data.drop start).take (stop - start)

/-- `Container`. -/
inductive Container
  | zip | sevenzip | tar | gzip | bzip2 | xz | rar | cab | msi | iso | nsis | inno | squashfs | cpio
  | dmg | asar | pyinstaller | jar | apk | none
  deriving DecidableEq, Repr

namespace Container

def value : Container → String
  | zip => "zip"
  | sevenzip => "7z"
  | tar => "tar"
  | gzip => "gzip"
  | bzip2 => "bzip2"
  | xz => "xz"
  | rar => "rar"
  | cab => "cab"
  | msi => "msi"
  | iso => "iso"
  | nsis => "nsis"
  | inno => "inno"
  | squashfs => "squashfs"
  | cpio => "cpio"
  | dmg => "dmg"
  | asar => "asar"
  | pyinstaller => "pyinstaller"
  | jar => "jar"
  | apk => "apk"
  | none => "none"

def isContainer (c : Container) : Bool := decide (c ≠ none)

end Container

/-- `Detection`. -/
structure Detection where
  container : Container
  confidence : ℚ
  reason : String
  deriving DecidableEq, Repr

def Detection.shouldUnpack (d : Detection) : Bool :=
  d.container.isContainer && decide (1 / 2 ≤ d.confidence)

/-! ## Tables -/

/-- `_MAGIC`: offset, magic bytes, container. -/
def magic : List (ℕ × Bytes × Container) :=
  [ (0, ascii "7z" ++ [0xbc, 0xaf, 0x27, 0x1c], .sevenzip),
    (0, ascii "Rar!" ++ [0x1a, 0x07], .rar),
    (0, ascii "MSCF", .cab),
    (0, ascii "hsqs", .squashfs),
    (0, ascii "sqsh", .squashfs),
    (0, [0xfd] ++ ascii "7zXZ" ++ [0x00], .xz),
    (0, ascii "BZh", .bzip2),
    (0, [0x1f, 0x8b], .gzip),
    (0, [0xd0, 0xcf, 0x11, 0xe0, 0xa1, 0xb1, 0x1a, 0xe1], .msi),
    (0, ascii "070701", .cpio),
    (0, ascii "070707", .cpio),
    (257, ascii "ustar", .tar),
    (0x8001, ascii "CD001", .iso),
    (0, ascii "PK" ++ [0x03, 0x04], .zip),
    (0, ascii "PK" ++ [0x05, 0x06], .zip) ]

/-- `_ZIP_FAMILY_EXTENSIONS`. -/
def zipFamilyExtensions : List (String × Container) :=
  [ (".jar", .jar), (".war", .jar), (".ear", .jar), (".apk", .apk), (".aab", .apk), (".ipa", .zip),
    (".whl", .zip), (".nupkg", .zip), (".vsix", .zip), (".xpi", .zip), (".docx", .zip),
    (".xlsx", .zip), (".pptx", .zip), (".appx", .zip) ]

/-- `_EXTENSION_ONLY`. -/
def extensionOnly : List (String × Container) :=
  [(".asar", .asar), (".tgz", .gzip), (".tbz2", .bzip2), (".txz", .xz), (".dmg", .dmg)]

/-- `_PE_INSTALLER_MARKERS`, each with the text Python prints for it. -/
def peInstallerMarkers : List (Bytes × Container × String) :=
  [ (ascii "Nullsoft", .nsis, "'Nullsoft'"),
    (ascii "NullsoftInst", .nsis, "'NullsoftInst'"),
    (ascii "Inno Setup", .inno, "'Inno Setup'"),
    (ascii "JR.Inno.Setup", .inno, "'JR.Inno.Setup'"),
    (ascii "_MEIPASS", .pyinstaller, "'_MEIPASS'"),
    (ascii "MEI" ++ [0x0c, 0x0b, 0x0a, 0x0b, 0x0e], .pyinstaller, "'MEI\\x0c\\x0b\\n\\x0b\\x0e'"),
    (ascii "PyInstaller", .pyinstaller, "'PyInstaller'") ]

/-- `_SNIFF_BYTES`. -/
def sniffBytes : ℕ := 0x8100

/-- `_TAIL_BYTES`. -/
def tailBytes : ℕ := 512 * 1024

/-- `_OVERLAY_BYTES`. -/
def overlayBytes : ℕ := 256 * 1024

/-! ## The overlay of a PE -/

/-- The largest end of a raw section with data, over the complete entries of a section table. -/
def sectionsEnd (table : Bytes) (sectionCount : ℕ) : ℕ :=
  ((List.range sectionCount).takeWhile fun index => decide (index * 40 + 40 ≤ table.length)).foldl
    (fun stop index =>
      let entry := slice table (index * 40) ((index + 1) * 40)
      let rawSize := fromLittle (slice entry 16 20)
      let rawOffset := fromLittle (slice entry 20 24)
      if rawOffset ≠ 0 ∧ rawSize ≠ 0 then max stop (rawOffset + rawSize) else stop) 0

/-- `_overlay_offset`: where a PE's appended data begins. -/
def overlayOffset (content header : Bytes) : Option ℕ :=
  if header.length < 0x40 ∨ ¬ (ascii "MZ").isPrefixOf header then none
  else
    let peOffset := fromLittle (slice header 0x3c 0x40)
    if peOffset = 0 ∨ content.length < peOffset then none
    else
      let coff := slice content peOffset (peOffset + 24)
      if coff.length < 24 ∨ ¬ (ascii "PE" ++ [0, 0]).isPrefixOf coff then none
      else
        let sectionCount := fromLittle (slice coff 6 8)
        let optionalSize := fromLittle (slice coff 20 22)
        if sectionCount = 0 ∨ 96 < sectionCount then none
        else
          let start := peOffset + 24 + optionalSize
          let stop := sectionsEnd (slice content start (start + 40 * sectionCount)) sectionCount
          if 0 < stop ∧ stop < content.length then some stop else none

/-! ## Detection -/

/-- `marker in haystack`. -/
def occursIn (marker haystack : Bytes) : Bool := haystack.tails.any marker.isPrefixOf

/-- The container the magic bytes name, the family of a ZIP by its extension. -/
def detectMagic (head : Bytes) (suffix : String) : Option Detection :=
  (magic.find? fun m => decide (slice head m.1 (m.1 + m.2.1.length) = m.2.1)).map fun m =>
    match m.2.2, zipFamilyExtensions.lookup suffix with
    | .zip, some container => ⟨container, 95 / 100, "zip signature with " ++ suffix⟩
    | container, _ => ⟨container, 95 / 100, "magic at offset " ++ toString m.1⟩

/-- The installer a PE carries, if it carries one. -/
def detectInstaller (haystack : Bytes) : Detection :=
  match peInstallerMarkers.find? fun m => occursIn m.1 haystack with
  | some m => ⟨m.2.1, 85 / 100, "PE containing " ++ m.2.2⟩
  | none => ⟨.none, 9 / 10, "PE with no installer payload detected"⟩

/-- `detect` on the bytes of a readable file with this suffix, in lower case. -/
def detectContent (content : Bytes) (suffix : String) : Detection :=
  let size := content.length
  let head := content.take sniffBytes
  let tail := if sniffBytes < size then content.drop (size - tailBytes) else []
  let overlay :=
    if (ascii "MZ").isPrefixOf head then
      match overlayOffset content head with
      | some start => slice content start (start + overlayBytes)
      | none => []
    else []
  if size < 16 then ⟨.none, 1, "too small to be a container"⟩
  else
    match extensionOnly.lookup suffix with
    | some container => ⟨container, 7 / 10, "extension " ++ suffix⟩
    | none =>
      match detectMagic head suffix with
      | some detection => detection
      | none =>
        if (ascii "MZ").isPrefixOf head then detectInstaller (head ++ overlay ++ tail)
        else ⟨.none, 8 / 10, "no container signature"⟩

example : (detectContent (ascii "PK" ++ [3, 4] ++ List.replicate 12 0) ".jar").container = .jar := by
  decide +kernel

end BareAnalysis
