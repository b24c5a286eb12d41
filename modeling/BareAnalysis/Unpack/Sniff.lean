import Mathlib.Order.Bounds.Basic
import BareAnalysis.Machinery.Handle
import BareAnalysis.Unpack.Detect

/-!
# Unpack/Sniff — a file's header is read, and an installer's payload is found

    stat ▸ head ▸ tail ▸ MZ? ▸ _overlay_offset ▸ overlay        three windows, one haystack

`detect` with the operations on the handle that it makes.  None of them raises over a readable
file, whatever its header holds (`detect_readable`), and a marker inside one of the windows makes
the file a container (`findsInstallers`).
-/

namespace BareAnalysis.Sniff

open Eff Handle

/-! ## The source's functions -/

/-- `e_lfanew`. -/
def peOffset (header : Bytes) : ℕ := fromLittle (slice header 0x3c 0x40)

/-- `NumberOfSections`. -/
def sectionCount (coff : Bytes) : ℕ := fromLittle (slice coff 6 8)

/-- `SizeOfOptionalHeader`. -/
def optionalSize (coff : Bytes) : ℕ := fromLittle (slice coff 20 22)

/-- The body of the `try` in `_overlay_offset`. -/
def parseOverlayOffset (size : ℕ) (header : Bytes) : Eff FileError Handle (Option ℕ) := do
  if header.length < 0x40 ∨ ¬ (ascii "MZ").isPrefixOf header then return none
  if peOffset header = 0 ∨ size < peOffset header then return none
  seek (peOffset header)
  let coff ← read 24
  if coff.length < 24 ∨ ¬ (ascii "PE" ++ [0, 0]).isPrefixOf coff then return none
  if sectionCount coff = 0 ∨ 96 < sectionCount coff then return none
  seek (peOffset header + 24 + optionalSize coff : ℕ)
  let table ← read (40 * sectionCount coff)
  let stop := sectionsEnd table (sectionCount coff)
  return if 0 < stop ∧ stop < size then some stop else none

/-- `_overlay_offset(handle, size, header)`: both kinds of error are caught. -/
def readOverlayOffset (size : ℕ) (header : Bytes) : Eff FileError Handle (Option ℕ) :=
  tryCatch (parseOverlayOffset size header) fun _ => return none

/-- The tail of an open file that is longer than its head. -/
def readTail (size : ℕ) : Eff FileError Handle Bytes :=
  if sniffBytes < size then do
    seek (size - tailBytes : ℕ)
    read tailBytes
  else pure []

/-- The overlay of an open file that starts with MZ. -/
def readOverlay (size : ℕ) (head : Bytes) : Eff FileError Handle Bytes :=
  if (ascii "MZ").isPrefixOf head then do
    match ← readOverlayOffset size head with
    | some start => do
      seek start
      read overlayBytes
    | none => return []
  else pure []

/-- The windows of an open file: head, tail and overlay. -/
def readWindows (size : ℕ) : Eff FileError Handle (Bytes × Bytes × Bytes) := do
  let head ← read sniffBytes
  let tail ← readTail size
  let overlay ← readOverlay size head
  return (head, tail, overlay)

/-- What `detect` says of the windows. -/
def classifyWindows (size : ℕ) (head tail overlay : Bytes) (suffix : String) : Detection :=
  if size < 16 then ⟨.none, 1, "too small to be a container"⟩
  else
    match extensionOnly.lookup suffix with
    | some container => ⟨container, 7 / 10, "extension " ++ suffix⟩
    | none =>
      match detectMagic head suffix with
      | some detection => detection
      | none =>
        if (ascii "MZ").isPrefixOf head then detectInstaller (head ++ overlay ++ tail)
        else ⟨.none, 8 / 10, "no container signature"⟩

/-- `detect`, from what `stat` and `open` answer, for a suffix in lower case. -/
def detect (stat : Except FileError ℕ) (opened : Except FileError Handle) (suffix : String) :
    Except FileError Detection :=
  let windows : Except FileError (ℕ × Bytes × Bytes × Bytes) := do
    let size ← stat
    let handle ← opened
    let found ← (exec (readWindows size) handle).1
    return (size, found)
  match windows with
  | .ok (size, head, tail, overlay) => .ok (classifyWindows size head tail overlay suffix)
  | .error (.osError text) => .ok ⟨.none, 0, "unreadable: " ++ text⟩
  | .error e => .error e

/-- A readable file: its bytes, no more than an offset counts. -/
structure ReadableFile where
  content : Bytes
  fits : content.length < 2 ^ 63

/-- `detect` of a readable file. -/
def ReadableFile.detected (file : ReadableFile) (suffix : String) : Except FileError Detection :=
  detect (.ok file.content.length) (.ok { content := file.content }) suffix

/-! ## Reading raises nothing -/

theorem fromLittle_lt (data : Bytes) : fromLittle data < 256 ^ data.length := by
  induction data with
  | nil => simp [fromLittle]
  | cons b data ih =>
    have hb : b.toNat < 256 := b.toNat_lt
    change b.toNat + 256 * fromLittle data < 256 ^ (data.length + 1)
    rw [pow_succ]
    omega

theorem length_slice_le (data : Bytes) (start stop : ℕ) :
    (slice data start stop).length ≤ stop - start := by
  rw [slice]
  exact List.length_take_le _ _

/-- A field of `n` bytes is below `256 ^ n`. -/
theorem fromLittle_slice_lt (data : Bytes) (start n : ℕ) :
    fromLittle (slice data start (start + n)) < 256 ^ n := by
  refine (fromLittle_lt _).trans_le (Nat.pow_le_pow_right (by decide) ?_)
  have := length_slice_le data start (start + n)
  omega

theorem ahead_eq_slice (content : Bytes) (position n : ℕ) :
    ({ content, position } : Handle).ahead n = slice content position (position + n) := by
  rw [Handle.ahead, slice, Nat.add_sub_cancel_left]

/-! ## The header of a PE -/

/-- The 24 bytes at `e_lfanew`. -/
def coffOf (content header : Bytes) : Bytes :=
  slice content (peOffset header) (peOffset header + 24)

/-- Where the section table begins. -/
def tableStart (content header : Bytes) : ℕ :=
  peOffset header + 24 + optionalSize (coffOf content header)

/-- The section table, as far as the file holds it. -/
def sectionTable (content header : Bytes) : Bytes :=
  slice content (tableStart content header)
    (tableStart content header + 40 * sectionCount (coffOf content header))

/-- The end that the section table gives. -/
def tableEnd (content header : Bytes) : ℕ :=
  sectionsEnd (sectionTable content header) (sectionCount (coffOf content header))

/-- A header that is parsed to its section table. -/
structure IsPe (content header : Bytes) : Prop where
  mz : ¬ (header.length < 0x40 ∨ ¬ (ascii "MZ").isPrefixOf header)
  offset : ¬ (peOffset header = 0 ∨ content.length < peOffset header)
  coff : ¬ ((coffOf content header).length < 24
    ∨ ¬ (ascii "PE" ++ [0, 0]).isPrefixOf (coffOf content header))
  sections : ¬ (sectionCount (coffOf content header) = 0
    ∨ 96 < sectionCount (coffOf content header))

theorem overlayOffset_of_isPe {content header : Bytes} (h : IsPe content header) :
    overlayOffset content header =
      if 0 < tableEnd content header ∧ tableEnd content header < content.length then
        some (tableEnd content header)
      else none :=
  (if_neg h.mz).trans ((if_neg h.offset).trans ((if_neg h.coff).trans (if_neg h.sections)))

/-- What is returned, is returned for a header that was parsed. -/
theorem isPe_of_overlayOffset {content header : Bytes} {stop : ℕ}
    (h : overlayOffset content header = some stop) : IsPe content header := by
  have hcases : ∀ {p : Prop} [Decidable p] {o : Option ℕ},
      (if p then none else o) = some stop → ¬ p ∧ o = some stop := fun {p} _ o ho => by
    by_cases hp : p
    · rw [if_pos hp] at ho
      cases ho
    · exact ⟨hp, by rwa [if_neg hp] at ho⟩
  obtain ⟨hmz, h⟩ := hcases h
  obtain ⟨hoffset, h⟩ := hcases h
  obtain ⟨hcoff, h⟩ := hcases h
  obtain ⟨hsections, -⟩ := hcases h
  exact ⟨hmz, hoffset, hcoff, hsections⟩

theorem overlayOffset_of_not_isPe {content header : Bytes} (h : ¬ IsPe content header) :
    overlayOffset content header = none := by
  rcases ho : overlayOffset content header with _ | stop
  · rfl
  · exact absurd (isPe_of_overlayOffset ho) h

theorem exec_parseOverlayOffset (content header : Bytes) (position : ℕ) :
    ∃ position', exec (parseOverlayOffset content.length header) { content, position }
      = (.ok (overlayOffset content header), { content, position := position' }) := by
  have hoffset : peOffset header < 256 ^ 4 := fromLittle_slice_lt _ 0x3c 4
  have hsize : optionalSize (coffOf content header) < 256 ^ 2 := fromLittle_slice_lt _ 20 2
  rw [parseOverlayOffset]
  by_cases hmz : header.length < 0x40 ∨ ¬ (ascii "MZ").isPrefixOf header
  · rw [if_pos hmz, overlayOffset_of_not_isPe fun h => h.mz hmz]
    exact ⟨position, rfl⟩
  rw [if_neg hmz]
  by_cases hoff : peOffset header = 0 ∨ content.length < peOffset header
  · rw [if_pos hoff, overlayOffset_of_not_isPe fun h => h.offset hoff]
    exact ⟨position, rfl⟩
  rw [if_neg hoff, exec_seek_bind (by omega), exec_read_bind, ahead_eq_slice, ← coffOf]
  by_cases hcoff : (coffOf content header).length < 24
    ∨ ¬ (ascii "PE" ++ [0, 0]).isPrefixOf (coffOf content header)
  · rw [if_pos hcoff, overlayOffset_of_not_isPe fun h => h.coff hcoff]
    exact ⟨_, rfl⟩
  rw [if_neg hcoff]
  by_cases hsections : sectionCount (coffOf content header) = 0
    ∨ 96 < sectionCount (coffOf content header)
  · rw [if_pos hsections, overlayOffset_of_not_isPe fun h => h.sections hsections]
    exact ⟨_, rfl⟩
  have hstart : peOffset header + 24 + optionalSize (coffOf content header) < 2 ^ 63 := by omega
  rw [if_neg hsections, exec_seek_bind hstart, exec_read_bind, content_advance, ahead_eq_slice,
    overlayOffset_of_isPe ⟨hmz, hoff, hcoff, hsections⟩]
  exact ⟨_, rfl⟩

/-- **`_overlay_offset` returns what the content says**, from any position. -/
theorem exec_readOverlayOffset (content header : Bytes) (position : ℕ) :
    ∃ position', exec (readOverlayOffset content.length header) { content, position }
      = (.ok (overlayOffset content header), { content, position := position' }) := by
  obtain ⟨position', hparsed⟩ := exec_parseOverlayOffset content header position
  exact ⟨position', by rw [readOverlayOffset, exec_tryCatch, hparsed]⟩

theorem overlayOffset_lt {content header : Bytes} {stop : ℕ}
    (h : overlayOffset content header = some stop) : 0 < stop ∧ stop < content.length := by
  rw [overlayOffset_of_isPe (isPe_of_overlayOffset h)] at h
  by_cases hstop : 0 < tableEnd content header ∧ tableEnd content header < content.length
  · rw [if_pos hstop] at h
    rwa [← Option.some.inj h]
  · rw [if_neg hstop] at h
    cases h

/-! ## The windows -/

/-- The tail of the bytes of a file. -/
def tailOf (content : Bytes) : Bytes :=
  if sniffBytes < content.length then content.drop (content.length - tailBytes) else []

/-- The overlay of the bytes of a file. -/
def overlayOf (content : Bytes) : Bytes :=
  if (ascii "MZ").isPrefixOf (content.take sniffBytes) then
    match overlayOffset content (content.take sniffBytes) with
    | some start => slice content start (start + overlayBytes)
    | none => []
  else []

section Windows

variable {content : Bytes} (hfits : content.length < 2 ^ 63) (position : ℕ)

include hfits

theorem exec_readTail :
    ∃ position', exec (readTail content.length) { content, position }
      = (.ok (tailOf content), { content, position := position' }) := by
  rw [readTail, tailOf]
  by_cases hlong : sniffBytes < content.length
  · have hlast : content.length - tailBytes < 2 ^ 63 := by omega
    have hall : (content.drop (content.length - tailBytes)).length ≤ tailBytes := by
      rw [List.length_drop]
      omega
    rw [if_pos hlong, if_pos hlong, exec_seek_bind hlast, exec_read, Handle.ahead,
      List.take_of_length_le hall]
    exact ⟨_, rfl⟩
  · rw [if_neg hlong, if_neg hlong]
    exact ⟨position, rfl⟩

theorem exec_readOverlay :
    ∃ position', exec (readOverlay content.length (content.take sniffBytes)) { content, position }
      = (.ok (overlayOf content), { content, position := position' }) := by
  rw [readOverlay, overlayOf]
  by_cases hmz : (ascii "MZ").isPrefixOf (content.take sniffBytes)
  · obtain ⟨position', hrun⟩ := exec_readOverlayOffset content (content.take sniffBytes) position
    rw [if_pos hmz, if_pos hmz, exec_bind, hrun]
    rcases hstart : overlayOffset content (content.take sniffBytes) with _ | start
    · exact ⟨position', rfl⟩
    · have hlt := (overlayOffset_lt hstart).2
      change ∃ position', exec (seek start >>= fun _ => read overlayBytes) _ = _
      rw [exec_seek_bind (by omega), exec_read, ahead_eq_slice]
      exact ⟨_, rfl⟩
  · rw [if_neg hmz, if_neg hmz]
    exact ⟨position, rfl⟩

omit position in
/-- The three windows of a readable file. -/
theorem exec_readWindows :
    (exec (readWindows content.length) { content }).1
      = .ok (content.take sniffBytes, tailOf content, overlayOf content) := by
  have hhead : ({ content } : Handle).advance sniffBytes
      = { content, position := (({ content } : Handle).advance sniffBytes).position } := rfl
  obtain ⟨afterTail, htail⟩ :=
    exec_readTail hfits (({ content } : Handle).advance sniffBytes).position
  obtain ⟨afterOverlay, hoverlay⟩ := exec_readOverlay hfits afterTail
  have hbytes : ({ content } : Handle).ahead sniffBytes = content.take sniffBytes := by
    rw [Handle.ahead, List.drop_zero]
  rw [readWindows, exec_read_bind, hbytes, hhead, exec_bind_of_ok htail, exec_bind_of_ok hoverlay,
    exec_pure]

/-- **`detect` of a readable file raises nothing**, and says what its bytes say. -/
theorem detect_readable (suffix : String) :
    detect (.ok content.length) (.ok { content }) suffix = .ok (detectContent content suffix) := by
  unfold detect
  simp only [bind, Except.bind, exec_readWindows hfits]
  rfl

end Windows

/-! ## Sections with raw data -/

/-- `PointerToRawData` of an entry of a section table. -/
def rawOffset (table : Bytes) (index : ℕ) : ℕ :=
  fromLittle (slice (slice table (index * 40) ((index + 1) * 40)) 20 24)

/-- `SizeOfRawData` of an entry of a section table. -/
def rawSize (table : Bytes) (index : ℕ) : ℕ :=
  fromLittle (slice (slice table (index * 40) ((index + 1) * 40)) 16 20)

/-- A complete entry of a table whose section is not empty: it has raw data somewhere. -/
structure HasRawData (table : Bytes) (index : ℕ) : Prop where
  complete : index * 40 + 40 ≤ table.length
  offset : rawOffset table index ≠ 0
  size : rawSize table index ≠ 0

/-- Where the sections that are not empty end. -/
def rawEnds (content header : Bytes) : Set ℕ :=
  { stop | ∃ index < sectionCount (coffOf content header),
      HasRawData (sectionTable content header) index ∧
        stop = rawOffset (sectionTable content header) index
          + rawSize (sectionTable content header) index }

/-- The largest of some values: an upper bound that is the start or one of them. -/
theorem foldl_max_spec {ι : Type} {p : ι → Prop} [DecidablePred p] {f : ι → ℕ} {l : List ι}
    {start top : ℕ}
    (htop : l.foldl (fun stop i => if p i then max stop (f i) else stop) start = top) :
    start ≤ top ∧ (∀ i ∈ l, p i → f i ≤ top) ∧ (top = start ∨ ∃ i ∈ l, p i ∧ top = f i) := by
  induction l generalizing start with
  | nil => exact ⟨htop.le, fun i hi => absurd hi List.not_mem_nil, Or.inl htop.symm⟩
  | cons i l ih =>
    obtain ⟨hstart, hall, hattained⟩ := ih htop
    by_cases hp : p i
    · simp only [if_pos hp] at hstart hattained
      refine ⟨(le_max_left _ _).trans hstart, ?_, ?_⟩
      · rintro j hj hpj
        rcases List.mem_cons.mp hj with rfl | hj
        · exact (le_max_right _ _).trans hstart
        · exact hall j hj hpj
      · rcases hattained with hmax | ⟨j, hj, hpj, hattained⟩
        · rcases max_choice start (f i) with hleft | hright
          · exact Or.inl (hmax.trans hleft)
          · exact Or.inr ⟨i, List.mem_cons_self, hp, hmax.trans hright⟩
        · exact Or.inr ⟨j, List.mem_cons_of_mem _ hj, hpj, hattained⟩
    · simp only [if_neg hp] at hstart hattained
      refine ⟨hstart, ?_, ?_⟩
      · rintro j hj hpj
        rcases List.mem_cons.mp hj with rfl | hj
        · exact absurd hpj hp
        · exact hall j hj hpj
      · rcases hattained with hattained | ⟨j, hj, hpj, hattained⟩
        · exact Or.inl hattained
        · exact Or.inr ⟨j, List.mem_cons_of_mem _ hj, hpj, hattained⟩

/-- A list is cut where a condition ends that never comes back. -/
theorem takeWhile_eq_filter {ι : Type} {p : ι → Bool} {l : List ι}
    (h : l.Pairwise fun i j => p j = true → p i = true) : l.takeWhile p = l.filter p := by
  induction h with
  | nil => rfl
  | @cons i l hi _ ih =>
    by_cases hp : p i = true
    · rw [List.takeWhile_cons_of_pos hp, List.filter_cons_of_pos hp, ih]
    · rw [List.takeWhile_cons_of_neg hp, List.filter_cons_of_neg hp, eq_comm,
        List.filter_eq_nil_iff]
      exact fun j hj hpj => hp (hi j hj hpj)

/-- Entries are complete up to the first one that is not. -/
theorem mem_complete {table : Bytes} {count index : ℕ} :
    index ∈ (List.range count).takeWhile (fun i => decide (i * 40 + 40 ≤ table.length)) ↔
      index < count ∧ index * 40 + 40 ≤ table.length := by
  rw [takeWhile_eq_filter, List.mem_filter, List.mem_range, decide_eq_true_eq]
  refine List.pairwise_lt_range.imp fun hij hj => ?_
  simp only [decide_eq_true_eq] at hj ⊢
  omega

/-- **The end that the table gives** is zero, or the largest end of a section with raw data. -/
theorem tableEnd_eq_iff {content header : Bytes} {stop : ℕ} (hpos : 0 < stop) :
    tableEnd content header = stop ↔ IsGreatest (rawEnds content header) stop := by
  obtain ⟨-, hall, hattained⟩ := foldl_max_spec (rfl : _ = tableEnd content header)
  have hupper : tableEnd content header ∈ upperBounds (rawEnds content header) := by
    rintro _ ⟨index, hlt, hraw, rfl⟩
    exact hall index (mem_complete.mpr ⟨hlt, hraw.complete⟩) ⟨hraw.offset, hraw.size⟩
  constructor
  · rintro rfl
    refine ⟨?_, hupper⟩
    rcases hattained with hzero | ⟨index, hmem, ⟨hoffset, hsize⟩, hattained⟩
    · omega
    · obtain ⟨hlt, hcomplete⟩ := mem_complete.mp hmem
      exact ⟨index, hlt, ⟨hcomplete, hoffset, hsize⟩, hattained⟩
  · intro hstop
    refine le_antisymm ?_ (hupper hstop.1)
    rcases hattained with hzero | ⟨index, hmem, ⟨hoffset, hsize⟩, hattained⟩
    · omega
    · obtain ⟨hlt, hcomplete⟩ := mem_complete.mp hmem
      exact hstop.2 ⟨index, hlt, ⟨hcomplete, hoffset, hsize⟩, hattained⟩

/-! ## A marker in a window -/

/-- A PE whose header and section table the file holds completely. -/
structure WellFormedPe (content : Bytes) : Prop where
  mz : ascii "MZ" <+: content
  header : 0x40 ≤ content.length
  signature : ascii "PE" ++ [0, 0] <+: coffOf content content
  coff : (coffOf content content).length = 24
  sections : 1 ≤ sectionCount (coffOf content content)
  atMost : sectionCount (coffOf content content) ≤ 96
  table : tableStart content content + 40 * sectionCount (coffOf content content) ≤ content.length

/-- The bytes from `start` to `stop` lie in the head, in the tail or in the overlay. -/
def InWindow (content : Bytes) (start stop : ℕ) : Prop :=
  stop ≤ sniffBytes ∨ content.length - tailBytes ≤ start ∨
    ∃ rawEnd, IsGreatest (rawEnds content content) rawEnd ∧ rawEnd ≤ start ∧
      stop ≤ rawEnd + overlayBytes

/-- One of the markers stands in a window. -/
def CarriesMarker (content : Bytes) : Prop :=
  ∃ m ∈ peInstallerMarkers, ∃ start,
    slice content start (start + m.1.length) = m.1 ∧ InWindow content start (start + m.1.length)

theorem occursIn_of_infix {marker haystack : Bytes} (h : marker <:+: haystack) :
    occursIn marker haystack = true := by
  obtain ⟨before, after, rfl⟩ := h
  refine List.any_eq_true.mpr ⟨marker ++ after, ?_, ?_⟩
  · rw [List.mem_tails, List.append_assoc]
    exact List.suffix_append _ _
  · exact List.isPrefixOf_iff_prefix.mpr (List.prefix_append _ _)

/-- A slice of a wider slice. -/
theorem slice_infix_slice (data : Bytes) {first start stop last : ℕ} (hfirst : first ≤ start)
    (hlast : stop ≤ last) : slice data start stop <:+: slice data first last := by
  have hinner : slice data start stop = ((slice data first last).drop (start - first)).take
      (stop - start) := by
    rw [slice, slice, List.drop_take, List.drop_drop, List.take_take, Nat.add_sub_cancel' hfirst]
    congr 1
    omega
  rw [hinner]
  exact (List.take_prefix _ _).isInfix.trans (List.drop_suffix _ _).isInfix

theorem slice_zero (data : Bytes) (stop : ℕ) : slice data 0 stop = data.take stop := by
  rw [slice, List.drop_zero, Nat.sub_zero]

theorem slice_length (data : Bytes) (start : ℕ) :
    slice data start data.length = data.drop start := by
  rw [slice, List.take_of_length_le (List.length_drop).le]

/-- The field lies in the head. -/
theorem peOffset_head (content : Bytes) : peOffset (content.take sniffBytes) = peOffset content := by
  rw [peOffset, peOffset, slice, slice, List.drop_take, List.take_take]
  rfl

theorem coffOf_head (content : Bytes) :
    coffOf content (content.take sniffBytes) = coffOf content content := by
  rw [coffOf, coffOf, peOffset_head]

theorem rawEnds_head (content : Bytes) :
    rawEnds content (content.take sniffBytes) = rawEnds content content := by
  simp only [rawEnds, sectionTable, tableStart, coffOf_head, peOffset_head]

namespace WellFormedPe

variable {content : Bytes}

theorem length_coffOf_le (content header : Bytes) :
    (coffOf content header).length ≤ content.length - peOffset header := by
  rw [coffOf, slice, List.length_take, List.length_drop]
  exact min_le_right _ _

theorem mz_head (h : WellFormedPe content) : (ascii "MZ").isPrefixOf (content.take sniffBytes) :=
  List.isPrefixOf_iff_prefix.mpr (List.prefix_take_iff.mpr ⟨h.mz, by decide⟩)

/-- The signature does not stand where the file starts with MZ. -/
theorem peOffset_ne_zero (h : WellFormedPe content) : peOffset content ≠ 0 := fun hzero => by
  have hsignature := h.signature
  rw [coffOf, hzero, slice_zero] at hsignature
  have hprefix := List.prefix_of_prefix_length_le h.mz
    (hsignature.trans (List.take_prefix _ _)) (by decide)
  exact absurd hprefix (by decide)

theorem isPe (h : WellFormedPe content) : IsPe content (content.take sniffBytes) := by
  have hheader : 0x40 ≤ (content.take sniffBytes).length := by
    rw [List.length_take]
    exact le_min (by decide) h.header
  have hle := length_coffOf_le content content
  have hsections := h.sections
  have hmost := h.atMost
  refine ⟨not_or.mpr ⟨hheader.not_gt, not_not.mpr h.mz_head⟩, ?_, ?_, ?_⟩
  · rw [peOffset_head, not_or]
    rw [h.coff] at hle
    exact ⟨h.peOffset_ne_zero, by omega⟩
  · rw [coffOf_head, h.coff, not_or, not_not]
    exact ⟨lt_irrefl 24, List.isPrefixOf_iff_prefix.mpr h.signature⟩
  · rw [coffOf_head]
    omega

/-- The overlay begins where the last raw section ends. -/
theorem overlayOf_eq (h : WellFormedPe content) {rawEnd : ℕ}
    (hend : IsGreatest (rawEnds content content) rawEnd) (hlt : rawEnd < content.length) :
    overlayOf content = slice content rawEnd (rawEnd + overlayBytes) := by
  have hpos : 0 < rawEnd := by
    obtain ⟨index, -, hraw, rfl⟩ := hend.1
    exact Nat.add_pos_left (Nat.pos_of_ne_zero hraw.offset) _
  rw [← rawEnds_head] at hend
  have htable := (tableEnd_eq_iff hpos).mpr hend
  have hoverlay : overlayOffset content (content.take sniffBytes) = some rawEnd := by
    rw [overlayOffset_of_isPe h.isPe, htable, if_pos ⟨hpos, hlt⟩]
  rw [overlayOf, if_pos h.mz_head, hoverlay]

/-- **A marker in a window is in the haystack.** -/
theorem occursIn_haystack (h : WellFormedPe content) {marker : Bytes} {start : ℕ}
    (hne : marker ≠ []) (hat : slice content start (start + marker.length) = marker)
    (hwindow : InWindow content start (start + marker.length)) :
    occursIn marker (content.take sniffBytes ++ overlayOf content ++ tailOf content) = true := by
  have hlength : marker.length ≤ content.length - start := by
    have hcut := congrArg List.length hat
    rw [slice, List.length_take, List.length_drop] at hcut
    omega
  have hpos : 0 < marker.length := List.length_pos_iff.mpr hne
  have hhead : content.take sniffBytes <:+: content.take sniffBytes ++ overlayOf content
      ++ tailOf content := by
    rw [List.append_assoc]
    exact (List.prefix_append _ _).isInfix
  apply occursIn_of_infix
  rw [← hat]
  rcases hwindow with hhit | hhit | ⟨rawEnd, hend, hstart, hstop⟩
  · rw [← slice_zero] at hhead ⊢
    exact (slice_infix_slice content start.zero_le hhit).trans hhead
  · by_cases hlong : sniffBytes < content.length
    · refine List.IsInfix.trans ?_ (List.suffix_append _ _).isInfix
      rw [tailOf, if_pos hlong, ← slice_length]
      exact slice_infix_slice content hhit (by omega)
    · rw [← slice_zero] at hhead ⊢
      exact (slice_infix_slice content start.zero_le (by omega)).trans hhead
  · refine List.IsInfix.trans ?_ (List.infix_append _ _ _)
    rw [h.overlayOf_eq hend (by omega)]
    exact slice_infix_slice content hstart hstop

end WellFormedPe

/-! ## Installers are found -/

/-- A marker in the haystack is reported as a container to open. -/
theorem shouldUnpack_detectInstaller {haystack : Bytes} {m : Bytes × Container × String}
    (hm : m ∈ peInstallerMarkers) (h : occursIn m.1 haystack = true) :
    (detectInstaller haystack).shouldUnpack = true := by
  have hfind : (peInstallerMarkers.find? fun m => occursIn m.1 haystack).isSome :=
    List.find?_isSome.mpr ⟨m, hm, h⟩
  obtain ⟨found, hfound⟩ := Option.isSome_iff_exists.mp hfind
  have hcontainer : ∀ m ∈ peInstallerMarkers, m.2.1.isContainer = true := by decide
  rw [detectInstaller, hfound, Detection.shouldUnpack, Bool.and_eq_true, decide_eq_true_eq]
  exact ⟨hcontainer found (List.mem_of_find?_eq_some hfound), by norm_num⟩

theorem detectContent_of_installer {content : Bytes} {suffix : String} (h : WellFormedPe content)
    (hextension : extensionOnly.lookup suffix = none)
    (hmagic : detectMagic (content.take sniffBytes) suffix = none) :
    detectContent content suffix
      = detectInstaller (content.take sniffBytes ++ overlayOf content ++ tailOf content) := by
  have hlong : ¬ content.length < 16 := by
    have := h.header
    omega
  change classifyWindows content.length (content.take sniffBytes) (tailOf content)
    (overlayOf content) suffix = _
  rw [classifyWindows, if_neg hlong, hextension, hmagic]
  exact if_pos h.mz_head

/-- **An installer's payload is found**, in each of the windows; no readable file makes `detect`
raise; and the overlay starts at the largest end of a section with raw data, inside the file. -/
theorem finds_installers :
    (∀ (file : ReadableFile) (suffix : String),
      WellFormedPe file.content → CarriesMarker file.content →
      extensionOnly.lookup suffix = none →
      detectMagic (file.content.take sniffBytes) suffix = none →
      ∃ detection, file.detected suffix = .ok detection ∧ detection.shouldUnpack = true) ∧
    (∀ (file : ReadableFile) (suffix : String),
      ∃ detection, file.detected suffix = .ok detection) ∧
    ∀ (file : ReadableFile) (header : Bytes) (position : ℕ), ∃ answer position',
      exec (readOverlayOffset file.content.length header) ⟨file.content, position⟩
          = (.ok answer, ⟨file.content, position'⟩) ∧
        ∀ stop ∈ answer, IsGreatest (rawEnds file.content header) stop ∧
          0 < stop ∧ stop < file.content.length := by
  refine ⟨?_, fun file suffix => ⟨_, detect_readable file.fits suffix⟩, ?_⟩
  · rintro file suffix hpe ⟨m, hm, start, hat, hwindow⟩ hextension hmagic
    have hne : ∀ m ∈ peInstallerMarkers, m.1 ≠ [] := by decide
    refine ⟨_, detect_readable file.fits suffix, ?_⟩
    rw [detectContent_of_installer hpe hextension hmagic]
    exact shouldUnpack_detectInstaller hm (hpe.occursIn_haystack (hne m hm) hat hwindow)
  · intro file header position
    obtain ⟨position', hrun⟩ := exec_readOverlayOffset file.content header position
    refine ⟨_, position', hrun, fun stop hstop => ?_⟩
    have hbounds := overlayOffset_lt hstop
    have hpe := isPe_of_overlayOffset hstop
    rw [Option.mem_def, overlayOffset_of_isPe hpe] at hstop
    by_cases hinside : 0 < tableEnd file.content header ∧
        tableEnd file.content header < file.content.length
    · rw [if_pos hinside] at hstop
      exact ⟨(tableEnd_eq_iff hbounds.1).mp (Option.some.inj hstop), hbounds⟩
    · rw [if_neg hinside] at hstop
      cases hstop

/-- A PE of one section, its overlay an installer's. -/
def setup : ReadableFile where
  content :=
    ascii "MZ" ++ List.replicate 58 0 ++ [0x40, 0, 0, 0] ++
      (ascii "PE" ++ [0, 0, 0, 0, 1, 0] ++ List.replicate 16 0) ++
      (List.replicate 16 0 ++ [4, 0, 0, 0, 128, 0, 0, 0] ++ List.replicate 16 0) ++
      List.replicate 4 1 ++ ascii "Nullsoft"
  fits := by decide +kernel

theorem finds_setup :
    ∃ detection, setup.detected ".exe" = .ok detection ∧ detection.shouldUnpack = true := by
  refine finds_installers.1 setup ".exe" ?_ ?_ (by decide) (by decide +kernel)
  · exact ⟨by decide +kernel, by decide +kernel, by decide +kernel, by decide +kernel,
      by decide +kernel, by decide +kernel, by decide +kernel⟩
  · exact ⟨(ascii "Nullsoft", .nsis, "'Nullsoft'"), by decide, 132, by decide +kernel,
      Or.inl (by decide +kernel)⟩

end BareAnalysis.Sniff
