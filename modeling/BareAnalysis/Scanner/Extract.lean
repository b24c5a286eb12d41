import BareAnalysis.Machinery.Dict
import BareAnalysis.Machinery.Sorting
import BareAnalysis.Unpack.Detect

/-!
# Scanner/Extract — the strings in a file, in both encodings

    h  e  l  l  o  \n         one string, at its offset
    h \0  e \0  l \0 …        one wide string, at either alignment

The extractors of `core/rules/scanner.py`.  A loop carries the bytes of the string it is in, so the
offset of a string is where the loop stands less what it carries.
-/

namespace BareAnalysis

/-- `MIN_STRING_LENGTH`. -/
def minStringLength : ℕ := 6

/-- `MAX_STRING_LENGTH`. -/
def maxStringLength : ℕ := 8192

/-- `_PRINTABLE`: printable ASCII and the tab. -/
def isPrintableByte (b : UInt8) : Bool := (0x20 ≤ b && b < 0x7F) || b == 9

/-- `decode("ascii", "replace")` of one byte. -/
def decodeAscii (b : UInt8) : Char := if b < 128 then Char.ofNat b.toNat else '\uFFFD'

inductive Encoding
  | ascii
  | utf16le
  deriving DecidableEq, Repr

namespace Encoding

def text : Encoding → String
  | ascii => "ascii"
  | utf16le => "utf-16le"

/-- Bytes a character. -/
def width : Encoding → ℕ
  | ascii => 1
  | utf16le => 2

end Encoding

/-- A string, where it starts and how it is written. -/
structure ExtractedString where
  value : List Char
  offset : ℕ
  encoding : Encoding
  deriving DecidableEq, Repr

/-- The string whose bytes a loop carries when it stands at an index. -/
def extracted (encoding : Encoding) (index : ℕ) (run : Bytes) : ExtractedString where
  value := run.map decodeAscii
  offset := index - encoding.width * run.length
  encoding := encoding

/-- A string that is long enough is reported. -/
def reported (encoding : Encoding) (index : ℕ) (run : Bytes) : List ExtractedString :=
  if minStringLength ≤ run.length then [extracted encoding index run] else []

/-- The loop of `extract_ascii`. -/
def extractAsciiFrom : Bytes → ℕ → Bytes → List ExtractedString
  | [], index, run => reported .ascii index run
  | byte :: rest, index, run =>
    if isPrintableByte byte then
      if maxStringLength ≤ run.length then
        extracted .ascii index run :: extractAsciiFrom rest (index + 1) [byte]
      else extractAsciiFrom rest (index + 1) (run ++ [byte])
    else reported .ascii index run ++ extractAsciiFrom rest (index + 1) []

/-- `extract_ascii`. -/
def extractAscii (data : Bytes) : List ExtractedString := extractAsciiFrom data 0 []

/-- The loop of `extract_utf16le` at one alignment. -/
def extractWideFrom : Bytes → ℕ → Bytes → List ExtractedString
  | low :: high :: rest, index, run =>
    if high = 0 ∧ isPrintableByte low then
      if maxStringLength ≤ (run ++ [low]).length then
        extracted .utf16le (index + 2) (run ++ [low]) :: extractWideFrom rest (index + 2) []
      else extractWideFrom rest (index + 2) (run ++ [low])
    else reported .utf16le index run ++ extractWideFrom rest (index + 2) []
  | _, index, run => reported .utf16le index run

/-- `extract_utf16le`: from both alignments. -/
def extractUtf16le (data : Bytes) : List ExtractedString :=
  extractWideFrom data 0 [] ++ extractWideFrom (data.drop 1) 1 []

/-- How extracted strings are ordered. -/
def ExtractedString.sortKey (s : ExtractedString) : ℕ ×ₗ String ×ₗ String :=
  toLex (s.offset, toLex (s.encoding.text, String.ofList s.value))

/-- `extract_strings`. -/
def extractStrings (data : Bytes) : List ExtractedString :=
  sortBy ExtractedString.sortKey (keepFirst id (extractAscii data ++ extractUtf16le data))

example : extractStrings (ascii "\nsecret\x01") = [⟨"secret".toList, 1, .ascii⟩] := by decide

/-! ## What is extracted -/

/-- A string is nonempty and printable, and lies in the bytes it was extracted from. -/
structure ExtractedString.IsSound (s : ExtractedString) (stop : ℕ) : Prop where
  length : minStringLength ≤ s.value.length
  length_le : s.value.length ≤ maxStringLength
  printable : ∃ bytes : Bytes, s.value = bytes.map decodeAscii ∧ ∀ b ∈ bytes, isPrintableByte b
  bounded : s.offset + s.encoding.width * s.value.length ≤ stop

/-- A loop carries printable bytes it has read. -/
structure IsRun (encoding : Encoding) (index : ℕ) (run : Bytes) : Prop where
  printable : ∀ b ∈ run, isPrintableByte b
  length : run.length ≤ maxStringLength
  read : encoding.width * run.length ≤ index

theorem isRun_nil (encoding : Encoding) (index : ℕ) : IsRun encoding index [] :=
  ⟨fun _ h => (nomatch h), Nat.zero_le _, Nat.zero_le _⟩

/-- One more byte of a string. -/
theorem IsRun.concat {encoding : Encoding} {index : ℕ} {run : Bytes} {byte : UInt8}
    (h : IsRun encoding index run) (hbyte : isPrintableByte byte = true)
    (hlength : run.length < maxStringLength) :
    IsRun encoding (index + encoding.width) (run ++ [byte]) := by
  refine ⟨fun b hb => ?_, ?_, ?_⟩
  · obtain hb | hb := List.mem_append.mp hb
    · exact h.printable b hb
    · rw [List.mem_singleton.mp hb]
      exact hbyte
  · rw [List.length_append, List.length_singleton]
    omega
  · have := h.read
    rw [List.length_append, List.length_singleton, Nat.mul_add, Nat.mul_one]
    omega

theorem isSound_extracted {encoding : Encoding} {index stop : ℕ} {run : Bytes}
    (h : IsRun encoding index run) (hmin : minStringLength ≤ run.length) (hstop : index ≤ stop) :
    (extracted encoding index run).IsSound stop where
  length := by simpa [extracted] using hmin
  length_le := by simpa [extracted] using h.length
  printable := ⟨run, rfl, h.printable⟩
  bounded := by
    have := h.read
    simp only [extracted, List.length_map]
    omega

theorem isSound_of_mem_reported {encoding : Encoding} {index stop : ℕ} {run : Bytes}
    {s : ExtractedString} (h : IsRun encoding index run) (hstop : index ≤ stop)
    (hs : s ∈ reported encoding index run) : s.IsSound stop ∧ s.encoding = encoding := by
  rw [reported] at hs
  split at hs
  · rename_i hmin
    rw [List.mem_singleton.mp hs]
    exact ⟨isSound_extracted h hmin hstop, rfl⟩
  · cases hs

theorem minStringLength_le_max : minStringLength ≤ maxStringLength := by decide

/-- **What the ASCII loop reports is sound.** -/
theorem isSound_of_mem_extractAsciiFrom {data : Bytes} {index : ℕ} {run : Bytes}
    {s : ExtractedString} (h : IsRun .ascii index run) (hs : s ∈ extractAsciiFrom data index run) :
    s.IsSound (index + data.length) ∧ s.encoding = .ascii := by
  induction data generalizing index run with
  | nil => exact isSound_of_mem_reported h le_rfl hs
  | cons byte rest ih =>
    have hstep : index + (byte :: rest).length = index + 1 + rest.length := by
      rw [List.length_cons]
      omega
    rw [hstep]
    rw [extractAsciiFrom] at hs
    split at hs
    case isTrue hbyte =>
      split at hs
      case isTrue hmax =>
        obtain rfl | hs := List.mem_cons.mp hs
        · exact ⟨isSound_extracted h (minStringLength_le_max.trans hmax) (by omega), rfl⟩
        · exact ih ((isRun_nil .ascii index).concat hbyte (by decide)) hs
      case isFalse hmax => exact ih (h.concat hbyte (by omega)) hs
    case isFalse =>
      obtain hs | hs := List.mem_append.mp hs
      · exact isSound_of_mem_reported h (by omega) hs
      · exact ih (isRun_nil .ascii (index + 1)) hs

/-- …and what the wide loop reports. -/
theorem isSound_of_mem_extractWideFrom {data : Bytes} {index : ℕ} {run : Bytes}
    {s : ExtractedString} (h : IsRun .utf16le index run) (hrun : run.length < maxStringLength)
    (hs : s ∈ extractWideFrom data index run) :
    s.IsSound (index + data.length) ∧ s.encoding = .utf16le := by
  induction data, index, run using extractWideFrom.induct with
  | case1 low high rest index run hpair hmax ih =>
    have hrun' : IsRun .utf16le (index + 2) (run ++ [low]) := h.concat hpair.2 hrun
    rw [extractWideFrom, if_pos hpair, if_pos hmax] at hs
    rw [show index + (low :: high :: rest).length = index + 2 + rest.length by
      simp only [List.length_cons]; omega]
    obtain rfl | hs := List.mem_cons.mp hs
    · exact ⟨isSound_extracted hrun' (minStringLength_le_max.trans hmax) (by omega), rfl⟩
    · exact ih (isRun_nil .utf16le (index + 2)) (by decide) hs
  | case2 low high rest index run hpair hmax ih =>
    rw [extractWideFrom, if_pos hpair, if_neg hmax] at hs
    rw [show index + (low :: high :: rest).length = index + 2 + rest.length by
      simp only [List.length_cons]; omega]
    exact ih (h.concat hpair.2 hrun) (by omega) hs
  | case3 low high rest index run hpair ih =>
    rw [extractWideFrom, if_neg hpair] at hs
    rw [show index + (low :: high :: rest).length = index + 2 + rest.length by
      simp only [List.length_cons]; omega]
    obtain hs | hs := List.mem_append.mp hs
    · exact isSound_of_mem_reported h (by omega) hs
    · exact ih (isRun_nil .utf16le (index + 2)) (by decide) hs
  | case4 data index run hshort =>
    have hend : extractWideFrom data index run = reported .utf16le index run := by
      obtain - | ⟨a, - | ⟨b, rest⟩⟩ := data
      · rfl
      · rfl
      · exact absurd rfl (hshort a b rest)
    rw [hend] at hs
    exact isSound_of_mem_reported h (by omega) hs

theorem isSound_of_mem_extractAscii {data : Bytes} {s : ExtractedString}
    (hs : s ∈ extractAscii data) : s.IsSound data.length ∧ s.encoding = .ascii := by
  have h := isSound_of_mem_extractAsciiFrom (isRun_nil .ascii 0) hs
  rwa [Nat.zero_add] at h

theorem isSound_of_mem_extractUtf16le {data : Bytes} {s : ExtractedString}
    (hs : s ∈ extractUtf16le data) : s.IsSound data.length ∧ s.encoding = .utf16le := by
  obtain hs | hs := List.mem_append.mp hs
  · have h := isSound_of_mem_extractWideFrom (isRun_nil .utf16le 0) (by decide) hs
    rwa [Nat.zero_add] at h
  · obtain - | ⟨byte, data⟩ := data
    · cases hs
    · have h := isSound_of_mem_extractWideFrom (isRun_nil .utf16le 1) (by decide) hs
      rwa [List.drop_one, List.tail_cons, Nat.add_comm] at h

theorem mem_extractStrings {data : Bytes} {s : ExtractedString} :
    s ∈ extractStrings data ↔ s ∈ extractAscii data ∨ s ∈ extractUtf16le data := by
  rw [extractStrings, mem_sortBy, ← List.mem_append]
  constructor
  · exact mem_of_mem_keepFirst
  · intro h
    obtain ⟨t, ht, rfl⟩ : ∃ t ∈ keepFirst id _, id t = id s := exists_mem_keepFirst h
    exact ht

/-- **Every extracted string lies in the file.** -/
theorem isSound_of_mem_extractStrings {data : Bytes} {s : ExtractedString}
    (hs : s ∈ extractStrings data) : s.IsSound data.length := by
  obtain hs | hs := mem_extractStrings.mp hs
  · exact (isSound_of_mem_extractAscii hs).1
  · exact (isSound_of_mem_extractUtf16le hs).1

/-! ## A byte that ends every string -/

/-- The same string, further on in a longer file. -/
def ExtractedString.shift (n : ℕ) (s : ExtractedString) : ExtractedString :=
  { s with offset := s.offset + n }

theorem extracted_shift {encoding : Encoding} {index : ℕ} {run : Bytes} (n : ℕ)
    (h : encoding.width * run.length ≤ index) :
    extracted encoding (index + n) run = (extracted encoding index run).shift n := by
  simp only [extracted, ExtractedString.shift, ExtractedString.mk.injEq, true_and, and_true]
  omega

theorem reported_shift {encoding : Encoding} {index : ℕ} {run : Bytes} (n : ℕ)
    (h : encoding.width * run.length ≤ index) :
    reported encoding (index + n) run = (reported encoding index run).map (·.shift n) := by
  rw [reported, reported]
  split
  · rw [extracted_shift n h, List.map_singleton]
  · rfl

/-- A loop that stands further on reports the same strings further on. -/
theorem extractAsciiFrom_shift (data : Bytes) {index : ℕ} {run : Bytes} (n : ℕ)
    (h : run.length ≤ index) :
    extractAsciiFrom data (index + n) run
      = (extractAsciiFrom data index run).map (·.shift n) := by
  have hwidth : ∀ {index : ℕ} {run : Bytes}, run.length ≤ index →
      Encoding.ascii.width * run.length ≤ index := fun h => by rwa [Encoding.width, Nat.one_mul]
  induction data generalizing index run with
  | nil => exact reported_shift n (hwidth h)
  | cons byte rest ih =>
    rw [extractAsciiFrom, extractAsciiFrom, Nat.add_right_comm]
    split
    · split
      · rw [ih (by rw [List.length_singleton]; omega), extracted_shift n (hwidth h), List.map_cons]
      · exact ih (by rw [List.length_append, List.length_singleton]; omega)
    · rw [ih (Nat.zero_le _), reported_shift n (hwidth h), List.map_append]

theorem extractWideFrom_shift (data : Bytes) (index : ℕ) (run : Bytes) (n : ℕ)
    (h : 2 * run.length ≤ index) :
    extractWideFrom data (index + n) run
      = (extractWideFrom data index run).map (·.shift n) := by
  induction data, index, run using extractWideFrom.induct with
  | case1 low high rest index run hpair hmax ih =>
    have hlen : 2 * (run ++ [low]).length ≤ index + 2 := by
      rw [List.length_append, List.length_singleton]
      omega
    rw [extractWideFrom, extractWideFrom, if_pos hpair, if_pos hmax, if_pos hpair, if_pos hmax,
      Nat.add_right_comm, ih (Nat.zero_le _), extracted_shift n hlen, List.map_cons]
  | case2 low high rest index run hpair hmax ih =>
    rw [extractWideFrom, extractWideFrom, if_pos hpair, if_neg hmax, if_pos hpair, if_neg hmax,
      Nat.add_right_comm]
    exact ih (by rw [List.length_append, List.length_singleton]; omega)
  | case3 low high rest index run hpair ih =>
    rw [extractWideFrom, extractWideFrom, if_neg hpair, if_neg hpair, Nat.add_right_comm,
      ih (Nat.zero_le _), reported_shift n h, List.map_append]
  | case4 data index run hshort =>
    have hend : ∀ index, extractWideFrom data index run = reported .utf16le index run := by
      intro index
      obtain - | ⟨a, - | ⟨b, rest⟩⟩ := data
      · rfl
      · rfl
      · exact absurd rfl (hshort a b rest)
    rw [hend, hend, reported_shift n h]

/-- **An unprintable byte ends the string the ASCII loop is in.** -/
theorem extractAsciiFrom_append {byte : UInt8} (hbyte : isPrintableByte byte = false)
    (p q : Bytes) (index : ℕ) (run : Bytes) :
    extractAsciiFrom (p ++ byte :: q) index run
      = extractAsciiFrom (p ++ [byte]) index run
        ++ extractAsciiFrom q (index + p.length + 1) [] := by
  induction p generalizing index run with
  | nil =>
    simp only [List.nil_append, extractAsciiFrom, hbyte, Bool.false_eq_true, if_false]
    rw [show reported .ascii (index + 1) [] = [] from rfl, List.append_nil]
    rfl
  | cons a p ih =>
    rw [List.cons_append, List.cons_append, extractAsciiFrom, extractAsciiFrom, List.length_cons,
      show index + (p.length + 1) + 1 = index + 1 + p.length + 1 by omega]
    split
    · split
      · rw [ih, List.cons_append]
      · exact ih _ _
    · rw [ih, List.append_assoc]

/-- …and the one the wide loop is in, even when it is the low byte of a pair that straddles the
cut. -/
theorem extractWideFrom_append {byte : UInt8} (hbyte : isPrintableByte byte = false)
    (hzero : byte ≠ 0) (q : Bytes) : ∀ (p : Bytes) (index : ℕ) (run : Bytes),
    extractWideFrom (p ++ byte :: q) index run
      = extractWideFrom (p ++ [byte]) index run
        ++ extractWideFrom (q.drop ((p.length + 1) % 2))
          (index + (p.length + 1) + (p.length + 1) % 2) []
  | [], index, run => by
    have hpair : ∀ high : UInt8, ¬(high = 0 ∧ isPrintableByte byte = true) := fun high h => by
      cases hbyte.symm.trans h.2
    obtain - | ⟨high, q⟩ := q
    · exact (List.append_nil _).symm
    · rw [List.nil_append, extractWideFrom, if_neg (hpair high)]
      rfl
  | [a], index, run => by
    have hpair : ¬(byte = 0 ∧ isPrintableByte a = true) := fun h => hzero h.1
    rw [List.singleton_append, List.singleton_append, extractWideFrom, extractWideFrom,
      if_neg hpair, if_neg hpair, List.append_assoc]
    simp only [List.length_singleton, Nat.reduceAdd, Nat.reduceMod, List.drop_zero, Nat.add_zero]
    rfl
  | a :: b :: p, index, run => by
    have hmod : ((a :: b :: p).length + 1) % 2 = (p.length + 1) % 2 := by
      simp only [List.length_cons]
      omega
    have hindex : index + ((a :: b :: p).length + 1) + (p.length + 1) % 2
        = index + 2 + (p.length + 1) + (p.length + 1) % 2 := by
      simp only [List.length_cons]
      omega
    rw [hmod, hindex, List.cons_append, List.cons_append, List.cons_append, List.cons_append,
      extractWideFrom, extractWideFrom]
    split
    · split
      · rw [extractWideFrom_append hbyte hzero q p, List.cons_append]
      · exact extractWideFrom_append hbyte hzero q p _ _
    · rw [extractWideFrom_append hbyte hzero q p, List.append_assoc]

/-! ## Lines -/

/-- `b"\n"`. -/
def newline : UInt8 := 10

/-- Nothing, or lines that are finished. -/
def IsLines (p : Bytes) : Prop := p = [] ∨ ∃ p', p = p' ++ [newline]

theorem extractAscii_append {p : Bytes} (hp : IsLines p) (q : Bytes) :
    extractAscii (p ++ q) = extractAscii p ++ (extractAscii q).map (·.shift p.length) := by
  obtain rfl | ⟨p, rfl⟩ := hp
  · have hshift : (fun s : ExtractedString => s.shift 0) = id := rfl
    rw [List.nil_append, List.length_nil, hshift, List.map_id]
    rfl
  · rw [extractAscii, List.append_assoc, List.singleton_append,
      extractAsciiFrom_append (by decide), List.length_append, List.length_singleton, Nat.add_assoc,
      extractAsciiFrom_shift q _ (Nat.le_refl 0)]
    rfl

/-- Wide strings of either part, whatever the alignment of the cut. -/
theorem mem_extractUtf16le_append {p : Bytes} (hp : IsLines p) (q : Bytes) {s : ExtractedString} :
    s ∈ extractUtf16le (p ++ q) ↔
      s ∈ extractUtf16le p ∨ s ∈ (extractUtf16le q).map (·.shift p.length) := by
  obtain rfl | ⟨p, rfl⟩ := hp
  · have hshift : (fun s : ExtractedString => s.shift 0) = id := rfl
    rw [List.nil_append, List.length_nil, hshift, List.map_id]
    exact (or_iff_right (show s ∉ extractUtf16le [] from List.not_mem_nil)).symm
  have hq : (extractUtf16le q).map (·.shift (p ++ [newline]).length)
      = extractWideFrom q (p.length + 1) [] ++ extractWideFrom (q.drop 1) (p.length + 2) [] := by
    rw [extractUtf16le, List.map_append, List.length_append, List.length_singleton,
      ← extractWideFrom_shift q 0 [] (p.length + 1) (Nat.zero_le _),
      ← extractWideFrom_shift (q.drop 1) 1 [] (p.length + 1) (Nat.zero_le _),
      Nat.zero_add, show 1 + (p.length + 1) = p.length + 2 by omega]
  have heven : extractWideFrom (p ++ newline :: q) 0 []
      = extractWideFrom (p ++ [newline]) 0 [] ++ extractWideFrom (q.drop ((p.length + 1) % 2))
        (p.length + 1 + (p.length + 1) % 2) [] := by
    rw [extractWideFrom_append (by decide) (by decide), Nat.zero_add]
  have hodd : extractWideFrom ((p ++ newline :: q).drop 1) 1 []
      = extractWideFrom ((p ++ [newline]).drop 1) 1 []
        ++ extractWideFrom (q.drop (p.length % 2)) (p.length + 1 + p.length % 2) [] := by
    obtain - | ⟨a, p⟩ := p
    · rfl
    · rw [List.cons_append, List.cons_append, List.drop_one, List.drop_one, List.tail_cons,
        List.tail_cons, extractWideFrom_append (by decide) (by decide), List.length_cons,
        show 1 + (p.length + 1) + (p.length + 1) % 2 = p.length + 1 + 1 + (p.length + 1) % 2 by
          omega]
  rw [hq, List.append_assoc, List.singleton_append]
  simp only [extractUtf16le, heven, hodd, List.mem_append]
  obtain hmod | hmod := Nat.mod_two_eq_zero_or_one p.length
  · rw [hmod, show (p.length + 1) % 2 = 1 by omega]
    simp only [List.drop_zero, Nat.add_zero, Nat.add_assoc, Nat.reduceAdd]
    tauto
  · rw [hmod, show (p.length + 1) % 2 = 0 by omega]
    simp only [List.drop_zero, Nat.add_zero, Nat.add_assoc, Nat.reduceAdd]
    tauto

theorem nodup_extractStrings (data : Bytes) : (extractStrings data).Nodup := by
  have hkeep := nodup_keys_keepFirst id (extractAscii data ++ extractUtf16le data)
  rw [List.map_id] at hkeep
  exact (sortBy_perm _ _).nodup_iff.mpr hkeep

/-- **The strings of finished lines and of what follows them.** -/
theorem extractStrings_append {p : Bytes} (hp : IsLines p) (q : Bytes) :
    (extractStrings (p ++ q)).Perm
      (extractStrings p ++ (extractStrings q).map (·.shift p.length)) := by
  have hinj : Function.Injective (ExtractedString.shift p.length) := fun s t h => by
    obtain ⟨_, _, _⟩ := s
    obtain ⟨_, _, _⟩ := t
    simpa [ExtractedString.shift] using h
  refine (List.perm_ext_iff_of_nodup (nodup_extractStrings _) ?_).mpr fun s => ?_
  · refine List.nodup_append.mpr ⟨nodup_extractStrings p, (nodup_extractStrings q).map hinj,
      fun s hs t ht heq => ?_⟩
    -- What comes after the cut starts after it.
    obtain ⟨t, -, rfl⟩ := List.mem_map.mp ht
    have hs := isSound_of_mem_extractStrings hs
    have hmin := hs.length
    have hbound := hs.bounded
    rw [heq] at hmin hbound
    simp only [ExtractedString.shift, minStringLength] at hmin hbound
    have hwidth : 1 ≤ t.encoding.width := by cases t.encoding <;> decide
    have := Nat.mul_le_mul hwidth hmin
    omega
  · simp only [mem_extractStrings, List.mem_append, List.mem_map, extractAscii_append hp,
      mem_extractUtf16le_append hp]
    constructor
    · rintro ((hs | ⟨t, ht, rfl⟩) | (hs | ⟨t, ht, rfl⟩))
      · exact Or.inl (Or.inl hs)
      · exact Or.inr ⟨t, Or.inl ht, rfl⟩
      · exact Or.inl (Or.inr hs)
      · exact Or.inr ⟨t, Or.inr ht, rfl⟩
    · rintro ((hs | hs) | ⟨t, ht | ht, rfl⟩)
      · exact Or.inl (Or.inl hs)
      · exact Or.inr (Or.inl hs)
      · exact Or.inl (Or.inr ⟨t, ht, rfl⟩)
      · exact Or.inr (Or.inr ⟨t, ht, rfl⟩)

end BareAnalysis
