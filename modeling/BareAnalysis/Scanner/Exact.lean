import BareAnalysis.Machinery.Pieces
import BareAnalysis.Scanner.Extract

/-!
# Scanner/Exact — what the extractors list

    bytes     68 65 6c 6c 6f 20 77 6f 00     a maximal printable run, spelled from byte 0
    strings  ⟨"hello wo", 0, ascii⟩          listed whole, or cut every 8192 characters

The two loops of `core/rules/scanner.py` against a declarative notion of a maximal printable run of
an encoding: they list the pieces such runs are cut into.
-/

namespace BareAnalysis

/-! ## Printable runs -/

/-- A printable ASCII character, or the tab. -/
def IsPrintable (c : Char) : Prop := (0x20 ≤ c.toNat ∧ c.toNat < 0x7F) ∨ c.toNat = 9

namespace Encoding

/-- The bytes of one character; a wide one has its low byte first. -/
def encode : Encoding → Char → Bytes
  | ascii, c => [UInt8.ofNat c.toNat]
  | utf16le, c => [UInt8.ofNat (c.toNat % 256), UInt8.ofNat (c.toNat / 256)]

/-- The bytes at an offset spell a text. -/
def Spells (encoding : Encoding) (data : Bytes) (offset : ℕ) (text : List Char) : Prop :=
  text.flatMap encoding.encode <+: data.drop offset

/-- The bytes at an offset spell a printable character. -/
def PrintableAt (encoding : Encoding) (data : Bytes) (offset : ℕ) : Prop :=
  ∃ c, IsPrintable c ∧ encoding.encode c <+: data.drop offset

end Encoding

/-- A printable text spelled at an offset, with no printable character on either side. -/
structure IsPrintableRun (encoding : Encoding) (data : Bytes) (start : ℕ) (run : List Char) :
    Prop where
  ne_nil : run ≠ []
  printable : ∀ c ∈ run, IsPrintable c
  spelled : encoding.Spells data start run
  before : ∀ p, p + encoding.width = start → ¬encoding.PrintableAt data p
  after : ¬encoding.PrintableAt data (start + encoding.width * run.length)

/-! ## The bytes as cells -/

def asciiCell (byte : UInt8) : Option Char :=
  if isPrintableByte byte then some (decodeAscii byte) else none

def wideCell (low high : UInt8) : Option Char :=
  if high = 0 ∧ isPrintableByte low then some (decodeAscii low) else none

/-- The pairs of bytes, and what each holds. -/
def wideCells : Bytes → List (Option Char)
  | low :: high :: rest => wideCell low high :: wideCells rest
  | _ => []

namespace Encoding

def cells : Encoding → Bytes → List (Option Char)
  | ascii, data => data.map asciiCell
  | utf16le, data => wideCells data

/-- The printable character at an offset. -/
def charAt : Encoding → Bytes → ℕ → Option Char
  | ascii, data, p => data[p]?.bind asciiCell
  | utf16le, data, p => data[p]?.bind fun low => data[p + 1]?.bind fun high => wideCell low high

end Encoding

theorem cellAt_wideCells (data : Bytes) (i : ℕ) :
    cellAt (wideCells data) i = Encoding.utf16le.charAt data (2 * i) := by
  induction data using wideCells.induct generalizing i with
  | case1 low high rest ih =>
    obtain - | i := i
    · rfl
    · exact ih i
  | case2 data hshort =>
    obtain - | ⟨a, - | ⟨b, rest⟩⟩ := data
    · rfl
    · obtain - | i := i
      · rfl
      · rfl
    · exact absurd rfl (hshort a b rest)

theorem Encoding.charAt_drop (encoding : Encoding) (data : Bytes) (a p : ℕ) :
    encoding.charAt (data.drop a) p = encoding.charAt data (a + p) := by
  cases encoding <;> simp only [charAt, List.getElem?_drop, Nat.add_assoc]

/-- **Cells are the printable characters at one alignment.** -/
theorem cellAt_cells (encoding : Encoding) (data : Bytes) (a i : ℕ) :
    cellAt (encoding.cells (data.drop a)) i = encoding.charAt data (a + encoding.width * i) := by
  rw [← Encoding.charAt_drop]
  cases encoding with
  | ascii =>
    rw [Encoding.cells, cellAt, List.getElem?_map, Encoding.charAt, Encoding.width, Nat.one_mul]
    cases (data.drop a)[i]? <;> rfl
  | utf16le => exact cellAt_wideCells _ i

/-! ## The loops list pieces -/

/-- A piece of the cells at an alignment, as the string it is. -/
def pieceString (encoding : Encoding) (a : ℕ) (piece : ℕ × List Char) : ExtractedString where
  value := piece.2
  offset := a + encoding.width * piece.1
  encoding := encoding

theorem extracted_eq_pieceString (encoding : Encoding) (a index : ℕ) {run : Bytes}
    (h : run.length ≤ index) :
    extracted encoding (a + encoding.width * index) run
      = pieceString encoding a (index - run.length, run.map decodeAscii) := by
  have hmul := Nat.mul_le_mul_left encoding.width h
  simp only [extracted, pieceString, ExtractedString.mk.injEq, true_and, and_true, Nat.mul_sub]
  omega

theorem reported_eq_keptPiece (encoding : Encoding) (a index : ℕ) {run : Bytes}
    (h : run.length ≤ index) :
    reported encoding (a + encoding.width * index) run
      = (keptPiece minStringLength index (run.map decodeAscii)).map (pieceString encoding a) := by
  rw [reported, keptPiece, List.length_map]
  split
  · rw [extracted_eq_pieceString encoding a index h, List.map_singleton]
  · rfl

theorem map_decodeAscii_concat (run : Bytes) (byte : UInt8) :
    (run ++ [byte]).map decodeAscii = run.map decodeAscii ++ [decodeAscii byte] := by
  rw [List.map_append, List.map_singleton]

/-- The ASCII loop cuts when one more byte comes… -/
theorem extractAsciiFrom_eq (data : Bytes) {index : ℕ} {run : Bytes} (h : run.length ≤ index) :
    extractAsciiFrom data index run
      = (runPieces minStringLength maxStringLength (data.map asciiCell) index
          (run.map decodeAscii)).map (pieceString .ascii 0) := by
  have hindex : ∀ index, 0 + Encoding.ascii.width * index = index := fun index => by
    rw [Encoding.width, Nat.one_mul, Nat.zero_add]
  have hkept := fun {index run} (h : run.length ≤ index) =>
    @reported_eq_keptPiece .ascii 0 index run h
  have hcut := fun {index run} (h : run.length ≤ index) =>
    @extracted_eq_pieceString .ascii 0 index run h
  simp only [hindex] at hkept hcut
  induction data generalizing index run with
  | nil => exact hkept h
  | cons byte rest ih =>
    rw [extractAsciiFrom, List.map_cons]
    by_cases hbyte : isPrintableByte byte = true
    · rw [if_pos hbyte, asciiCell, if_pos hbyte, runPieces, List.length_map]
      split
      · rw [ih (by rw [List.length_singleton]; omega), hcut h, List.map_cons]
        rfl
      · rw [ih (by rw [List.length_append, List.length_singleton]; omega), map_decodeAscii_concat]
    · rw [if_neg hbyte, asciiCell, if_neg hbyte, runPieces, List.map_append,
        ih (Nat.zero_le _), hkept h]
      rfl

/-- …and the wide loop as soon as a string is full. -/
theorem extractWideFrom_eq (data : Bytes) (a index : ℕ) {run : Bytes} (h : run.length ≤ index) :
    extractWideFrom data (a + 2 * index) run
      = (eagerRunPieces minStringLength maxStringLength (wideCells data) index
          (run.map decodeAscii)).map (pieceString .utf16le a) := by
  have hkept := fun {index run} (h : run.length ≤ index) =>
    @reported_eq_keptPiece .utf16le a index run h
  have hcut := fun {index run} (h : run.length ≤ index) =>
    @extracted_eq_pieceString .utf16le a index run h
  have hnext : ∀ index, a + 2 * index + 2 = a + 2 * (index + 1) := fun index => by omega
  induction data using wideCells.induct generalizing index run with
  | case1 low high rest ih =>
    have hlength : (run ++ [low]).length ≤ index + 1 := by
      rw [List.length_append, List.length_singleton]
      omega
    rw [extractWideFrom, wideCells, hnext]
    by_cases hpair : high = 0 ∧ isPrintableByte low = true
    · rw [if_pos hpair, wideCell, if_pos hpair, eagerRunPieces, ← map_decodeAscii_concat,
        List.length_map]
      split
      · rw [ih (index + 1) (Nat.zero_le _), List.map_cons, ← hcut hlength]
        rfl
      · rw [ih (index + 1) hlength]
    · rw [if_neg hpair, wideCell, if_neg hpair, eagerRunPieces, List.map_append, ← hkept h,
        ih (index + 1) (Nat.zero_le _)]
      rfl
  | case2 data hshort =>
    obtain - | ⟨byte, - | ⟨high, rest⟩⟩ := data
    · exact hkept h
    · exact hkept h
    · exact absurd rfl (hshort byte high rest)

theorem minStringLength_pos : 0 < minStringLength := by decide

/-- **Either extractor lists the pieces of the cells at its alignments.** -/
theorem mem_extractStrings_iff_piece {data : Bytes} {s : ExtractedString} :
    s ∈ extractStrings data ↔ ∃ encoding : Encoding, ∃ a < encoding.width,
      ∃ piece ∈ runPieces minStringLength maxStringLength (encoding.cells (data.drop a)) 0 [],
        s = pieceString encoding a piece := by
  have hascii : extractAscii data
      = (runPieces minStringLength maxStringLength (Encoding.ascii.cells (data.drop 0)) 0 []).map
          (pieceString .ascii 0) :=
    extractAsciiFrom_eq data (Nat.zero_le _)
  have hwide : ∀ a, extractWideFrom (data.drop a) a []
      = (runPieces minStringLength maxStringLength (Encoding.utf16le.cells (data.drop a)) 0
          []).map (pieceString .utf16le a) := fun a => by
    rw [← eagerRunPieces_eq minStringLength_pos minStringLength_le_max]
    exact @extractWideFrom_eq (data.drop a) a 0 [] (Nat.zero_le _)
  rw [mem_extractStrings, hascii, extractUtf16le, List.mem_append, hwide 1,
    show extractWideFrom data 0 [] = _ from hwide 0]
  simp only [List.mem_map]
  constructor
  · rintro (⟨piece, hpiece, rfl⟩ | ⟨piece, hpiece, rfl⟩ | ⟨piece, hpiece, rfl⟩)
    · exact ⟨.ascii, 0, by decide, piece, hpiece, rfl⟩
    · exact ⟨.utf16le, 0, by decide, piece, hpiece, rfl⟩
    · exact ⟨.utf16le, 1, by decide, piece, hpiece, rfl⟩
  · rintro ⟨encoding, a, ha, piece, hpiece, rfl⟩
    cases encoding with
    | ascii =>
      obtain rfl : a = 0 := by rw [Encoding.width] at ha; omega
      exact Or.inl ⟨piece, hpiece, rfl⟩
    | utf16le =>
      obtain rfl | rfl : a = 0 ∨ a = 1 := by rw [Encoding.width] at ha; omega
      · exact Or.inr (Or.inl ⟨piece, hpiece, rfl⟩)
      · exact Or.inr (Or.inr ⟨piece, hpiece, rfl⟩)

/-! ## Cells and spelled characters -/

theorem toNat_ofNat_of_lt {n : ℕ} (h : n < 128) : (Char.ofNat n).toNat = n := by
  have hvalid : n.isValidChar := Or.inl (by omega)
  rw [Char.ofNat, dif_pos hvalid]
  rfl

/-- A printable byte is the one byte of a printable character… -/
theorem isPrintable_decodeAscii {b : UInt8} (h : isPrintableByte b = true) :
    IsPrintable (decodeAscii b) ∧ UInt8.ofNat (decodeAscii b).toNat = b := by
  have hb : (32 ≤ b.toNat ∧ b.toNat < 127) ∨ b.toNat = 9 := by
    simpa [isPrintableByte, UInt8.le_iff_toNat_le, UInt8.lt_iff_toNat_lt, ← UInt8.toNat_inj]
      using h
  have hnat : (decodeAscii b).toNat = b.toNat := by
    rw [decodeAscii, if_pos (UInt8.lt_iff_toNat_lt.mpr (show b.toNat < 128 by omega)),
      toNat_ofNat_of_lt (by omega)]
  exact ⟨by rwa [IsPrintable, hnat], by rw [hnat, UInt8.ofNat_toNat]⟩

/-- …and a printable character has one printable byte. -/
theorem decodeAscii_ofNat {c : Char} (h : IsPrintable c) :
    isPrintableByte (UInt8.ofNat c.toNat) = true ∧ decodeAscii (UInt8.ofNat c.toNat) = c := by
  rw [IsPrintable] at h
  have hnat : (UInt8.ofNat c.toNat).toNat = c.toNat := by
    rw [UInt8.toNat_ofNat', Nat.mod_eq_of_lt (by omega)]
  constructor
  · simpa [isPrintableByte, UInt8.le_iff_toNat_le, UInt8.lt_iff_toNat_lt, ← UInt8.toNat_inj, hnat]
      using h
  · rw [decodeAscii, if_pos (UInt8.lt_iff_toNat_lt.mpr (show _ < 128 by omega)), hnat,
      Char.ofNat_toNat]

theorem asciiCell_eq_some_iff {b : UInt8} {c : Char} :
    asciiCell b = some c ↔ IsPrintable c ∧ b = UInt8.ofNat c.toNat := by
  rw [asciiCell]
  constructor
  · intro h
    split at h
    · rename_i hb
      obtain rfl := Option.some_inj.mp h
      obtain ⟨hprintable, hbyte⟩ := isPrintable_decodeAscii hb
      exact ⟨hprintable, hbyte.symm⟩
    · cases h
  · rintro ⟨hprintable, rfl⟩
    obtain ⟨hb, hc⟩ := decodeAscii_ofNat hprintable
    rw [if_pos hb, hc]

theorem wideCell_eq_some_iff {low high : UInt8} {c : Char} :
    wideCell low high = some c ↔
      IsPrintable c ∧ low = UInt8.ofNat (c.toNat % 256) ∧ high = UInt8.ofNat (c.toNat / 256) := by
  have hcell : wideCell low high = some c ↔ high = 0 ∧ asciiCell low = some c := by
    rw [wideCell, asciiCell]
    by_cases hhigh : high = 0
    · simp only [hhigh, true_and]
    · simp only [hhigh, false_and, if_false, reduceCtorEq]
  rw [hcell, asciiCell_eq_some_iff]
  constructor
  · rintro ⟨rfl, hprintable, rfl⟩
    have hlt : c.toNat < 256 := by
      rw [IsPrintable] at hprintable
      omega
    rw [Nat.mod_eq_of_lt hlt, Nat.div_eq_of_lt hlt]
    exact ⟨hprintable, rfl, rfl⟩
  · rintro ⟨hprintable, rfl, rfl⟩
    have hlt : c.toNat < 256 := by
      rw [IsPrintable] at hprintable
      omega
    rw [Nat.mod_eq_of_lt hlt, Nat.div_eq_of_lt hlt]
    exact ⟨rfl, hprintable, rfl⟩

theorem cons_prefix_drop_iff {data : Bytes} {b : UInt8} {rest : Bytes} {p : ℕ} :
    b :: rest <+: data.drop p ↔ data[p]? = some b ∧ rest <+: data.drop (p + 1) := by
  obtain hlt | hge := Nat.lt_or_ge p data.length
  · rw [List.drop_eq_getElem_cons hlt, List.cons_prefix_cons, List.getElem?_eq_getElem hlt,
      Option.some_inj, eq_comm]
  · rw [List.drop_eq_nil_of_le hge, List.getElem?_eq_none hge, List.prefix_nil]
    exact ⟨fun h => (nomatch h), fun h => (nomatch h.1)⟩

/-- **A cell holds the printable character spelled there.** -/
theorem charAt_eq_some_iff {encoding : Encoding} {data : Bytes} {p : ℕ} {c : Char} :
    encoding.charAt data p = some c ↔ IsPrintable c ∧ encoding.encode c <+: data.drop p := by
  cases encoding with
  | ascii =>
    rw [Encoding.charAt, Encoding.encode, cons_prefix_drop_iff, Option.bind_eq_some_iff]
    simp only [asciiCell_eq_some_iff, List.nil_prefix, and_true]
    constructor
    · rintro ⟨b, hb, hprintable, rfl⟩
      exact ⟨hprintable, hb⟩
    · rintro ⟨hprintable, hb⟩
      exact ⟨_, hb, hprintable, rfl⟩
  | utf16le =>
    rw [Encoding.charAt, Encoding.encode, cons_prefix_drop_iff, cons_prefix_drop_iff,
      Option.bind_eq_some_iff]
    simp only [Option.bind_eq_some_iff, wideCell_eq_some_iff, List.nil_prefix, and_true]
    constructor
    · rintro ⟨low, hlow, high, hhigh, hprintable, rfl, rfl⟩
      exact ⟨hprintable, hlow, hhigh⟩
    · rintro ⟨hprintable, hlow, hhigh⟩
      exact ⟨_, hlow, _, hhigh, hprintable, rfl, rfl⟩

theorem charAt_eq_none_iff {encoding : Encoding} {data : Bytes} {p : ℕ} :
    encoding.charAt data p = none ↔ ¬encoding.PrintableAt data p := by
  rw [Option.eq_none_iff_forall_ne_some, Encoding.PrintableAt]
  simp only [ne_eq, charAt_eq_some_iff, not_exists]

theorem Encoding.length_encode (encoding : Encoding) (c : Char) :
    (encoding.encode c).length = encoding.width := by
  cases encoding <;> rfl

/-- A text is spelled at an offset when each of its characters is, in turn. -/
theorem spells_cons_iff {encoding : Encoding} {data : Bytes} {offset : ℕ} {c : Char}
    {text : List Char} :
    encoding.Spells data offset (c :: text) ↔
      encoding.encode c <+: data.drop offset ∧
        encoding.Spells data (offset + encoding.width) text := by
  rw [Encoding.Spells, Encoding.Spells, List.flatMap_cons]
  cases encoding with
  | ascii =>
    simp only [Encoding.encode, List.cons_append, List.nil_append, cons_prefix_drop_iff,
      List.nil_prefix, and_true, Encoding.width]
  | utf16le =>
    simp only [Encoding.encode, List.cons_append, List.nil_append, cons_prefix_drop_iff,
      List.nil_prefix, and_true, Encoding.width, and_assoc, Nat.add_assoc, Nat.reduceAdd]

theorem held_iff_spells {encoding : Encoding} {data : Bytes} (text : List Char) (offset : ℕ) :
    (∀ i < text.length, encoding.charAt data (offset + encoding.width * i) = text[i]?) ↔
      (∀ c ∈ text, IsPrintable c) ∧ encoding.Spells data offset text := by
  induction text generalizing offset with
  | nil =>
    exact ⟨fun _ => ⟨fun _ h => (nomatch h), List.nil_prefix⟩, fun _ i hi => (nomatch hi)⟩
  | cons c text ih =>
    rw [spells_cons_iff, List.forall_mem_cons]
    constructor
    · intro h
      obtain ⟨hprintable, hc⟩ := charAt_eq_some_iff.mp (h 0 (Nat.zero_lt_succ _))
      obtain ⟨hall, htext⟩ := (ih (offset + encoding.width)).mp fun i hi => by
        rw [← List.getElem?_cons_succ (a := c), ← h (i + 1) (Nat.succ_lt_succ hi), Nat.mul_succ,
          Nat.add_assoc, Nat.add_comm encoding.width]
      exact ⟨⟨hprintable, hall⟩, hc, htext⟩
    · rintro ⟨⟨hprintable, hall⟩, hc, htext⟩ i hi
      obtain - | i := i
      · exact charAt_eq_some_iff.mpr ⟨hprintable, hc⟩
      · rw [Nat.mul_succ, Nat.add_comm (encoding.width * i), ← Nat.add_assoc,
          (ih _).mpr ⟨hall, htext⟩ i (Nat.lt_of_succ_lt_succ hi), List.getElem?_cons_succ]

/-! ## Printable runs are the maximal runs of the cells -/

/-- **A printable run, read at its alignment.** -/
theorem isPrintableRun_iff {encoding : Encoding} {data : Bytes} {a j : ℕ} {run : List Char}
    (ha : a < encoding.width) :
    IsPrintableRun encoding data (a + encoding.width * j) run ↔
      IsMaximalRun (cellAt (encoding.cells (data.drop a))) j run := by
  have hoffset : ∀ i, a + encoding.width * (j + i)
      = a + encoding.width * j + encoding.width * i := fun i => by
    rw [Nat.mul_add, Nat.add_assoc]
  have hheld := @held_iff_spells encoding data run (a + encoding.width * j)
  constructor
  · intro h
    refine ⟨h.ne_nil, fun i hi => ?_, fun i hi => ?_, ?_⟩
    · rw [cellAt_cells, hoffset]
      exact hheld.mpr ⟨h.printable, h.spelled⟩ i hi
    · rw [cellAt_cells, charAt_eq_none_iff]
      exact h.before _ (by rw [← hi, Nat.mul_succ, Nat.add_assoc])
    · rw [cellAt_cells, hoffset, charAt_eq_none_iff]
      exact h.after
  · intro h
    obtain ⟨hprintable, hspelled⟩ := hheld.mp fun i hi => by
      rw [← hoffset, ← cellAt_cells]
      exact h.held i hi
    refine ⟨h.ne_nil, hprintable, hspelled, fun p hp => ?_, ?_⟩
    · obtain - | j := j
      · omega
      · rw [← charAt_eq_none_iff, show p = a + encoding.width * j by
          rw [Nat.mul_succ] at hp; omega, ← cellAt_cells]
        exact h.before j rfl
    · rw [← charAt_eq_none_iff, ← hoffset, ← cellAt_cells]
      exact h.after

/-- What lies between two cuts of a printable run. -/
def cutString (encoding : Encoding) (start : ℕ) (run : List Char) (k : ℕ) : ExtractedString where
  value := (run.drop (maxStringLength * k)).take maxStringLength
  offset := start + encoding.width * (maxStringLength * k)
  encoding := encoding

/-- **Exactly the pieces of the printable runs are extracted.** -/
theorem mem_extractStrings_iff_cut {data : Bytes} {s : ExtractedString} :
    s ∈ extractStrings data ↔ ∃ encoding start run k, IsPrintableRun encoding data start run ∧
      maxStringLength * k + minStringLength ≤ run.length ∧
        s = cutString encoding start run k := by
  have hcut : ∀ (encoding : Encoding) (a j k : ℕ) (run : List Char),
      pieceString encoding a
          (j + maxStringLength * k, (run.drop (maxStringLength * k)).take maxStringLength)
        = cutString encoding (a + encoding.width * j) run k := fun encoding a j k run => by
    rw [pieceString, cutString, Nat.mul_add, Nat.add_assoc]
  rw [mem_extractStrings_iff_piece]
  simp only [mem_runPieces_iff minStringLength_pos minStringLength_le_max]
  constructor
  · rintro ⟨encoding, a, ha, piece, ⟨j, run, hrun, k, hk, rfl⟩, rfl⟩
    exact ⟨encoding, _, run, k, (isPrintableRun_iff ha).mpr hrun, hk, hcut encoding a j k run⟩
  · rintro ⟨encoding, start, run, k, hrun, hk, rfl⟩
    have hwidth : 0 < encoding.width := by cases encoding <;> decide
    have hmod := Nat.mod_lt start hwidth
    rw [← Nat.mod_add_div start encoding.width] at hrun ⊢
    exact ⟨encoding, _, hmod, _, ⟨_, run, (isPrintableRun_iff hmod).mp hrun, k, hk, rfl⟩,
      (hcut _ _ _ k run).symm⟩

/-! ## Runs do not overlap -/

/-- The high byte of a wide character is not the low byte of another. -/
theorem charAt_succ_eq_none {data : Bytes} {p : ℕ} {c : Char}
    (h : Encoding.utf16le.charAt data p = some c) :
    Encoding.utf16le.charAt data (p + 1) = none := by
  obtain ⟨hprintable, hspelled⟩ := charAt_eq_some_iff.mp h
  have hlt : c.toNat < 256 := by
    rw [IsPrintable] at hprintable
    omega
  rw [Encoding.encode, cons_prefix_drop_iff, cons_prefix_drop_iff, Nat.div_eq_of_lt hlt] at hspelled
  rw [Encoding.charAt, hspelled.2.1, Option.bind_some]
  obtain _ | high := data[p + 1 + 1]?
  · rfl
  · rw [Option.bind_some, wideCell, if_neg]
    rintro ⟨-, hzero⟩
    exact absurd hzero (by decide)

theorem IsPrintableRun.charAt {encoding : Encoding} {data : Bytes} {start : ℕ} {run : List Char}
    (h : IsPrintableRun encoding data start run) {i : ℕ} (hi : i < run.length) :
    encoding.charAt data (start + encoding.width * i) = some run[i] := by
  rw [(held_iff_spells run start).mpr ⟨h.printable, h.spelled⟩ i hi, List.getElem?_eq_getElem hi]

/-- **A run that covers part of another is that run**, since runs of both alignments do not
overlap. -/
theorem IsPrintableRun.unique {encoding : Encoding} {data : Bytes} {start first : ℕ}
    {run other : List Char} (h : IsPrintableRun encoding data start run)
    (h' : IsPrintableRun encoding data first other) {i m : ℕ} (hm : 0 < m)
    (hi : i + m ≤ run.length) (hfirst : first ≤ start + encoding.width * i)
    (hlast : start + encoding.width * (i + m) ≤ first + encoding.width * other.length) :
    start = first ∧ run = other := by
  -- The part begins at a character of the other run.
  obtain ⟨j, hj⟩ : ∃ j, start + encoding.width * i = first + encoding.width * j := by
    obtain ⟨d, hd⟩ := Nat.exists_eq_add_of_le hfirst
    cases encoding with
    | ascii => exact ⟨d, by rw [hd, Encoding.width, Nat.one_mul]⟩
    | utf16le =>
      simp only [Encoding.width] at hd hlast ⊢
      obtain ⟨j, rfl | rfl⟩ : ∃ j, d = 2 * j ∨ d = 2 * j + 1 := ⟨d / 2, by omega⟩
      · exact ⟨j, hd⟩
      · have hin : j + 1 < other.length := by omega
        have hnone := charAt_succ_eq_none (h.charAt (i := i) (by omega))
        rw [Encoding.width, show start + 2 * i + 1 = first + 2 * (j + 1) by omega] at hnone
        have hsome := h'.charAt hin
        rw [Encoding.width, hnone] at hsome
        cases hsome
  have hwidth : 0 < encoding.width := by cases encoding <;> decide
  have hj' : j < other.length := by
    rw [Nat.mul_add, ← Nat.add_assoc, hj] at hlast
    have hpos : 0 < encoding.width * m := Nat.mul_pos hwidth hm
    exact Nat.lt_of_mul_lt_mul_left (a := encoding.width) (by omega)
  -- Both are read at one alignment.
  have hmod : start % encoding.width = first % encoding.width := by
    have := congrArg (· % encoding.width) hj
    simpa only [Nat.add_mul_mod_self_left] using this
  have ha := Nat.mod_lt start hwidth
  rw [← Nat.mod_add_div start encoding.width] at h hj ⊢
  rw [← Nat.mod_add_div first encoding.width, ← hmod] at h' hj ⊢
  have hsame : start / encoding.width + i = first / encoding.width + j := by
    refine Nat.eq_of_mul_eq_mul_left hwidth ?_
    rw [Nat.mul_add, Nat.mul_add]
    omega
  obtain ⟨heq, hrun⟩ := ((isPrintableRun_iff ha).mp h).unique ((isPrintableRun_iff ha).mp h')
    (i := start / encoding.width + i) (by omega) (by omega)
  exact ⟨by rw [heq], hrun⟩

/-! ## Ordinary strings -/

/-- A printable run of ordinary length, as it should be listed. -/
def wholeString (encoding : Encoding) (start : ℕ) (run : List Char) : ExtractedString where
  value := run
  offset := start
  encoding := encoding

theorem cutString_zero {encoding : Encoding} {start : ℕ} {run : List Char}
    (h : run.length ≤ maxStringLength) :
    cutString encoding start run 0 = wholeString encoding start run := by
  rw [cutString, wholeString, Nat.mul_zero, Nat.mul_zero, Nat.add_zero, List.drop_zero,
    List.take_of_length_le h]

/-- What a list of strings of a file should be. -/
structure IsExactFor (data : Bytes) (strings : List ExtractedString) : Prop where
  spelled : ∀ s ∈ strings, s.encoding.Spells data s.offset s.value
  printable : ∀ s ∈ strings, ∀ c ∈ s.value, IsPrintable c
  length : ∀ s ∈ strings, minStringLength ≤ s.value.length ∧ s.value.length ≤ maxStringLength
  nodup : strings.Nodup
  sorted : strings.Pairwise fun s t => s.sortKey ≤ t.sortKey
  /-- Every printable run of ordinary length is listed… -/
  listed : ∀ encoding start run, IsPrintableRun encoding data start run →
    minStringLength ≤ run.length → run.length ≤ maxStringLength →
      wholeString encoding start run ∈ strings
  /-- …and nothing else that lies in it. -/
  only : ∀ encoding start run, IsPrintableRun encoding data start run →
    minStringLength ≤ run.length → run.length ≤ maxStringLength →
      ∀ s ∈ strings, s.encoding = encoding → start ≤ s.offset →
        s.offset + encoding.width * s.value.length ≤ start + encoding.width * run.length →
          s = wholeString encoding start run

theorem length_cutString_value (encoding : Encoding) (start : ℕ) (run : List Char) (k : ℕ) :
    (cutString encoding start run k).value.length
      = min maxStringLength (run.length - maxStringLength * k) := by
  rw [cutString, List.length_take, List.length_drop]

/-- A piece of a run is spelled where it lies. -/
theorem Encoding.Spells.cut {encoding : Encoding} {data : Bytes} {start : ℕ} {run : List Char}
    (hprintable : ∀ c ∈ run, IsPrintable c) (h : encoding.Spells data start run) (n m : ℕ) :
    encoding.Spells data (start + encoding.width * n) ((run.drop n).take m) := by
  have hheld := (held_iff_spells run start).mpr ⟨hprintable, h⟩
  refine ((held_iff_spells _ _).mp fun i hi => ?_).2
  rw [List.length_take, List.length_drop] at hi
  rw [Nat.add_assoc, ← Nat.mul_add, hheld (n + i) (by omega), List.getElem?_take_of_lt (by omega),
    List.getElem?_drop]

/-- **String extraction is exact on ordinary strings.** -/
theorem isExactFor_extractStrings (data : Bytes) : IsExactFor data (extractStrings data) where
  spelled s hs := by
    obtain ⟨encoding, start, run, k, hrun, -, rfl⟩ := mem_extractStrings_iff_cut.mp hs
    exact hrun.spelled.cut hrun.printable _ _
  printable s hs c hc := by
    obtain ⟨encoding, start, run, k, hrun, -, rfl⟩ := mem_extractStrings_iff_cut.mp hs
    exact hrun.printable c (List.mem_of_mem_drop (List.mem_of_mem_take hc))
  length s hs := by
    obtain ⟨encoding, start, run, k, -, hk, rfl⟩ := mem_extractStrings_iff_cut.mp hs
    have := minStringLength_le_max
    rw [length_cutString_value]
    omega
  nodup := nodup_extractStrings data
  sorted := pairwise_sortBy _ _
  listed encoding start run hrun hmin hmax :=
    mem_extractStrings_iff_cut.mpr ⟨encoding, start, run, 0, hrun, by omega,
      (cutString_zero hmax).symm⟩
  only encoding start run hrun hmin hmax s hs hencoding hfirst hlast := by
    obtain ⟨encoding, first, other, k, hother, hk, rfl⟩ := mem_extractStrings_iff_cut.mp hs
    obtain rfl : encoding = _ := hencoding
    have hlength := length_cutString_value encoding first other k
    have hle := minStringLength_le_max
    have hpos := minStringLength_pos
    obtain ⟨rfl, rfl⟩ := hother.unique hrun (i := maxStringLength * k)
      (m := (cutString encoding first other k).value.length) (by omega) (by omega) hfirst
      (by rw [Nat.mul_add, ← Nat.add_assoc]; exact hlast)
    obtain rfl : k = 0 := by
      by_contra hne
      have := Nat.le_mul_of_pos_right maxStringLength (Nat.pos_of_ne_zero hne)
      omega
    exact cutString_zero hmax

/-! ## Long strings -/

/-- A string covers the bytes of part of a run. -/
def ExtractedString.Covers (s : ExtractedString) (encoding : Encoding) (first count : ℕ) : Prop :=
  s.encoding = encoding ∧ s.offset ≤ first ∧
    first + encoding.width * count ≤ s.offset + encoding.width * s.value.length

theorem fits_of_covers {encoding : Encoding} {data : Bytes} {start : ℕ} {u t v : List Char}
    {s : ExtractedString} (hrun : IsPrintableRun encoding data start (u ++ t ++ v))
    (hmin : minStringLength ≤ t.length) (hs : s ∈ extractStrings data)
    (hcovers : s.Covers encoding (start + encoding.width * u.length) t.length) :
    u.length % maxStringLength + t.length ≤ maxStringLength := by
  obtain ⟨hencoding, hfirst, hlast⟩ := hcovers
  obtain ⟨encoding, first, other, k, hother, hk, rfl⟩ := mem_extractStrings_iff_cut.mp hs
  obtain rfl : encoding = _ := hencoding
  have hlength := length_cutString_value encoding first other k
  have hwidth : 0 < encoding.width := by cases encoding <;> decide
  have hoffset : (cutString encoding first other k).offset
      = first + encoding.width * (maxStringLength * k) := rfl
  -- The string is a piece of the same run.
  have hend : first + encoding.width * (maxStringLength * k)
        + encoding.width * (cutString encoding first other k).value.length
      ≤ first + encoding.width * other.length := by
    rw [Nat.add_assoc, ← Nat.mul_add]
    exact Nat.add_le_add_left (Nat.mul_le_mul_left _ (by omega)) _
  rw [hoffset] at hfirst hlast
  have hpos := minStringLength_pos
  obtain ⟨rfl, rfl⟩ := hrun.unique hother (i := u.length) (m := t.length) (by omega)
    (by rw [List.length_append, List.length_append]; omega)
    ((Nat.le_add_right _ _).trans hfirst) (by rw [Nat.mul_add]; omega)
  have hbefore : maxStringLength * k ≤ u.length :=
    Nat.le_of_mul_le_mul_left (Nat.add_le_add_iff_left.mp hfirst) hwidth
  have hbehind : u.length + t.length
      ≤ maxStringLength * k + (cutString encoding start (u ++ t ++ v) k).value.length := by
    refine Nat.le_of_mul_le_mul_left (c := encoding.width) ?_ hwidth
    rw [Nat.mul_add, Nat.mul_add]
    omega
  rw [maxStringLength] at *
  omega

/-- **Part of a run is seen whole exactly when no cut falls in it.** -/
theorem exists_covers_iff {encoding : Encoding} {data : Bytes} {start : ℕ} {u t v : List Char}
    (hrun : IsPrintableRun encoding data start (u ++ t ++ v))
    (hmin : minStringLength ≤ t.length) :
    (∃ s ∈ extractStrings data,
        s.Covers encoding (start + encoding.width * u.length) t.length) ↔
      u.length % maxStringLength + t.length ≤ maxStringLength := by
  constructor
  · rintro ⟨s, hs, hcovers⟩
    exact fits_of_covers hrun hmin hs hcovers
  · intro hin
    have hlength : (u ++ t ++ v).length = u.length + t.length + v.length := by
      rw [List.length_append, List.length_append]
    have hdiv := Nat.div_add_mod u.length maxStringLength
    have hvalue := length_cutString_value encoding start (u ++ t ++ v)
      (u.length / maxStringLength)
    refine ⟨_, mem_extractStrings_iff_cut.mpr
      ⟨encoding, start, _, u.length / maxStringLength, hrun, by omega, rfl⟩, rfl, ?_, ?_⟩
    · exact Nat.add_le_add_left (Nat.mul_le_mul_left _ (by omega)) _
    · rw [hvalue, cutString, Nat.add_assoc, Nat.add_assoc, ← Nat.mul_add, ← Nat.mul_add]
      exact Nat.add_le_add_left (Nat.mul_le_mul_left _ (by omega)) _

/-- A file of one repeated letter is one run. -/
theorem isPrintableRun_replicate {n : ℕ} (hn : 0 < n) :
    IsPrintableRun .ascii (List.replicate n 97) 0 (List.replicate n 'a') where
  ne_nil h := by
    rw [List.replicate_eq_nil_iff] at h
    omega
  printable c hc := by
    rw [List.eq_of_mem_replicate hc]
    exact Or.inl (by decide)
  spelled := by
    have hbytes : (List.replicate n 'a').flatMap Encoding.ascii.encode = List.replicate n 97 := by
      rw [List.flatMap_replicate, show Encoding.ascii.encode 'a' = List.replicate 1 97 from rfl,
        List.flatten_replicate_replicate, Nat.mul_one]
    rw [Encoding.Spells, List.drop_zero, hbytes]
  before p hp := by
    rw [Encoding.width] at hp
    omega
  after := by
    rintro ⟨c, -, hc⟩
    rw [List.drop_eq_nil_of_le (by simp [Encoding.width]), List.prefix_nil] at hc
    cases hc

theorem exists_covers_letters :
    ∃ s ∈ extractStrings (List.replicate 8192 97), s.Covers .ascii (0 + 1 * 8186) 6 := by
  have hrun : IsPrintableRun .ascii (List.replicate 8192 97) 0
      (List.replicate 8186 'a' ++ List.replicate 6 'a' ++ []) := by
    rw [List.append_nil, List.replicate_append_replicate]
    exact isPrintableRun_replicate (by decide)
  have h := exists_covers_iff hrun (by rw [List.length_replicate]; decide)
  rw [List.length_replicate, List.length_replicate] at h
  exact h.mpr (by decide)

/-- The six letters around the first cut are in no extracted string. -/
theorem split_at_cut : ¬∀ (encoding : Encoding) (data : Bytes) (start : ℕ) (u t v : List Char),
    IsPrintableRun encoding data start (u ++ t ++ v) → minStringLength ≤ t.length →
      t.length ≤ maxStringLength → ∃ s ∈ extractStrings data,
        s.Covers encoding (start + encoding.width * u.length) t.length := by
  intro hclaim
  have hrun : IsPrintableRun .ascii (List.replicate 8198 97) 0
      (List.replicate 8190 'a' ++ List.replicate 6 'a' ++ List.replicate 2 'a') := by
    rw [List.replicate_append_replicate, List.replicate_append_replicate]
    exact isPrintableRun_replicate (by decide)
  have hmin : minStringLength ≤ (List.replicate 6 'a').length := by
    rw [List.length_replicate]
    decide
  obtain ⟨s, hs, hcovers⟩ := hclaim _ _ _ _ _ _ hrun hmin
    (by rw [List.length_replicate]; decide)
  have hfits := fits_of_covers hrun hmin hs hcovers
  rw [List.length_replicate, List.length_replicate] at hfits
  exact absurd hfits (by decide)

end BareAnalysis
