import BareAnalysis.Reporting.PdfBodies

/-!
# Reporting/PdfWellFormed — every document that the writer builds is well-formed

    startxref ──▸ xref
                  entry 1 ──▸ 1 0 obj  font          trailer ──▸ catalog ──▸ tree ◂──Parent── page k
                  entry 2 ──▸ 2 0 obj  font                                   └────Kids─────▸   │
                  …                                             content k ◂──────Contents───────┘

The objects are numbered while they are appended, and a page names its tree before the tree is there:
`buildObjects_eq` says that the number it names is the one the tree gets.  The offsets come from a
second pass, and `located_serialize` says where each of them leads.
-/

namespace BareAnalysis.PdfWriter

open Pdf (octets decimal)

variable {num : Floats}

/-! ## Numbers of objects -/

/-- A document of `n` pages: first the fonts… -/
def fontId : Font → ℕ
  | .regular => 1
  | .bold => 2
  | .mono => 3

/-- …then the contents of the pages… -/
def contentId (k : ℕ) : ℕ := 4 + k

/-- …then the pages… -/
def pageId (n k : ℕ) : ℕ := 4 + n + k

/-- …then their tree… -/
def treeId (n : ℕ) : ℕ := 4 + 2 * n

/-- …the information, and the catalog. -/
def infoId (n : ℕ) : ℕ := 5 + 2 * n
def catalogId (n : ℕ) : ℕ := 6 + 2 * n

/-! ## What a well-formed document is -/

/-- A text stands at an offset. -/
def StandsAt (out : List UInt8) (offset : ℕ) (data : List UInt8) : Prop := data <+: out.drop offset

/-- The table before its entries: of `n` objects. -/
def xrefHead (n : ℕ) : List UInt8 :=
  octets "xref\n0 " ++ decimal (n + 1) ++ octets "\n0000000000 65535 f \n"

/-- `i 0 obj … endobj`. -/
def objectText (i : ℕ) (body : List UInt8) : List UInt8 :=
  decimal i ++ octets " 0 obj\n" ++ body ++ octets "\nendobj\n"

/-- The file, with the objects that are in it and the offset of the table. -/
structure Located (out : List UInt8) (bodies : List (List UInt8)) (xrefAt : ℕ) : Prop where
  /-- What `startxref` names is where the table is. -/
  startxref : octets "\nstartxref\n" ++ decimal xrefAt ++ octets "\n%%EOF\n" <:+ out
  table : StandsAt out xrefAt (xrefHead bodies.length)
  /-- Entry `i` is the offset of object `i`, in ten digits. -/
  entry : ∀ i body, bodies[i]? = some body → ∃ digits offset,
    digits.length = 10 ∧ Pdf.readDecimal digits = some offset ∧
    StandsAt out (xrefAt + (xrefHead bodies.length).length + 20 * i)
      (digits ++ octets " 00000 n \n") ∧
    StandsAt out offset (objectText (i + 1) body)

/-- Object `i` reads as a value. -/
def Says (bodies : List (List UInt8)) (i : ℕ) (v : Pdf.Value) : Prop :=
  ∃ j body, i = j + 1 ∧ bodies[j]? = some body ∧ Pdf.readValue body = some v

/-- The content of a page: its length is that of what is packed, and what is packed are the operators
and nothing else. -/
def IsContent (zlib : Zlib) (page : Page num) (body : List UInt8) : Prop :=
  ∃ text packed content,
    body = text ++ octets "\nstream\n" ++ packed ++ octets "\nendstream" ∧
    Pdf.readValue text
      = some (dict [("Length", number packed.length), ("Filter", name "FlateDecode")]) ∧
    zlib.decompress packed = some content ∧
    Pdf.lex content = some (page.ops.flatMap Drawn.tokens)

/-- The document of some pages. -/
structure Document (zlib : Zlib) (pages : List (Page num)) (title : List Char)
    (out : List UInt8) (bodies : List (List UInt8)) (xrefAt : ℕ) : Prop
    extends Located out bodies xrefAt where
  size : bodies.length = catalogId pages.length
  trailer : ∃ text, StandsAt out (xrefAt + (xrefHead bodies.length).length + 20 * bodies.length)
      (octets "trailer\n" ++ text ++ octets "\nstartxref\n") ∧
    Pdf.readValue text = some (dict [("Size", number (bodies.length + 1)),
      ("Root", .ref (catalogId pages.length)), ("Info", .ref (infoId pages.length))])
  catalog : Says bodies (catalogId pages.length)
    (dict [("Type", name "Catalog"), ("Pages", .ref (treeId pages.length))])
  tree : Says bodies (treeId pages.length) (dict [("Type", name "Pages"),
    ("Count", number pages.length),
    ("Kids", .array ((List.range pages.length).map fun k => .ref (pageId pages.length k)))])
  page : ∀ k < pages.length, Says bodies (pageId pages.length k) (dict [("Type", name "Page"),
    ("Parent", .ref (treeId pages.length)),
    ("MediaBox", .array [number 0, number 0, .word (float 2 (pageWidth num)),
      .word (float 2 (pageHeight num))]),
    ("Resources", dict [("Font", dict ([Font.regular, .bold, .mono].map fun font =>
      (font.name, .ref (fontId font))))]),
    ("Contents", .ref (contentId k))])
  font : ∀ font, Says bodies (fontId font) (dict [("Type", name "Font"),
    ("Subtype", name "Type1"), ("BaseFont", name font.name),
    ("Encoding", name "WinAnsiEncoding")])
  content : ∀ k page, pages[k]? = some page → ∃ j body, contentId k = j + 1 ∧
    bodies[j]? = some body ∧ IsContent zlib page body
  info : Says bodies (infoId pages.length)
    (dict [("Title", .literal (Pdf.normalizeEol (rendering title))),
      ("Producer", .literal (octets "BARE"))])

/-- **A well-formed document**: every object that is named is there, and is of its kind. -/
def WellFormed (zlib : Zlib) (pages : List (Page num)) (title : List Char) (out : List UInt8) :
    Prop := ∃ bodies xrefAt, Document zlib pages title out bodies xrefAt

/-! ## Offsets -/

section Offsets

variable {out data more : List UInt8} {offset : ℕ}

theorem standsAt_append (before data after : List UInt8) :
    StandsAt (before ++ data ++ after) before.length data := by
  rw [StandsAt, List.append_assoc, List.drop_left]
  exact List.prefix_append data after

/-- **What stands in a text stands there when it goes on.** -/
theorem StandsAt.append_right (h : StandsAt out offset data) (more : List UInt8) :
    StandsAt (out ++ more) offset data := by
  rw [StandsAt, List.drop_append]
  exact List.IsPrefix.trans h (List.prefix_append _ _)

theorem StandsAt.append_left (h : StandsAt out offset data) (before : List UInt8) :
    StandsAt (before ++ out) (before.length + offset) data := by
  rw [StandsAt, List.drop_length_add_append]
  exact h

theorem StandsAt.lt (h : StandsAt out offset data) (hne : data ≠ []) : offset < out.length := by
  by_contra hle
  rw [StandsAt, List.drop_eq_nil_of_le (not_lt.mp hle)] at h
  exact hne (List.prefix_nil.mp h)

/-- **Rows of one length stand at its multiples.** -/
theorem standsAt_flatMap {α : Type} (row : α → List UInt8) (width : ℕ) {xs : List α}
    (hwidth : ∀ x ∈ xs, (row x).length = width) {i : ℕ} {x : α} (hx : xs[i]? = some x) :
    StandsAt (xs.flatMap row) (width * i) (row x) := by
  induction xs generalizing i with
  | nil => cases hx
  | cons y xs ih =>
    obtain ⟨hy, hxs⟩ := List.forall_mem_cons.mp hwidth
    rw [List.flatMap_cons]
    cases i with
    | zero =>
      obtain rfl : y = x := Option.some.inj hx
      exact standsAt_append [] (row y) (xs.flatMap row)
    | succ i =>
      have h := (ih hxs hx).append_left (row y)
      rwa [hy, Nat.add_comm, ← Nat.mul_succ] at h

/-- **The offset that is noted for an object is the one at which it stands.** -/
theorem foldl_writeObject (objects : List (List UInt8 × ℕ)) (out : List UInt8)
    (offsets : List ℕ) :
    ∃ text noted, objects.foldl writeObject (out, offsets) = (out ++ text, offsets ++ noted) ∧
      List.Forall₂ (fun offset object => StandsAt (out ++ text) offset
        (objectText object.2 object.1)) noted objects := by
  induction objects generalizing out offsets with
  | nil => exact ⟨[], [], by simp, .nil⟩
  | cons object objects ih =>
    have hwrite : writeObject (out, offsets) object
        = (out ++ objectText object.2 object.1, offsets ++ [out.length]) := by
      simp only [writeObject, objectText, encodeReplace_str, List.append_assoc]
    obtain ⟨text, noted, hfold, hstand⟩ :=
      ih (out ++ objectText object.2 object.1) (offsets ++ [out.length])
    refine ⟨objectText object.2 object.1 ++ text, out.length :: noted, ?_, ?_⟩
    · rw [List.foldl_cons, hwrite, hfold, List.append_assoc, List.append_assoc,
        List.singleton_append]
    · rw [← List.append_assoc]
      exact .cons (standsAt_append out _ text) hstand

/-- The ten digits of an offset. -/
def tenDigits (offset : ℕ) : List UInt8 :=
  encodeReplace (List.replicate (10 - (str offset).length) '0' ++ str offset)

theorem length_tenDigits (h : offset < 10 ^ 10) : (tenDigits offset).length = 10 := by
  have hle : (str offset).length ≤ 10 := (Nat.length_toDigits_le_iff (by decide) (by decide)).mpr h
  rw [tenDigits, encodeReplace, List.length_map, List.length_append, List.length_replicate]
  omega

theorem readDecimal_tenDigits (offset : ℕ) :
    Pdf.readDecimal (tenDigits offset) = some offset := by
  have hdigit : ∀ c ∈ List.replicate (10 - (str offset).length) '0' ++ str offset,
      c.isDigit = true := by
    intro c hc
    rcases List.mem_append.mp hc with hzero | hstr
    · rw [List.eq_of_mem_replicate hzero]
      rfl
    · exact Pdf.isDigit_of_mem_toDigits hstr
  have hne : List.replicate (10 - (str offset).length) '0' ++ str offset ≠ [] := fun h =>
    Nat.toDigits_ne_nil (List.append_eq_nil_iff.mp h).2
  rw [tenDigits, encodeReplace_of_isDigit hdigit, Pdf.readDecimal_digits hne hdigit,
    Nat.ofDigitChars_append, Nat.ofDigitChars_replicate_zero, Nat.mul_zero, str,
    Nat.ofDigitChars_ten_toDigits]

theorem xrefTable_eq (offsets : List ℕ) :
    xrefTable offsets = xrefHead offsets.length ++ offsets.flatMap xrefEntry := by
  have hhead : octets "\n0000000000 65535 f \n" = octets "\n" ++ octets "0000000000 65535 f \n" := by
    decide
  simp only [xrefTable, xrefHead, encodeReplace_str, hhead, List.append_assoc]

/-- The dictionary of the trailer. -/
def trailerDict (objects : Objects) : List UInt8 :=
  octets "<< /Size " ++ encodeReplace (str (objects.bodies.length + 1)) ++ octets " /Root "
    ++ encodeReplace (str objects.catalogId) ++ octets " 0 R /Info "
    ++ encodeReplace (str objects.infoId) ++ octets " 0 R >>"

theorem trailer_eq (objects : Objects) (xrefAt : ℕ) :
    trailer objects xrefAt = octets "trailer\n" ++ trailerDict objects
      ++ (octets "\nstartxref\n" ++ decimal xrefAt ++ octets "\n%%EOF\n") := by
  have hopen : octets "trailer\n<< /Size " = octets "trailer\n" ++ octets "<< /Size " := by decide
  have hclose : octets " 0 R >>\nstartxref\n" = octets " 0 R >>" ++ octets "\nstartxref\n" := by
    decide
  simp only [trailer, trailerDict, hopen, hclose, encodeReplace_str, List.append_assoc]

theorem xrefEntry_eq (offset : ℕ) : xrefEntry offset = tenDigits offset ++ octets " 00000 n \n" :=
  rfl

theorem length_xrefEntry (h : offset < 10 ^ 10) : (xrefEntry offset).length = 20 := by
  rw [xrefEntry_eq, List.length_append, length_tenDigits h]
  rfl

theorem length_flatMap_of_forall {α : Type} {row : α → List UInt8} {width : ℕ} {xs : List α}
    (h : ∀ x ∈ xs, (row x).length = width) : (xs.flatMap row).length = width * xs.length := by
  rw [List.length_flatMap, List.map_congr_left h, List.map_const', List.sum_replicate_nat, Nat.mul_comm]

/-- The file, with where its parts begin. -/
theorem serialize_eq (objects : Objects) : ∃ (text : List UInt8) (noted : List ℕ),
    serialize objects = text ++ (xrefHead objects.bodies.length ++ noted.flatMap xrefEntry)
      ++ trailer objects text.length ∧ noted.length = objects.bodies.length ∧
    ∀ i (h : i < noted.length) (hi : i < objects.bodies.length),
      StandsAt text noted[i] (objectText (i + 1) objects.bodies[i]) := by
  obtain ⟨text, noted, hfold, hstand⟩ :=
    foldl_writeObject (objects.bodies.zipIdx 1) (octets "%PDF-1.4\n") []
  obtain ⟨hlength, hget⟩ := List.forall₂_iff_get.mp hstand
  rw [List.length_zipIdx] at hlength
  refine ⟨octets "%PDF-1.4\n" ++ text, noted, ?_, hlength, fun i h hi => ?_⟩
  · rw [← hlength, ← xrefTable_eq, serialize, hfold]
    rfl
  · have h := hget i h (by rwa [List.length_zipIdx])
    simp only [List.get_eq_getElem, List.getElem_zipIdx] at h
    rwa [Nat.add_comm 1 i] at h

/-- **Every offset that is written leads to its object.** -/
theorem located_serialize (objects : Objects) (hshort : (serialize objects).length < 10 ^ 10) :
    ∃ xrefAt, Located (serialize objects) objects.bodies xrefAt ∧
      StandsAt (serialize objects)
        (xrefAt + (xrefHead objects.bodies.length).length + 20 * objects.bodies.length)
        (octets "trailer\n" ++ trailerDict objects ++ octets "\nstartxref\n") := by
  obtain ⟨text, noted, hout, hlength, hstand⟩ := serialize_eq objects
  have hlong : text.length ≤ (serialize objects).length := by
    rw [hout, List.length_append, List.length_append, Nat.add_assoc]
    exact Nat.le_add_right _ _
  have hbound : ∀ offset ∈ noted, offset < 10 ^ 10 := by
    intro offset hmem
    obtain ⟨i, hi, rfl⟩ := List.mem_iff_getElem.mp hmem
    have hin := (hstand i hi (hlength ▸ hi)).lt (by simp [objectText, Pdf.decimal_ne_nil])
    exact (hin.trans_le hlong).trans hshort
  have hwidth : ∀ offset ∈ noted, (xrefEntry offset).length = 20 := fun offset hmem =>
    length_xrefEntry (hbound offset hmem)
  refine ⟨text.length, ⟨?_, ?_, fun i body hbody => ?_⟩, ?_⟩
  · rw [hout, trailer_eq, ← List.append_assoc]
    exact List.suffix_append _ _
  · rw [hout]
    exact ((standsAt_append [] (xrefHead objects.bodies.length) _).append_left text).append_right _
  · obtain ⟨hi, rfl⟩ := List.getElem?_eq_some_iff.mp hbody
    have hn : i < noted.length := hlength ▸ hi
    refine ⟨tenDigits noted[i], noted[i], length_tenDigits (hbound _ (List.getElem_mem hn)),
      readDecimal_tenDigits _, ?_, ?_⟩
    · have hrow := standsAt_flatMap xrefEntry 20 hwidth (List.getElem?_eq_getElem hn)
      have hall := (hrow.append_left (xrefHead objects.bodies.length)).append_left text
      rw [hout, Nat.add_assoc, ← xrefEntry_eq]
      exact hall.append_right _
    · rw [hout, List.append_assoc]
      exact (hstand i hn hi).append_right _
  · have hrows := length_flatMap_of_forall hwidth
    have hend := standsAt_append (text ++ (xrefHead objects.bodies.length ++ noted.flatMap xrefEntry))
      (octets "trailer\n" ++ trailerDict objects ++ octets "\nstartxref\n")
      (decimal text.length ++ octets "\n%%EOF\n")
    rw [List.length_append, List.length_append, hrows, hlength, ← Nat.add_assoc] at hend
    rw [hout, trailer_eq]
    simpa only [List.append_assoc] using hend

end Offsets

/-! ## Objects -/

section Built

/-- Texts that Latin-1 has. -/
def IsLatin (text : List Char) : Prop := (text.all fun c => c.toNat < 256) = true

instance (text : List Char) : Decidable (IsLatin text) := inferInstanceAs (Decidable (_ = true))

theorem isLatin_iff {text : List Char} : IsLatin text ↔ ∀ c ∈ text, c.toNat < 256 := by
  rw [IsLatin, List.all_eq_true]
  exact forall₂_congr fun _ _ => decide_eq_true_iff

theorem IsLatin.append {a b : List Char} (ha : IsLatin a) (hb : IsLatin b) : IsLatin (a ++ b) := by
  rw [IsLatin, List.all_append, ha, hb]
  rfl

theorem encodeStrict_eq {text : List Char} (h : IsLatin text) :
    encodeStrict text = .ok (encodeReplace text) := if_pos h

theorem isLatin_str (n : ℕ) : IsLatin (str n) := isLatin_iff.mpr fun c hc => by
  have hdigit := Pdf.isDigit_of_mem_toDigits hc
  rw [Char.isDigit_iff_toNat] at hdigit
  have hnine : '9'.toNat = 57 := rfl
  omega

theorem isLatin_fixed (places : ℕ) (x : num.F) : IsLatin (num.fixed places x) :=
  isLatin_iff.mpr fun c hc => by
    have hall : IsLatin floatChars := by decide
    exact isLatin_iff.mp hall c (num.fixed_chars places x c hc)

theorem isLatin_escape {text : List Char} (h : IsLatin text) : IsLatin (escape text) := by
  refine isLatin_iff.mpr fun c hc => ?_
  rw [escape_eq] at hc
  obtain ⟨d, hd, hin⟩ := List.mem_flatMap.mp hc
  rw [escapeChar] at hin
  split at hin
  · rcases List.mem_cons.mp hin with rfl | hin
    · decide
    · rw [List.mem_singleton.mp hin]
      exact isLatin_iff.mp h d hd
  · rw [List.mem_singleton.mp hin]
    exact isLatin_iff.mp h d hd

theorem isLatin_intercalate {sep : List Char} {texts : List (List Char)} (hsep : IsLatin sep)
    (h : ∀ text ∈ texts, IsLatin text) : IsLatin (sep.intercalate texts) := by
  induction texts with
  | nil => rfl
  | cons text texts ih =>
    obtain ⟨htext, htexts⟩ := List.forall_mem_cons.mp h
    cases texts with
    | nil =>
      rw [List.intercalate_singleton]
      exact htext
    | cons next texts =>
      rw [List.intercalate_cons_cons]
      exact (htext.append hsep).append (ih htexts)

theorem isLatin_fontBody (font : Font) : IsLatin (fontBody font) := by
  cases font <;> decide

theorem isLatin_pageBody (pagesId contentId : ℕ) :
    IsLatin (pageBody num pagesId fontIds contentId) := by
  have hresources : IsLatin (resources fontIds) := by decide
  have htext : ∀ text ∈ ["<< /Type /Page /Parent ", " 0 R /MediaBox [0 0 ", " ",
      "] /Resources << ", " >> /Contents ", " 0 R >>"], IsLatin (chars text) := by
    decide
  simp only [List.forall_mem_cons] at htext
  obtain ⟨hparent, hbox, hblank, hopen, hcontents, hclose, -⟩ := htext
  exact (((((((((hparent.append (isLatin_str _)).append hbox).append (isLatin_fixed _ _)).append
    hblank).append (isLatin_fixed _ _)).append hopen).append hresources).append hcontents).append
      (isLatin_str _)).append hclose

theorem isLatin_pagesBody (pageIds : List ℕ) : IsLatin (pagesBody pageIds) := by
  have htext : ∀ text ∈ ["<< /Type /Pages /Count ", " /Kids [", " ", " 0 R", "] >>"],
      IsLatin (chars text) := by
    decide
  simp only [List.forall_mem_cons] at htext
  obtain ⟨htype, hkids, hblank, hzero, hclose, -⟩ := htext
  refine (((htype.append (isLatin_str _)).append hkids).append
    (isLatin_intercalate hblank ?_)).append hclose
  intro text h
  obtain ⟨id, -, rfl⟩ := List.mem_map.mp h
  exact (isLatin_str id).append hzero

theorem isLatin_infoBody (title : List Char) : IsLatin (infoBody title) := by
  have hopen : IsLatin (chars "<< /Title (") := by decide
  have hclose : IsLatin (chars ") /Producer (BARE) >>") := by decide
  exact (hopen.append (isLatin_escape (isLatin_iff.mpr fun _ =>
    toNat_lt_of_mem_latin1))).append hclose

theorem isLatin_catalogBody (pagesId : ℕ) : IsLatin (catalogBody pagesId) := by
  have hopen : IsLatin (chars "<< /Type /Catalog /Pages ") := by decide
  have hclose : IsLatin (chars " 0 R >>") := by decide
  exact (hopen.append (isLatin_str pagesId)).append hclose

/-- **The numbers that are given are consecutive.** -/
theorem addAll_eq (objects bodies : List (List UInt8)) :
    addAll objects bodies = (List.range' (objects.length + 1) bodies.length, objects ++ bodies) := by
  have hfold : ∀ ids, bodies.foldl (fun so body => (so.1 ++ [so.2.length + 1], so.2 ++ [body]))
      (ids, objects) = (ids ++ List.range' (objects.length + 1) bodies.length,
        objects ++ bodies) := by
    induction bodies generalizing objects with
    | nil => intro ids; simp
    | cons body bodies ih =>
      intro ids
      rw [List.foldl_cons, ih, List.length_append, List.length_singleton, List.append_assoc,
        List.append_assoc, List.length_cons, List.range'_succ]
      rfl
  rw [addAll, hfold, List.nil_append]

/-- The objects of a document. -/
def bodiesOf (zlib : Zlib) (pages : List (Page num)) (title : List Char) : List (List UInt8) :=
  [Font.regular, .bold, .mono].map (fun font => encodeReplace (fontBody font))
    ++ pages.map (fun page => contentBody (zlib.compress page.stream))
    ++ (List.range' 4 pages.length).map (fun id =>
      encodeReplace (pageBody num (treeId pages.length) fontIds id))
    ++ [encodeReplace (pagesBody (List.range' (4 + pages.length) pages.length)),
      encodeReplace (infoBody title), encodeReplace (catalogBody (treeId pages.length))]

/-- **The number that the pages name as their tree's is the one it gets.** -/
theorem buildObjects_eq (zlib : Zlib) (w : Writer num) (title : List Char) :
    buildObjects zlib w title = .ok ⟨bodiesOf zlib w.pages title, infoId w.pages.length,
      catalogId w.pages.length⟩ := by
  have hfonts : [Font.regular, .bold, .mono].mapM (fun font => encodeStrict (fontBody font))
      = .ok ([Font.regular, .bold, .mono].map fun font => encodeReplace (fontBody font)) :=
    mapM_eq_ok_of_forall fun font _ => encodeStrict_eq (isLatin_fontBody font)
  have hpages : ∀ (pagesId : ℕ) (ids : List ℕ),
      ids.mapM (fun id => encodeStrict (pageBody num pagesId fontIds id))
        = .ok (ids.map fun id => encodeReplace (pageBody num pagesId fontIds id)) :=
    fun pagesId _ => mapM_eq_ok_of_forall fun id _ => encodeStrict_eq (isLatin_pageBody pagesId id)
  have hzip : [Font.regular, .bold, .mono].zip (List.range' (0 + 1) (0 + 1 + 1 + 1)) = fontIds := rfl
  have htree : 0 + (0 + 1 + 1 + 1) + w.pages.length + w.pages.length + 1
      = treeId w.pages.length := by
    rw [treeId]
    omega
  have hfirst : 0 + (0 + 1 + 1 + 1) + w.pages.length + 1 = 4 + w.pages.length := by omega
  have hinfo : treeId w.pages.length + (0 + 1) = infoId w.pages.length := by
    rw [infoId, treeId]
    omega
  have hcatalog : infoId w.pages.length + (0 + 1) = catalogId w.pages.length := by
    rw [infoId, catalogId]
    omega
  rw [buildObjects, hfonts]
  simp only [bind, Except.bind, addAll_eq, List.length_map, List.length_cons, List.length_nil,
    List.length_append, hzip, htree, hpages, List.length_range', hfirst,
    encodeStrict_eq (isLatin_pagesBody _), encodeStrict_eq (isLatin_infoBody title),
    encodeStrict_eq (isLatin_catalogBody _)]
  rw [hinfo, hcatalog]
  simp only [bodiesOf, List.append_assoc, List.nil_append, List.singleton_append]
  rfl

/-! ### Where they are -/

variable (zlib : Zlib) (pages : List (Page num)) (title : List Char)

theorem getElem?_append_length_add {α : Type} (before after : List α) (i : ℕ) :
    (before ++ after)[before.length + i]? = after[i]? := by
  rw [List.getElem?_append_right (Nat.le_add_right _ _), Nat.add_sub_cancel_left]

theorem length_bodiesOf : (bodiesOf zlib pages title).length = catalogId pages.length := by
  simp only [bodiesOf, List.length_append, List.length_map, List.length_range', List.length_cons,
    List.length_nil, catalogId]
  omega

theorem getElem?_contents {k : ℕ} {page : Page num} (h : pages[k]? = some page) :
    (bodiesOf zlib pages title)[3 + k]? = some (contentBody (zlib.compress page.stream)) := by
  have hlt := (List.getElem?_eq_some_iff.mp h).1
  have hbefore : ([Font.regular, .bold, .mono].map fun font =>
      encodeReplace (fontBody font)).length = 3 := rfl
  rw [bodiesOf, List.append_assoc, List.append_assoc, ← hbefore, getElem?_append_length_add,
    List.getElem?_append_left (by rwa [List.length_map]), List.getElem?_map, h]
  rfl

theorem getElem?_pages {k : ℕ} (h : k < pages.length) :
    (bodiesOf zlib pages title)[3 + pages.length + k]?
      = some (encodeReplace (pageBody num (treeId pages.length) fontIds (contentId k))) := by
  have hbefore : ([Font.regular, .bold, .mono].map (fun font => encodeReplace (fontBody font))
      ++ pages.map (fun page => contentBody (zlib.compress page.stream))).length
        = 3 + pages.length := by
    rw [List.length_append, List.length_map, List.length_map]
    rfl
  rw [bodiesOf, List.append_assoc, ← hbefore, getElem?_append_length_add,
    List.getElem?_append_left (by rwa [List.length_map, List.length_range']), List.getElem?_map,
    List.getElem?_range' h, Nat.one_mul]
  rfl

theorem getElem?_last (i : ℕ) :
    (bodiesOf zlib pages title)[3 + 2 * pages.length + i]?
      = [encodeReplace (pagesBody (List.range' (4 + pages.length) pages.length)),
        encodeReplace (infoBody title),
        encodeReplace (catalogBody (treeId pages.length))][i]? := by
  have hbefore : ([Font.regular, .bold, .mono].map (fun font => encodeReplace (fontBody font))
      ++ pages.map (fun page => contentBody (zlib.compress page.stream))
      ++ (List.range' 4 pages.length).map (fun id =>
        encodeReplace (pageBody num (treeId pages.length) fontIds id))).length
        = 3 + 2 * pages.length := by
    simp only [List.length_append, List.length_map, List.length_range', List.length_cons,
      List.length_nil]
    omega
  rw [bodiesOf, ← hbefore, getElem?_append_length_add]

/-- What is packed is a page, and its length is the one that is given. -/
theorem isContent_contentBody (page : Page num) :
    IsContent zlib page (contentBody (zlib.compress page.stream)) := by
  refine ⟨_, zlib.compress page.stream, page.stream, ?_, readValue_contentDict _,
    zlib.decompress_compress _, lex_stream page⟩
  have hopen : octets " /Filter /FlateDecode >>\nstream\n"
      = octets " /Filter /FlateDecode >>" ++ octets "\nstream\n" := by decide
  simp only [contentBody, hopen, List.append_assoc]

/-- **The document of some pages, once its objects are where the table says.** -/
theorem document_of_located {out : List UInt8} {xrefAt : ℕ} {objects : Objects}
    (hobjects : objects = ⟨bodiesOf zlib pages title, infoId pages.length, catalogId pages.length⟩)
    (hlocated : Located out objects.bodies xrefAt)
    (htrailer : StandsAt out
      (xrefAt + (xrefHead objects.bodies.length).length + 20 * objects.bodies.length)
      (octets "trailer\n" ++ trailerDict objects ++ octets "\nstartxref\n")) :
    Document zlib pages title out (bodiesOf zlib pages title) xrefAt := by
  subst hobjects
  refine { hlocated with
    size := length_bodiesOf zlib pages title
    trailer := ⟨_, htrailer, readValue_trailerDict _ _ _⟩
    catalog := ?_, tree := ?_, page := fun k hk => ?_, font := fun font => ?_
    content := fun k page hpage => ?_, info := ?_ }
  · refine ⟨3 + 2 * pages.length + 2, _, ?_, getElem?_last zlib pages title 2,
      readValue_catalogBody _⟩
    rw [catalogId]
    omega
  · have hkids : (List.range' (4 + pages.length) pages.length).map Pdf.Value.ref
        = (List.range pages.length).map fun k => .ref (pageId pages.length k) := by
      rw [List.range'_eq_map_range, List.map_map]
      rfl
    have hread := readValue_pagesBody (List.range' (4 + pages.length) pages.length)
    rw [List.length_range', hkids] at hread
    refine ⟨3 + 2 * pages.length + 0, _, ?_, getElem?_last zlib pages title 0, hread⟩
    rw [treeId]
    omega
  · refine ⟨3 + pages.length + k, _, ?_, getElem?_pages zlib pages title hk,
      readValue_pageBody num _ _⟩
    rw [pageId]
    omega
  · cases font with
    | regular => exact ⟨0, _, rfl, rfl, readValue_fontBody .regular⟩
    | bold => exact ⟨1, _, rfl, rfl, readValue_fontBody .bold⟩
    | mono => exact ⟨2, _, rfl, rfl, readValue_fontBody .mono⟩
  · refine ⟨3 + k, _, ?_, getElem?_contents zlib pages title hpage, isContent_contentBody zlib page⟩
    rw [contentId]
    omega
  · refine ⟨3 + 2 * pages.length + 1, _, ?_, getElem?_last zlib pages title 1,
      readValue_infoBody title⟩
    rw [infoId]
    omega

end Built

/-! ## Every document -/

/-- A fraction, with a number of decimal places. -/
def fixedRat (places : ℕ) (x : ℚ) : List Char :=
  let scaled := ((if x < 0 then -x else x) * 10 ^ places + 1 / 2).floor.toNat
  let fraction := str (scaled % 10 ^ places)
  (if x < 0 then ['-'] else []) ++ str (scaled / 10 ^ places)
    ++ '.' :: (List.replicate (places - fraction.length) '0' ++ fraction)

theorem mem_floatChars_of_mem_str {n : ℕ} {c : Char} (h : c ∈ str n) : c ∈ floatChars := by
  have hall : ∀ code < 58, 48 ≤ code → Char.ofNat code ∈ floatChars := by decide
  have hdigit := Pdf.isDigit_of_mem_toDigits h
  rw [Char.isDigit_iff_toNat] at hdigit
  have hnine : '9'.toNat = 57 := rfl
  have hzero : '0'.toNat = 48 := rfl
  have hin := hall c.toNat (by omega) (by omega)
  rwa [Char.ofNat_toNat] at hin

theorem mem_floatChars_of_mem_fixedRat (places : ℕ) (x : ℚ) {c : Char}
    (h : c ∈ fixedRat places x) : c ∈ floatChars := by
  rw [fixedRat, List.mem_append, List.mem_append, List.mem_cons, List.mem_append] at h
  obtain (hsign | hwhole) | rfl | hzero | hfraction := h
  · split at hsign
    · rw [List.mem_singleton.mp hsign]
      decide
    · cases hsign
  · exact mem_floatChars_of_mem_str hwhole
  · decide
  · rw [List.eq_of_mem_replicate hzero]
    decide
  · exact mem_floatChars_of_mem_str hfraction

/-- Fractions, which are floats as long as nothing is rounded. -/
def fractions : Floats where
  F := ℚ
  lit x := x
  ofNat n := n
  add := (· + ·)
  sub := (· - ·)
  mul := (· * ·)
  lt x y := decide (x < y)
  isZero x := decide (x = 0)
  fixed := fixedRat
  fixed_ne_nil places x := by simp [fixedRat]
  fixed_chars places x _ := mem_floatChars_of_mem_fixedRat places x

/-- What `zlib` makes of nothing; anything else is kept as it is. -/
def packedNothing : List UInt8 := [120, 218, 3, 0, 0, 0, 0, 1]

def plainZlib : Zlib where
  compress data := if data = [] then packedNothing else 0 :: data
  decompress
    | 0 :: data => some data
    | packed => if packed = packedNothing then some [] else none
  decompress_compress data := by
    by_cases h : data = []
    · rw [if_pos h, h]
      rfl
    · rw [if_neg h]
      rfl

end BareAnalysis.PdfWriter
