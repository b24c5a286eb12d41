import BareAnalysis.Machinery.Fallible
import BareAnalysis.Reporting.PdfWriter

/-!
# Reporting/PdfBodies — what the writer writes, read back

    BT /Courier 8.50 Tf … (a\)b) Tj ET   ──lex──▸   BT  /Courier  8.50  Tf  …  "a)b"  Tj  ET

One lemma for each body that the writer prints.  A text is written as one literal string, whatever its
characters are, so the tokens of a page are those of its operators.
-/

namespace BareAnalysis.PdfWriter

open Pdf (octets decimal Reads Token)

/-! ## Texts -/

theorem encodeReplace_append (a b : List Char) :
    encodeReplace (a ++ b) = encodeReplace a ++ encodeReplace b := List.map_append

/-- An ASCII text is its bytes. -/
theorem encodeReplace_chars {text : String} (h : ∀ c ∈ chars text, c.toNat < 256) :
    encodeReplace (chars text) = octets text :=
  List.map_congr_left fun c hc => if_pos (h c hc)

theorem encodeReplace_of_isDigit {text : List Char} (h : ∀ c ∈ text, c.isDigit = true) :
    encodeReplace text = text.map fun c => UInt8.ofNat c.toNat := by
  refine List.map_congr_left fun c hc => if_pos ?_
  have hdigit := h c hc
  rw [Char.isDigit_iff_toNat] at hdigit
  have hnine : '9'.toNat = 57 := rfl
  omega

theorem encodeReplace_str (n : ℕ) : encodeReplace (str n) = decimal n :=
  encodeReplace_of_isDigit fun _ hc => Pdf.isDigit_of_mem_toDigits hc

/-- **Escaping is one byte after the other.** -/
theorem replace_singleton (c : Char) (new text : List Char) :
    replace [c] new text = text.flatMap fun d => if d = c then new else [d] := by
  rw [replace, if_neg (List.cons_ne_nil c [])]
  induction text with
  | nil => rfl
  | cons d text ih =>
    rw [replaceFrom, List.flatMap_cons]
    by_cases h : d = c
    · have hprefix : [c] <+: d :: text := ⟨text, by rw [h]; rfl⟩
      rw [if_pos hprefix, if_pos h]
      exact congrArg (new ++ ·) ih
    · have hprefix : ¬[c] <+: d :: text := fun hin =>
        h (List.cons_prefix_cons.mp hin).1.symm
      rw [if_neg hprefix, if_neg h]
      exact congrArg (d :: ·) ih

/-- A character, escaped. -/
def escapeChar (c : Char) : List Char := if c = '\\' ∨ c = '(' ∨ c = ')' then ['\\', c] else [c]

theorem escape_eq (text : List Char) : escape text = text.flatMap escapeChar := by
  rw [escape, replace_singleton, replace_singleton, replace_singleton, List.flatMap_assoc,
    List.flatMap_assoc]
  refine List.flatMap_congr fun c _ => ?_
  rw [escapeChar]
  by_cases hslash : c = '\\'
  · rw [hslash]
    rfl
  by_cases hopen : c = '('
  · rw [hopen]
    rfl
  by_cases hclose : c = ')'
  · rw [hclose]
    rfl
  · rw [if_neg hslash, if_neg (by simp [hslash, hopen, hclose])]
    simp [hopen, hclose]

theorem toNat_lt_of_mem_latin1 {text : List Char} {c : Char} (h : c ∈ latin1 text) :
    c.toNat < 256 := by
  obtain ⟨d, -, rfl⟩ := List.mem_map.mp h
  split
  · assumption
  · decide

theorem encodeReplace_escapeChar {c : Char} (h : c.toNat < 256) :
    encodeReplace (escapeChar c) = Pdf.escapeByte (UInt8.ofNat c.toNat) := by
  have hbyte : ∀ d : Char, d.toNat < 256 →
      (UInt8.ofNat c.toNat = UInt8.ofNat d.toNat ↔ c = d) := by
    intro d hd
    rw [← UInt8.toNat_inj, UInt8.toNat_ofNat', UInt8.toNat_ofNat', Nat.mod_eq_of_lt h,
      Nat.mod_eq_of_lt hd, Char.toNat_inj]
  have hsame : (UInt8.ofNat c.toNat = 92 ∨ UInt8.ofNat c.toNat = 40 ∨ UInt8.ofNat c.toNat = 41) ↔
      (c = '\\' ∨ c = '(' ∨ c = ')') :=
    or_congr (hbyte '\\' (by decide)) (or_congr (hbyte '(' (by decide)) (hbyte ')' (by decide)))
  rw [escapeChar, Pdf.escapeByte]
  by_cases hspecial : c = '\\' ∨ c = '(' ∨ c = ')'
  · rw [if_pos hspecial, if_pos (hsame.mpr hspecial), encodeReplace, List.map_cons,
      List.map_singleton, if_pos h]
    rfl
  · rw [if_neg hspecial, if_neg (mt hsame.mp hspecial), encodeReplace, List.map_singleton,
      if_pos h]

/-- A text, as it is drawn. -/
def rendering (text : List Char) : List UInt8 := encodeReplace (latin1 text)

theorem encodeReplace_escape_latin1 (text : List Char) :
    encodeReplace (escape (latin1 text)) = (rendering text).flatMap Pdf.escapeByte := by
  rw [escape_eq, rendering, encodeReplace, List.map_flatMap, encodeReplace, List.flatMap_map]
  refine List.flatMap_congr fun c hc => ?_
  have hlt := toNat_lt_of_mem_latin1 hc
  rw [if_pos hlt]
  exact encodeReplace_escapeChar hlt

/-- **A drawn text is one literal string**, and reads as its rendering. -/
theorem reads_drawn_text (text : List Char) :
    Reads .between (octets "(" ++ (encodeReplace (escape (latin1 text)) ++ octets ")"))
      [.literal (Pdf.normalizeEol (rendering text))] .between := by
  have hopen : octets "(" = [40] := rfl
  have hclose : octets ")" = [41] := rfl
  rw [encodeReplace_escape_latin1, hopen, hclose, List.singleton_append]
  exact Pdf.reads_literal (rendering text)

/-! ## Operators -/

section Operators

variable {num : Floats} {a : List UInt8} {ts : List Token} {s : Pdf.State}

/-- A float, as it is printed. -/
def float (places : ℕ) (x : num.F) : List UInt8 := encodeReplace (num.fixed places x)

theorem float_ne_nil (places : ℕ) (x : num.F) : float places x ≠ [] := fun h =>
  num.fixed_ne_nil places x (List.map_eq_nil_iff.mp h)

theorem isRegular_of_mem_float {places : ℕ} {x : num.F} {b : UInt8} (h : b ∈ float places x) :
    Pdf.isRegular b = true := by
  obtain ⟨c, hc, rfl⟩ := List.mem_map.mp h
  have hall : (floatChars.all fun c =>
      Pdf.isRegular (if c.toNat < 256 then UInt8.ofNat c.toNat else 63)) = true := by
    decide
  exact List.all_eq_true.mp hall c (num.fixed_chars places x c hc)

theorem float_ne_R (places : ℕ) (x : num.F) : float places x ≠ [82] := fun h => by
  have hmem : (82 : UInt8) ∈ float places x := by rw [h]; exact List.mem_cons_self
  obtain ⟨c, hc, hbyte⟩ := List.mem_map.mp hmem
  have hall : (floatChars.all fun c =>
      (if c.toNat < 256 then UInt8.ofNat c.toNat else 63) != 82) = true := by
    decide
  exact bne_iff_ne.mp (List.all_eq_true.mp hall c (num.fixed_chars places x c hc)) hbyte

theorem reads_float (places : ℕ) (x : num.F) (hbreak : Pdf.Breaks a)
    (hrest : Reads .between a ts s) :
    Reads .between (float places x ++ a) (.word (float places x) :: ts) s :=
  Pdf.reads_word (float_ne_nil places x) (fun _ hb => isRegular_of_mem_float hb) hbreak hrest

/-- The words of a text of words. -/
def words (texts : List String) : List Token := texts.map fun text => .word (octets text)

/-- A colour, as it is read. -/
def Colour.tokens (c : Colour num) : List Token :=
  [.word (float 3 c.r), .word (float 3 c.g), .word (float 3 c.b)]

/-- The tokens of an operator. -/
def Drawn.tokens : Drawn num → List Token
  | .text font size colour x y value =>
    [.word (octets "BT"), .name (octets font.name), .word (float 2 size), .word (octets "Tf")]
      ++ colour.tokens ++ words ["rg", "1", "0", "0", "1"]
      ++ [.word (float 2 x), .word (float 2 y), .word (octets "Tm"),
        .literal (Pdf.normalizeEol (rendering value)), .word (octets "Tj"), .word (octets "ET")]
  | .rule colour width y =>
    colour.tokens ++ [.word (octets "RG"), .word (float 2 width), .word (octets "w"),
      .word (float 2 (margin num)), .word (float 2 y), .word (octets "m"),
      .word (float 2 (num.sub (pageWidth num) (margin num))), .word (float 2 y),
      .word (octets "l"), .word (octets "S")]
  | .box colour x y width height =>
    colour.tokens ++ [.word (octets "rg"), .word (float 2 x), .word (float 2 y),
      .word (float 2 width), .word (float 2 height), .word (octets "re"), .word (octets "f")]

/-- A text that goes on with what is no part of a word. -/
theorem breaks_append {text : String} (h : Pdf.Breaks (encodeReplace (chars text)))
    (rest : List UInt8) : Pdf.Breaks (encodeReplace (chars text) ++ rest) := h.append_right rest

theorem reads_blank (hrest : Reads .between a ts s) :
    Reads .between (encodeReplace (chars " ") ++ a) ts s := by
  have hblank : Reads .between (encodeReplace (chars " ")) [] .between := by decide
  exact hblank.append hrest

theorem reads_float_blank (places : ℕ) (x : num.F) (hrest : Reads .between a ts s) :
    Reads .between (float places x ++ (encodeReplace (chars " ") ++ a))
      (.word (float places x) :: ts) s :=
  reads_float places x (@breaks_append " " (by decide) _) (reads_blank hrest)

theorem reads_colour (c : Colour num) (hbreak : Pdf.Breaks a) (hrest : Reads .between a ts s) :
    Reads .between (encodeReplace c.print ++ a) (c.tokens ++ ts) s := by
  have hb := reads_float 3 c.b hbreak hrest
  have hg := reads_float_blank 3 c.g hb
  have hr := reads_float_blank 3 c.r hg
  simp only [Colour.print, encodeReplace_append, List.append_assoc]
  exact hr

/-- **An operator is read as its tokens.** -/
theorem reads_drawn (op : Drawn num) :
    Reads .between (encodeReplace op.print ++ [10]) op.tokens .between := by
  cases op with
  | text font size colour x y value =>
    have hopen : encodeReplace (chars " Tm (") = encodeReplace (chars " Tm ") ++ octets "(" := by
      decide
    have hclose : encodeReplace (chars ") Tj ET") = octets ")" ++ encodeReplace (chars " Tj ET") := by
      decide
    have hfont : Reads .between (encodeReplace (chars "BT /") ++ (encodeReplace (chars font.name)
        ++ encodeReplace (chars " "))) [.word (octets "BT"), .name (octets font.name)]
        .between := by
      cases font <;> decide
    have htf : Reads .between (encodeReplace (chars " Tf ")) [.word (octets "Tf")] .between := by
      decide
    have hrg : Reads .between (encodeReplace (chars " rg 1 0 0 1 "))
        (words ["rg", "1", "0", "0", "1"]) .between := by decide
    have htm : Reads .between (encodeReplace (chars " Tm ")) [.word (octets "Tm")] .between := by
      decide
    have htj : Reads .between (encodeReplace (chars " Tj ET") ++ [10])
        [.word (octets "Tj"), .word (octets "ET")] .between := by decide
    have hy := reads_float 2 y (@breaks_append " Tm " (by decide) _)
      (htm.append ((reads_drawn_text value).append htj))
    have hx := hrg.append (reads_float_blank 2 x hy)
    have hcolour := htf.append (reads_colour colour (@breaks_append " rg 1 0 0 1 " (by decide) _) hx)
    have hsize := hfont.append (reads_float 2 size (@breaks_append " Tf " (by decide) _) hcolour)
    refine hsize.congr ?_ ?_
    · simp only [Drawn.print, two, float, encodeReplace_append, hopen, hclose, List.append_assoc]
    · simp only [Drawn.tokens, List.cons_append, List.nil_append, List.append_assoc]
  | rule colour width y =>
    have hRG : Reads .between (encodeReplace (chars " RG ")) [.word (octets "RG")] .between := by
      decide
    have hw : Reads .between (encodeReplace (chars " w ")) [.word (octets "w")] .between := by
      decide
    have hm : Reads .between (encodeReplace (chars " m ")) [.word (octets "m")] .between := by
      decide
    have hl : Reads .between (encodeReplace (chars " l S") ++ [10])
        [.word (octets "l"), .word (octets "S")] .between := by decide
    have hto := hm.append (reads_float_blank 2 (num.sub (pageWidth num) (margin num))
      (reads_float 2 y (@breaks_append " l S" (by decide) _) hl))
    have hfrom := hw.append (reads_float_blank 2 (margin num)
      (reads_float 2 y (@breaks_append " m " (by decide) _) hto))
    have hwidth := hRG.append (reads_float 2 width (@breaks_append " w " (by decide) _) hfrom)
    have hcolour := reads_colour colour (@breaks_append " RG " (by decide) _) hwidth
    refine hcolour.congr ?_ ?_
    · simp only [Drawn.print, two, float, encodeReplace_append, List.append_assoc]
    · simp only [Drawn.tokens, List.cons_append, List.nil_append]
  | box colour x y width height =>
    have hrg : Reads .between (encodeReplace (chars " rg ")) [.word (octets "rg")] .between := by
      decide
    have hre : Reads .between (encodeReplace (chars " re f") ++ [10])
        [.word (octets "re"), .word (octets "f")] .between := by decide
    have hheight := reads_float 2 height (@breaks_append " re f" (by decide) _) hre
    have hcorner := hrg.append (reads_float_blank 2 x (reads_float_blank 2 y
      (reads_float_blank 2 width hheight)))
    have hcolour := reads_colour colour (@breaks_append " rg " (by decide) _) hcorner
    refine hcolour.congr ?_ ?_
    · simp only [Drawn.print, two, float, encodeReplace_append, List.append_assoc]
    · simp only [Drawn.tokens, List.cons_append, List.nil_append]

/-- What is joined is joined as it is written. -/
theorem encodeReplace_join (sep : List Char) (texts : List (List Char)) :
    encodeReplace (sep.intercalate texts)
      = (encodeReplace sep).intercalate (texts.map encodeReplace) := by
  induction texts with
  | nil => rfl
  | cons text texts ih =>
    cases texts with
    | nil => rw [List.intercalate_singleton, List.map_singleton, List.intercalate_singleton]
    | cons next texts =>
      rw [List.intercalate_cons_cons, encodeReplace_append, encodeReplace_append, ih]
      exact (List.intercalate_cons_cons).symm

/-- Lines that are joined, with a line end after the last. -/
theorem encodeReplace_intercalate {lines : List (List Char)} (hne : lines ≠ []) :
    encodeReplace (['\n'].intercalate lines) ++ [10]
      = lines.flatMap fun line => encodeReplace line ++ [10] := by
  induction lines with
  | nil => exact absurd rfl hne
  | cons line lines ih =>
    cases lines with
    | nil => rw [List.intercalate_singleton, List.flatMap_singleton]
    | cons next lines =>
      have hfeed : encodeReplace ['\n'] = [10] := rfl
      rw [List.intercalate_cons_cons, encodeReplace_append, encodeReplace_append, hfeed,
        List.append_assoc (encodeReplace line ++ [10]), ih (List.cons_ne_nil _ _),
        @List.flatMap_cons _ _ line]

/-- **A page's stream is read as the tokens of its operators**, one after the other. -/
theorem lex_stream (page : Page num) : Pdf.lex page.stream = some (page.ops.flatMap Drawn.tokens) := by
  have hlines : ∀ ops : List (Drawn num),
      Reads .between (ops.flatMap fun op => encodeReplace op.print ++ [10])
        (ops.flatMap Drawn.tokens) .between := by
    intro ops
    induction ops with
    | nil => rfl
    | cons op ops ih => exact (reads_drawn op).append ih
  by_cases hnone : page.ops = []
  · rw [Page.stream, hnone]
    rfl
  · refine Pdf.lex_of_reads_feed ?_
    rw [Page.stream, encodeReplace_intercalate (mt List.map_eq_nil_iff.mp hnone), List.flatMap_map]
    exact hlines page.ops

end Operators

/-! ## Objects -/

section Bodies

/-- A dictionary, with its keys as texts. -/
def dict (entries : List (String × Pdf.Value)) : Pdf.Value :=
  .dict (entries.map fun entry => (octets entry.1, entry.2))

/-- A name, and a number. -/
def name (text : String) : Pdf.Value := .name (octets text)
def number (n : ℕ) : Pdf.Value := .word (decimal n)

/-- The tokens of a name, and of a key and a name. -/
def nameToken (text : String) : Token := .name (octets text)

theorem readValue_of_lex {data : List UInt8} {ts : List Token} {v : Pdf.Value}
    (hlex : Reads .between data ts .between) (hparse : Pdf.parse ts = some v) :
    Pdf.readValue data = some v := by
  rw [Pdf.readValue, hlex.lex]
  exact hparse

/-- A font is what it says. -/
theorem readValue_fontBody (font : Font) :
    Pdf.readValue (encodeReplace (fontBody font)) = some (dict [("Type", name "Font"),
      ("Subtype", name "Type1"), ("BaseFont", name font.name),
      ("Encoding", name "WinAnsiEncoding")]) := by
  have hlex : Reads .between (encodeReplace (fontBody font)) [.dictOpen, nameToken "Type",
      nameToken "Font", nameToken "Subtype", nameToken "Type1", nameToken "BaseFont",
      nameToken font.name, nameToken "Encoding", nameToken "WinAnsiEncoding", .dictClose]
      .between := by
    cases font <;> decide
  exact readValue_of_lex hlex rfl

/-- The catalog names the page tree. -/
theorem readValue_catalogBody (pagesId : ℕ) :
    Pdf.readValue (encodeReplace (catalogBody pagesId))
      = some (dict [("Type", name "Catalog"), ("Pages", .ref pagesId)]) := by
  have hopen : Reads .between (encodeReplace (chars "<< /Type /Catalog /Pages "))
      [.dictOpen, nameToken "Type", nameToken "Catalog", nameToken "Pages"] .between := by
    decide
  have hclose : Reads .between (encodeReplace (chars " >>")) [.dictClose] .between := by
    decide
  have href := hopen.append (Pdf.reads_ref pagesId (@breaks_append " >>" (by decide) _)
    (hclose.append (rfl : Reads .between [] [] .between)))
  refine readValue_of_lex (href.congr ?_ rfl) ?_
  · have hzero : encodeReplace (chars " 0 R >>") = octets " 0 R" ++ encodeReplace (chars " >>") := by
      decide
    simp only [catalogBody, encodeReplace_append, encodeReplace_str, hzero, Pdf.refOctets,
      List.append_assoc, List.append_nil]
  · exact Pdf.parse_eq (Pdf.Shifts.append rfl ((Pdf.shifts_ref pagesId).append rfl))

/-- The fonts that a document starts with. -/
def fontIds : List (Font × ℕ) := [(.regular, 1), (.bold, 2), (.mono, 3)]

/-- A page names its tree, its fonts and its content. -/
theorem readValue_pageBody (num : Floats) (pagesId contentId : ℕ) :
    Pdf.readValue (encodeReplace (pageBody num pagesId fontIds contentId))
      = some (dict [("Type", name "Page"), ("Parent", .ref pagesId),
        ("MediaBox", .array [number 0, number 0, .word (float 2 (pageWidth num)),
          .word (float 2 (pageHeight num))]),
        ("Resources", dict [("Font", dict [("Helvetica", .ref 1), ("Helvetica-Bold", .ref 2),
          ("Courier", .ref 3)])]),
        ("Contents", .ref contentId)]) := by
  have htype : Reads .between (encodeReplace (chars "<< /Type /Page /Parent "))
      [.dictOpen, nameToken "Type", nameToken "Page", nameToken "Parent"] .between := by
    decide
  have hbox : Reads .between (encodeReplace (chars " /MediaBox [0 0 "))
      [nameToken "MediaBox", .arrayOpen, .word (octets "0"), .word (octets "0")] .between := by
    decide
  have hresources : Reads .between
      (encodeReplace (chars "] /Resources << " ++ resources fontIds ++ chars " >> /Contents "))
      ([.arrayClose, nameToken "Resources", .dictOpen, nameToken "Font", .dictOpen,
        nameToken "Helvetica"] ++ (Pdf.refTokens 1 ++ ([nameToken "Helvetica-Bold"]
        ++ (Pdf.refTokens 2 ++ ([nameToken "Courier"] ++ (Pdf.refTokens 3
        ++ [.dictClose, .dictClose, nameToken "Contents"]))))))
      .between := by
    decide
  have hclose : Reads .between (encodeReplace (chars " >>")) [.dictClose] .between := by
    decide
  have hcontents := hresources.append (Pdf.reads_ref contentId
    (@breaks_append " >>" (by decide) _) (hclose.append (rfl : Reads .between [] [] .between)))
  have hheight := reads_float 2 (pageHeight num) (Pdf.Breaks.append_right (by decide) _) hcontents
  have hwidth := reads_float_blank 2 (pageWidth num) hheight
  have hparent := htype.append (Pdf.reads_ref pagesId (@breaks_append " /MediaBox [0 0 " (by decide) _)
    (hbox.append hwidth))
  refine readValue_of_lex (hparent.congr ?_ rfl) ?_
  · have hzero : encodeReplace (chars " 0 R >>") = octets " 0 R" ++ encodeReplace (chars " >>") := by
      decide
    have hzero' : encodeReplace (chars " 0 R /MediaBox [0 0 ")
        = octets " 0 R" ++ encodeReplace (chars " /MediaBox [0 0 ") := by
      decide
    simp only [pageBody, two, float, encodeReplace_append, encodeReplace_str, hzero, hzero',
      Pdf.refOctets, List.append_assoc, List.append_nil]
  · have hfonts : ∀ (stack : List Pdf.Item) (width height : Pdf.Value),
        Pdf.Shifts (.value height :: .value width :: .value (number 0) :: .value (number 0)
          :: .arrayOpen :: stack)
        ([.arrayClose, nameToken "Resources", .dictOpen, nameToken "Font", .dictOpen,
          nameToken "Helvetica"] ++ (Pdf.refTokens 1 ++ ([nameToken "Helvetica-Bold"]
          ++ (Pdf.refTokens 2 ++ ([nameToken "Courier"] ++ (Pdf.refTokens 3
          ++ [.dictClose, .dictClose, nameToken "Contents"]))))))
        (.value (name "Contents")
          :: .value (dict [("Font", dict [("Helvetica", .ref 1), ("Helvetica-Bold", .ref 2),
            ("Courier", .ref 3)])]) :: .value (name "Resources")
          :: .value (.array [number 0, number 0, width, height]) :: stack) := fun _ _ _ =>
      Pdf.Shifts.append rfl ((Pdf.shifts_ref 1).append (Pdf.Shifts.append rfl
        ((Pdf.shifts_ref 2).append (Pdf.Shifts.append rfl ((Pdf.shifts_ref 3).append rfl)))))
    have hbox := hfonts [.value (name "MediaBox"), .value (.ref pagesId), .value (name "Parent"),
        .value (name "Page"), .value (name "Type"), .dictOpen] (.word (float 2 (pageWidth num)))
      (.word (float 2 (pageHeight num)))
    exact Pdf.parse_eq (Pdf.Shifts.append rfl ((Pdf.shifts_ref pagesId).append
      (Pdf.Shifts.append rfl (Pdf.Shifts.cons_word (float_ne_R _ _)
        (Pdf.Shifts.cons_word (float_ne_R _ _)
          (hbox.append ((Pdf.shifts_ref contentId).append rfl)))))))

/-- The page tree names its pages, in order. -/
theorem readValue_pagesBody (pageIds : List ℕ) :
    Pdf.readValue (encodeReplace (pagesBody pageIds))
      = some (dict [("Type", name "Pages"), ("Count", number pageIds.length),
        ("Kids", .array (pageIds.map .ref))]) := by
  have htype : Reads .between (encodeReplace (chars "<< /Type /Pages /Count "))
      [.dictOpen, nameToken "Type", nameToken "Pages", nameToken "Count"] .between := by
    decide
  have hkids : Reads .between (encodeReplace (chars " /Kids [")) [nameToken "Kids", .arrayOpen]
      .between := by
    decide
  have hclose : Reads .between (encodeReplace (chars "] >>")) [.arrayClose, .dictClose]
      .between := by
    decide
  have hrefs := hkids.append (Pdf.reads_refs pageIds (by decide) hclose)
  have hcount := htype.append (Pdf.reads_decimal pageIds.length
    (@breaks_append " /Kids [" (by decide) _) hrefs)
  refine readValue_of_lex (hcount.congr ?_ rfl) ?_
  · have hids : encodeReplace ([' '].intercalate (pageIds.map fun id => str id ++ chars " 0 R"))
        = ([32] : List UInt8).intercalate (pageIds.map Pdf.refOctets) := by
      have hone : (fun id => encodeReplace (str id ++ chars " 0 R")) = Pdf.refOctets := by
        ext1 id
        rw [encodeReplace_append, encodeReplace_str]
        rfl
      rw [encodeReplace_join, List.map_map]
      exact congrArg (fun f => (encodeReplace [' ']).intercalate (pageIds.map f)) hone
    simp only [pagesBody, encodeReplace_append, encodeReplace_str, hids, List.append_assoc]
  · exact Pdf.parse_eq (Pdf.Shifts.append rfl (Pdf.Shifts.cons_word (Pdf.decimal_ne_R _)
      (Pdf.Shifts.append rfl ((Pdf.shifts_refs pageIds).append
        ((Pdf.shifts_arrayClose (pageIds.map .ref)).append rfl)))))

/-- The information holds the title. -/
theorem readValue_infoBody (title : List Char) :
    Pdf.readValue (encodeReplace (infoBody title))
      = some (dict [("Title", .literal (Pdf.normalizeEol (rendering title))),
        ("Producer", .literal (octets "BARE"))]) := by
  have hopen : encodeReplace (chars "<< /Title (") = encodeReplace (chars "<< /Title ")
      ++ octets "(" := by decide
  have hclose : encodeReplace (chars ") /Producer (BARE) >>") = octets ")"
      ++ encodeReplace (chars " /Producer (BARE) >>") := by decide
  have htitle : Reads .between (encodeReplace (chars "<< /Title "))
      [.dictOpen, nameToken "Title"] .between := by decide
  have hproducer : Reads .between (encodeReplace (chars " /Producer (BARE) >>"))
      [nameToken "Producer", .literal (octets "BARE"), .dictClose] .between := by decide
  have h := htitle.append ((reads_drawn_text title).append hproducer)
  refine readValue_of_lex (h.congr ?_ rfl) (Pdf.parse_eq rfl)
  simp only [infoBody, encodeReplace_append, hopen, hclose, List.append_assoc]

/-- The dictionary of a content stream gives the length of what is packed. -/
theorem readValue_contentDict (length : ℕ) :
    Pdf.readValue (octets "<< /Length " ++ encodeReplace (str length)
      ++ octets " /Filter /FlateDecode >>")
      = some (dict [("Length", number length), ("Filter", name "FlateDecode")]) := by
  have hlength : Reads .between (octets "<< /Length ") [.dictOpen, nameToken "Length"]
      .between := by decide
  have hfilter : Reads .between (octets " /Filter /FlateDecode >>")
      [nameToken "Filter", nameToken "FlateDecode", .dictClose] .between := by decide
  have h := hlength.append (Pdf.reads_decimal length (by decide) hfilter)
  refine readValue_of_lex (h.congr ?_ rfl) (Pdf.parse_eq (Pdf.Shifts.append rfl
    (Pdf.Shifts.cons_word (Pdf.decimal_ne_R _) rfl)))
  rw [encodeReplace_str, List.append_assoc]

/-- The trailer names the catalog and the information. -/
theorem readValue_trailerDict (size root info : ℕ) :
    Pdf.readValue (octets "<< /Size " ++ encodeReplace (str size) ++ octets " /Root "
      ++ encodeReplace (str root) ++ octets " 0 R /Info " ++ encodeReplace (str info)
      ++ octets " 0 R >>")
      = some (dict [("Size", number size), ("Root", .ref root), ("Info", .ref info)]) := by
  have hsize : Reads .between (octets "<< /Size ") [.dictOpen, nameToken "Size"] .between := by
    decide
  have hroot : Reads .between (octets " /Root ") [nameToken "Root"] .between := by decide
  have hinfo : Reads .between (octets " /Info ") [nameToken "Info"] .between := by decide
  have hclose : Reads .between (octets " >>") [.dictClose] .between := by decide
  have hzero : octets " 0 R >>" = octets " 0 R" ++ octets " >>" := by decide
  have hzero' : octets " 0 R /Info " = octets " 0 R" ++ octets " /Info " := by decide
  have hbreak : ∀ rest, Pdf.Breaks (octets " /Info " ++ rest) :=
    Pdf.Breaks.append_right (by decide)
  have hbreak' : ∀ rest, Pdf.Breaks (octets " /Root " ++ rest) :=
    Pdf.Breaks.append_right (by decide)
  have href := hroot.append (Pdf.reads_ref root (hbreak _)
    (hinfo.append (Pdf.reads_ref info (by decide) hclose)))
  have h := hsize.append (Pdf.reads_decimal size (hbreak' _) href)
  refine readValue_of_lex (h.congr ?_ rfl) (Pdf.parse_eq (Pdf.Shifts.append rfl
    (Pdf.Shifts.cons_word (Pdf.decimal_ne_R _) (Pdf.Shifts.append rfl
      ((Pdf.shifts_ref root).append (Pdf.Shifts.append rfl ((Pdf.shifts_ref info).append rfl)))))))
  simp only [encodeReplace_str, hzero, hzero', Pdf.refOctets, List.append_assoc]

end Bodies

end BareAnalysis.PdfWriter
