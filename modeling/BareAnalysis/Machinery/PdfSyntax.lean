import Mathlib.Data.List.Induction
import Mathlib.Data.Nat.Basic
import Mathlib.Tactic.Common

/-!
# Machinery/PdfSyntax — the tokens and the values of a PDF, read byte by byte

    << /Kids [4 0 R] /Title (a\)b) >>   ──lex──▸   <<  /Kids  [  4  0  R  ]  /Title  "a)b"  >>
                                        ──parse──▸  {Kids: [→4], Title: "a)b"}

The reader is a machine: what it carries is the token it is inside of, so what it makes of two texts in
a row is what it makes of the one and then of the other.  A literal string ends at the parenthesis that
closes it; a backslash takes what follows for itself, and a line end is read as a line feed.
-/

namespace BareAnalysis.Pdf

/-! ## Characters -/

/-- The bytes of an ASCII text. -/
def octets (text : String) : List UInt8 := text.toList.map fun c => UInt8.ofNat c.toNat

/-- White space. -/
def isBlank (b : UInt8) : Bool := [0, 9, 10, 12, 13, 32].contains b

/-- `( ) < > [ ] { } / %`. -/
def isDelimiter (b : UInt8) : Bool := [40, 41, 60, 62, 91, 93, 123, 125, 47, 37].contains b

/-- What a word or a name is made of. -/
def isRegular (b : UInt8) : Bool := !isBlank b && !isDelimiter b

/-! ## Tokens -/

inductive Token
  | dictOpen
  | dictClose
  | arrayOpen
  | arrayClose
  | name (text : List UInt8)
  | literal (text : List UInt8)
  | hex (text : List UInt8)
  /-- A number, a keyword or an operator. -/
  | word (text : List UInt8)
  deriving DecidableEq

/-- Where in a literal string the machine is. -/
inductive Within
  | plain
  /-- After a carriage return: a line feed belongs to it. -/
  | afterReturn
  /-- After a backslash. -/
  | escaped
  /-- After a backslash and some octal digits. -/
  | octal (digits value : ℕ)
  /-- After a backslash and a carriage return. -/
  | continued
  deriving DecidableEq

inductive State
  | between
  | comment
  | name (text : List UInt8)
  | word (text : List UInt8)
  | literal (depth : ℕ) (text : List UInt8) (within : Within)
  /-- After `<`… -/
  | less
  /-- …and after `>`. -/
  | greater
  | hex (text : List UInt8)
  | failed
  deriving DecidableEq

/-- A byte that begins something. -/
def begin (b : UInt8) : List Token × State :=
  if isBlank b then ([], .between)
  else if b = 37 then ([], .comment)
  else if b = 47 then ([], .name [])
  else if b = 40 then ([], .literal 0 [] .plain)
  else if b = 60 then ([], .less)
  else if b = 62 then ([], .greater)
  else if b = 91 then ([.arrayOpen], .between)
  else if b = 93 then ([.arrayClose], .between)
  else if isDelimiter b then ([], .failed)
  else ([], .word [b])

/-- A byte of a literal string that no backslash is ahead of. -/
def plainByte (depth : ℕ) (text : List UInt8) (b : UInt8) : List Token × State :=
  if b = 92 then ([], .literal depth text .escaped)
  else if b = 40 then ([], .literal (depth + 1) (text ++ [b]) .plain)
  else if b = 41 then
    match depth with
    | 0 => ([.literal text], .between)
    | depth + 1 => ([], .literal depth (text ++ [b]) .plain)
  else if b = 13 then ([], .literal depth (text ++ [10]) .afterReturn)
  else ([], .literal depth (text ++ [b]) .plain)

/-- What a backslash and a byte stand for. -/
def escape? (b : UInt8) : Option UInt8 :=
  if b = 110 then some 10
  else if b = 114 then some 13
  else if b = 116 then some 9
  else if b = 98 then some 8
  else if b = 102 then some 12
  else if b = 40 ∨ b = 41 ∨ b = 92 then some b
  else none

def isOctal (b : UInt8) : Bool := 48 ≤ b && b ≤ 55

/-- A byte after a backslash; one that needs none keeps its place. -/
def escapedByte (depth : ℕ) (text : List UInt8) (b : UInt8) : List Token × State :=
  match escape? b with
  | some c => ([], .literal depth (text ++ [c]) .plain)
  | none =>
    if isOctal b then ([], .literal depth text (.octal 1 (b.toNat - 48)))
    else if b = 13 then ([], .literal depth text .continued)
    else if b = 10 then ([], .literal depth text .plain)
    else ([], .literal depth (text ++ [b]) .plain)

/-- A byte of a literal string. -/
def literalByte (depth : ℕ) (text : List UInt8) : Within → UInt8 → List Token × State
  | .plain, b => plainByte depth text b
  | .afterReturn, b | .continued, b =>
    if b = 10 then ([], .literal depth text .plain) else plainByte depth text b
  | .escaped, b => escapedByte depth text b
  | .octal digits value, b =>
    if isOctal b ∧ digits < 3 then
      ([], .literal depth text (.octal (digits + 1) (8 * value + (b.toNat - 48))))
    else plainByte depth (text ++ [UInt8.ofNat value]) b

/-- One byte: the tokens it ends, and where it leaves the machine. -/
def step : State → UInt8 → List Token × State
  | .between, b => begin b
  | .comment, b => ([], if b = 10 ∨ b = 13 then .between else .comment)
  | .name text, b =>
    if isRegular b then ([], .name (text ++ [b]))
    else (.name text :: (begin b).1, (begin b).2)
  | .word text, b =>
    if isRegular b then ([], .word (text ++ [b]))
    else (.word text :: (begin b).1, (begin b).2)
  | .literal depth text within, b => literalByte depth text within b
  | .less, b =>
    if b = 60 then ([.dictOpen], .between)
    else if b = 62 then ([.hex []], .between)
    else ([], .hex [b])
  | .greater, b => if b = 62 then ([.dictClose], .between) else ([], .failed)
  | .hex text, b => if b = 62 then ([.hex text], .between) else ([], .hex (text ++ [b]))
  | .failed, _ => ([], .failed)

/-- The machine, over a text. -/
def run : State → List UInt8 → List Token × State
  | s, [] => ([], s)
  | s, b :: data => ((step s b).1 ++ (run (step s b).2 data).1, (run (step s b).2 data).2)

/-- What the end of the text ends. -/
def finish : State → Option (List Token)
  | .between | .comment => some []
  | .name text => some [.name text]
  | .word text => some [.word text]
  | _ => none

/-- The tokens of a text. -/
def lex (data : List UInt8) : Option (List Token) :=
  (finish (run .between data).2).map ((run .between data).1 ++ ·)

example : lex (octets "<< /Title (a\\)(b)) >>") = some [.dictOpen, .name (octets "Title"),
    .literal (octets "a)(b)"), .dictClose] := by decide

/-! ### Reading one text after the other -/

/-- What the machine makes of a text. -/
def Reads (s : State) (data : List UInt8) (tokens : List Token) (s' : State) : Prop :=
  run s data = (tokens, s')

instance (s : State) (data : List UInt8) (tokens : List Token) (s' : State) :
    Decidable (Reads s data tokens s') := inferInstanceAs (Decidable (_ = _))

variable {s s' s'' : State} {a b : List UInt8} {ts us : List Token}

theorem run_append (s : State) (a b : List UInt8) :
    run s (a ++ b) = ((run s a).1 ++ (run (run s a).2 b).1, (run (run s a).2 b).2) := by
  induction a generalizing s with
  | nil => rfl
  | cons x a ih =>
    rw [List.cons_append, run, ih, run, List.append_assoc]

/-- **What is read of two texts is read of the one, then of the other.** -/
theorem Reads.append (ha : Reads s a ts s') (hb : Reads s' b us s'') :
    Reads s (a ++ b) (ts ++ us) s'' := by
  rw [Reads, run_append, ha, hb]

theorem Reads.congr (h : Reads s a ts s') (hdata : b = a) (htokens : us = ts) : Reads s b us s' := by
  rw [hdata, htokens]
  exact h

theorem Reads.lex (h : Reads .between a ts .between) : lex a = some ts := by
  rw [Pdf.lex, h]
  exact congrArg some (List.append_nil ts)

/-! ### Words -/

theorem isRegular_begin {x : UInt8} (h : isRegular x = true) : begin x = ([], .word [x]) := by
  obtain ⟨hblank, hdelimiter⟩ : isBlank x = false ∧ isDelimiter x = false := by
    simpa [isRegular] using h
  have hne : ∀ d : UInt8, isDelimiter d = true → x ≠ d := fun d hd hx => by
    rw [hx, hd] at hdelimiter
    cases hdelimiter
  rw [begin, hblank, hdelimiter, if_neg (hne 37 rfl), if_neg (hne 47 rfl), if_neg (hne 40 rfl),
    if_neg (hne 60 rfl), if_neg (hne 62 rfl), if_neg (hne 91 rfl), if_neg (hne 93 rfl)]
  rfl

theorem reads_more_word {w : List UInt8} (h : ∀ x ∈ w, isRegular x = true) (read : List UInt8) :
    Reads (.word read) w [] (.word (read ++ w)) := by
  induction w generalizing read with
  | nil =>
    rw [List.append_nil]
    rfl
  | cons x w ih =>
    obtain ⟨hx, hw⟩ := List.forall_mem_cons.mp h
    have hstep : step (.word read) x = ([], .word (read ++ [x])) := if_pos hx
    rw [Reads, run, hstep, ih hw, List.append_assoc]
    rfl

/-- A text that goes on with something that is no part of a word. -/
def Breaks (data : List UInt8) : Prop := (data.head?.any fun x => !isRegular x) = true

instance (data : List UInt8) : Decidable (Breaks data) := inferInstanceAs (Decidable (_ = true))

theorem Breaks.exists_cons (h : Breaks a) : ∃ x rest, a = x :: rest ∧ isRegular x = false := by
  obtain ⟨x, hx, hregular⟩ := (Option.any_eq_true _ _).mp h
  obtain ⟨rest, rfl⟩ := List.head?_eq_some_iff.mp hx
  exact ⟨x, rest, rfl, by simpa using hregular⟩

theorem Breaks.append_right (h : Breaks a) (b : List UInt8) : Breaks (a ++ b) := by
  obtain ⟨x, rest, rfl, -⟩ := h.exists_cons
  exact h

/-- **A word is read up to what is not part of it.** -/
theorem reads_word {w : List UInt8} (hne : w ≠ []) (h : ∀ x ∈ w, isRegular x = true)
    (hbreak : Breaks a) (hrest : Reads .between a ts s) :
    Reads .between (w ++ a) (.word w :: ts) s := by
  obtain ⟨x, a, rfl, hregular⟩ := hbreak.exists_cons
  obtain ⟨y, w, rfl⟩ := List.exists_cons_of_ne_nil hne
  obtain ⟨hy, hw⟩ := List.forall_mem_cons.mp h
  have hbegin : Reads .between (y :: w) [] (.word (y :: w)) := by
    have hstep : step .between y = ([], .word [y]) := isRegular_begin hy
    rw [Reads, run, hstep, reads_more_word hw]
    rfl
  have hend : Reads (.word (y :: w)) (x :: a) (.word (y :: w) :: ts) s := by
    have hstep : step (.word (y :: w)) x = (.word (y :: w) :: (begin x).1, (begin x).2) :=
      if_neg (by rw [hregular]; decide)
    have hfrom : step .between x = begin x := rfl
    rw [Reads, run, hfrom] at hrest
    obtain ⟨htokens, hstate⟩ := Prod.mk.inj hrest
    rw [Reads, run, hstep, List.cons_append, htokens, hstate]
  exact hbegin.append hend

/-- No line end ends a literal string. -/
theorem literalByte_feed (depth : ℕ) (text : List UInt8) (within : Within) :
    ∃ text' within', literalByte depth text within 10 = ([], .literal depth text' within') := by
  cases within with
  | octal digits value =>
    have hnot : ¬(isOctal 10 = true ∧ digits < 3) := fun h => absurd h.1 (by decide)
    rw [literalByte, if_neg hnot]
    exact ⟨_, _, rfl⟩
  | plain | afterReturn | escaped | continued => exact ⟨_, _, rfl⟩

/-- A line end ends what is being read: the text has the tokens it has with a line end after it. -/
theorem lex_of_reads_feed (h : Reads .between (a ++ [10]) ts .between) : lex a = some ts := by
  rw [Reads, run_append] at h
  obtain ⟨htokens, hstate⟩ := Prod.mk.inj h
  rw [lex]
  rcases hend : (run .between a).2 with - | - | name | word | ⟨depth, text, within⟩ | - | - | hex | -
  all_goals rw [hend] at htokens hstate
  · exact congrArg some htokens
  · exact congrArg some htokens
  · exact congrArg some htokens
  · exact congrArg some htokens
  · obtain ⟨text', within', hliteral⟩ := literalByte_feed depth text within
    rw [run, step, hliteral] at hstate
    cases hstate
  · cases hstate
  · cases hstate
  · cases hstate
  · cases hstate

/-! ### Literal strings -/

/-- Line ends, read as line feeds. -/
def normalizeFrom : Bool → List UInt8 → List UInt8
  | _, [] => []
  | afterReturn, b :: text =>
    if b = 13 then 10 :: normalizeFrom true text
    else if b = 10 ∧ afterReturn then normalizeFrom false text
    else b :: normalizeFrom false text

/-- …in a whole text. -/
def normalizeEol (text : List UInt8) : List UInt8 := normalizeFrom false text

/-- A text as it is written between parentheses: each of them, and each backslash, after a
backslash. -/
def escapeByte (b : UInt8) : List UInt8 := if b = 92 ∨ b = 40 ∨ b = 41 then [92, b] else [b]

/-- Between two bytes of a written text. -/
def withinOf (afterReturn : Bool) : Within := if afterReturn then .afterReturn else .plain

/-- **What is written as a literal string is read back**, line ends apart. -/
theorem reads_escape (text read : List UInt8) (afterReturn : Bool) :
    Reads (.literal 0 read (withinOf afterReturn)) (text.flatMap escapeByte ++ [41])
      [.literal (read ++ normalizeFrom afterReturn text)] .between := by
  induction text generalizing read afterReturn with
  | nil =>
    rw [normalizeFrom, List.append_nil]
    cases afterReturn <;> rfl
  | cons b text ih =>
    rw [List.flatMap_cons, List.append_assoc]
    by_cases hspecial : b = 92 ∨ b = 40 ∨ b = 41
    · have hread : Reads (.literal 0 read (withinOf afterReturn)) (escapeByte b) []
          (.literal 0 (read ++ [b]) .plain) := by
        rw [escapeByte, if_pos hspecial]
        obtain rfl | rfl | rfl := hspecial <;> cases afterReturn <;> rfl
      have hnormal : normalizeFrom afterReturn (b :: text) = b :: normalizeFrom false text := by
        obtain rfl | rfl | rfl := hspecial <;> rfl
      have h := hread.append (ih (read ++ [b]) false)
      rwa [List.append_assoc, List.nil_append, List.singleton_append, ← hnormal] at h
    · obtain ⟨hslash, hopen, hclose⟩ : b ≠ 92 ∧ b ≠ 40 ∧ b ≠ 41 := by
        simpa [not_or] using hspecial
      rw [escapeByte, if_neg hspecial]
      have hplain : plainByte 0 read b = if b = 13 then ([], .literal 0 (read ++ [10]) .afterReturn)
          else ([], .literal 0 (read ++ [b]) .plain) := by
        rw [plainByte, if_neg hslash, if_neg hopen, if_neg hclose]
      by_cases hreturn : b = 13
      · have hread : Reads (.literal 0 read (withinOf afterReturn)) [b] []
            (.literal 0 (read ++ [10]) .afterReturn) := by
          rw [hreturn]
          cases afterReturn <;> rfl
        have h := hread.append (ih (read ++ [10]) true)
        rw [normalizeFrom, if_pos hreturn]
        rwa [List.append_assoc, List.nil_append, List.singleton_append] at h
      by_cases hfeed : b = 10 ∧ afterReturn = true
      · have hread : Reads (.literal 0 read (withinOf afterReturn)) [b] []
            (.literal 0 read .plain) := by
          rw [hfeed.1, hfeed.2]
          rfl
        have h := hread.append (ih read false)
        rw [normalizeFrom, if_neg hreturn, if_pos hfeed]
        rwa [List.nil_append] at h
      · have hread : Reads (.literal 0 read (withinOf afterReturn)) [b] []
            (.literal 0 (read ++ [b]) .plain) := by
          have hstep : literalByte 0 read (withinOf afterReturn) b
              = ([], .literal 0 (read ++ [b]) .plain) := by
            cases afterReturn with
            | false => exact hplain.trans (if_neg hreturn)
            | true =>
              have hnot : b ≠ 10 := fun h => hfeed ⟨h, rfl⟩
              exact (if_neg hnot).trans (hplain.trans (if_neg hreturn))
          rw [Reads, run, step, hstep]
          rfl
        have h := hread.append (ih (read ++ [b]) false)
        rw [normalizeFrom, if_neg hreturn, if_neg hfeed]
        rwa [List.append_assoc, List.nil_append, List.singleton_append] at h

/-- **A written literal is one token.** -/
theorem reads_literal (text : List UInt8) :
    Reads .between (40 :: (text.flatMap escapeByte ++ [41])) [.literal (normalizeEol text)]
      .between := by
  have hopen : Reads .between [40] [] (.literal 0 [] .plain) := rfl
  exact hopen.append (reads_escape text [] false)

/-! ## Numbers -/

/-- `str(n).encode()`. -/
def decimal (n : ℕ) : List UInt8 := (Nat.toDigits 10 n).map fun c => UInt8.ofNat c.toNat

def isDigit (b : UInt8) : Bool := 48 ≤ b && b ≤ 57

/-- The number that a word is, if it is one. -/
def readDecimal (w : List UInt8) : Option ℕ :=
  if w ≠ [] ∧ w.all isDigit then some (Nat.ofDigitChars 10 (w.map fun b => Char.ofNat b.toNat) 0)
  else none

theorem toNat_ofNat_digit {c : Char} (h : c.isDigit = true) :
    (UInt8.ofNat c.toNat).toNat = c.toNat := by
  rw [Char.isDigit_iff_toNat] at h
  rw [UInt8.toNat_ofNat']
  have hnine : '9'.toNat = 57 := rfl
  omega

theorem isDigit_of_mem_toDigits {n : ℕ} {c : Char} (h : c ∈ Nat.toDigits 10 n) :
    c.isDigit = true := Nat.isDigit_of_mem_toDigits (by decide) (by decide) h

theorem isDigit_ofNat {c : Char} (h : c.isDigit = true) :
    isDigit (UInt8.ofNat c.toNat) = true := by
  have hvalue := toNat_ofNat_digit h
  rw [Char.isDigit_iff_toNat] at h
  have hlow : (48 : UInt8) ≤ UInt8.ofNat c.toNat := UInt8.le_iff_toNat_le.mpr (by
    rw [hvalue]
    exact h.1)
  have hhigh : UInt8.ofNat c.toNat ≤ (57 : UInt8) := UInt8.le_iff_toNat_le.mpr (by
    rw [hvalue]
    exact h.2)
  rw [isDigit, Bool.and_eq_true, decide_eq_true_iff, decide_eq_true_iff]
  exact ⟨hlow, hhigh⟩

theorem isDigit_of_mem_decimal {n : ℕ} {b : UInt8} (h : b ∈ decimal n) : isDigit b = true := by
  obtain ⟨c, hc, rfl⟩ := List.mem_map.mp h
  exact isDigit_ofNat (isDigit_of_mem_toDigits hc)

theorem decimal_ne_nil (n : ℕ) : decimal n ≠ [] := fun h =>
  Nat.toDigits_ne_nil (List.map_eq_nil_iff.mp h)

/-- Digits are read as the number they are. -/
theorem readDecimal_digits {cs : List Char} (hne : cs ≠ []) (h : ∀ c ∈ cs, c.isDigit = true) :
    readDecimal (cs.map fun c => UInt8.ofNat c.toNat) = some (Nat.ofDigitChars 10 cs 0) := by
  have hchars : (cs.map fun c => UInt8.ofNat c.toNat).map (fun b => Char.ofNat b.toNat) = cs := by
    rw [List.map_map]
    refine (List.map_congr_left fun c hc => ?_).trans (List.map_id _)
    change Char.ofNat (UInt8.ofNat c.toNat).toNat = c
    rw [toNat_ofNat_digit (h c hc), Char.ofNat_toNat]
  have hall : (cs.map fun c => UInt8.ofNat c.toNat).all isDigit = true := by
    refine List.all_eq_true.mpr fun b hb => ?_
    obtain ⟨c, hc, rfl⟩ := List.mem_map.mp hb
    exact isDigit_ofNat (h c hc)
  rw [readDecimal, if_pos ⟨mt List.map_eq_nil_iff.mp hne, hall⟩, hchars]

/-- **A number is read back.** -/
theorem readDecimal_decimal (n : ℕ) : readDecimal (decimal n) = some n := by
  rw [decimal, readDecimal_digits Nat.toDigits_ne_nil fun c hc => isDigit_of_mem_toDigits hc,
    Nat.ofDigitChars_ten_toDigits]

theorem isRegular_of_isDigit {b : UInt8} (h : isDigit b = true) : isRegular b = true := by
  have hall : ∀ n : Fin 256, isDigit (UInt8.ofFin n) = true → isRegular (UInt8.ofFin n) = true := by
    decide +kernel
  exact hall b.toFin h

theorem reads_decimal (n : ℕ) (hbreak : Breaks a) (hrest : Reads .between a ts s) :
    Reads .between (decimal n ++ a) (.word (decimal n) :: ts) s :=
  reads_word (decimal_ne_nil n) (fun _ hb => isRegular_of_isDigit (isDigit_of_mem_decimal hb))
    hbreak hrest

/-- `n 0 R`, as it is written. -/
def refOctets (n : ℕ) : List UInt8 := decimal n ++ octets " 0 R"

/-- …and as it is read. -/
def refTokens (n : ℕ) : List Token := [.word (decimal n), .word (octets "0"), .word (octets "R")]

theorem reads_ref (n : ℕ) (hbreak : Breaks a) (hrest : Reads .between a ts s) :
    Reads .between (refOctets n ++ a) (refTokens n ++ ts) s := by
  have hR : Reads .between (octets "R" ++ a) (.word (octets "R") :: ts) s :=
    reads_word (by decide) (List.all_eq_true.mp (by decide)) hbreak hrest
  have hzero : Reads .between (octets "0" ++ (octets " R" ++ a))
      (.word (octets "0") :: .word (octets "R") :: ts) s := by
    have hblank : Reads .between (octets " ") [] .between := rfl
    exact reads_word (by decide) (List.all_eq_true.mp (by decide)) rfl (hblank.append hR)
  have hblank : Reads .between (octets " ") [] .between := rfl
  have h : Reads .between (decimal n ++ (octets " " ++ (octets "0" ++ (octets " R" ++ a))))
      (.word (decimal n) :: .word (octets "0") :: .word (octets "R") :: ts) s :=
    reads_decimal n rfl (hblank.append hzero)
  rw [refOctets, List.append_assoc]
  exact h

/-- **References in a row are read one by one.** -/
theorem reads_refs (ids : List ℕ) (hbreak : Breaks a) (hrest : Reads .between a ts s) :
    Reads .between (([32] : List UInt8).intercalate (ids.map refOctets) ++ a)
      (ids.flatMap refTokens ++ ts) s := by
  induction ids with
  | nil => exact hrest
  | cons n ids ih =>
    cases ids with
    | nil =>
      rw [List.map_singleton, List.intercalate_singleton, List.flatMap_singleton]
      exact reads_ref n hbreak hrest
    | cons m ids =>
      rw [List.map_cons, List.map_cons, List.intercalate_cons_cons, List.append_assoc,
        List.append_assoc, List.flatMap_cons, List.append_assoc]
      have hblank : Reads .between [32] [] .between := rfl
      exact reads_ref n rfl (hblank.append ih)

/-! ## Values -/

inductive Value
  /-- A number or a keyword. -/
  | word (text : List UInt8)
  | name (text : List UInt8)
  | literal (text : List UInt8)
  /-- `n 0 R`. -/
  | ref (n : ℕ)
  | array (items : List Value)
  | dict (entries : List (List UInt8 × Value))

/-- What the parser has on its stack. -/
inductive Item
  | value (v : Value)
  | dictOpen
  | arrayOpen

/-- The items of an array, back to where it opens. -/
def closeArray : List Value → List Item → Option (List Item)
  | items, .value v :: stack => closeArray (v :: items) stack
  | items, .arrayOpen :: stack => some (.value (.array items) :: stack)
  | _, _ => none

/-- The entries of a dictionary, back to where it opens. -/
def closeDict : List (List UInt8 × Value) → List Item → Option (List Item)
  | entries, .value v :: .value (.name key) :: stack => closeDict ((key, v) :: entries) stack
  | entries, .dictOpen :: stack => some (.value (.dict entries) :: stack)
  | _, _ => none

/-- `n 0 R` is a reference. -/
def closeRef : List Item → Option (List Item)
  | .value (.word _) :: .value (.word n) :: stack =>
    (readDecimal n).map fun n => .value (.ref n) :: stack
  | _ => none

/-- One token. -/
def shift (stack : List Item) : Token → Option (List Item)
  | .dictOpen => some (.dictOpen :: stack)
  | .dictClose => closeDict [] stack
  | .arrayOpen => some (.arrayOpen :: stack)
  | .arrayClose => closeArray [] stack
  | .name text => some (.value (.name text) :: stack)
  | .literal text | .hex text => some (.value (.literal text) :: stack)
  | .word text => if text = [82] then closeRef stack else some (.value (.word text) :: stack)

/-- The value that the tokens are. -/
def parse (tokens : List Token) : Option Value :=
  match tokens.foldlM shift [] with
  | some [.value v] => some v
  | _ => none

/-- The value that is written. -/
def readValue (data : List UInt8) : Option Value := lex data >>= parse

/-- The entry of a dictionary. -/
def Value.get? (key : String) : Value → Option Value
  | .dict entries => entries.lookup (octets key)
  | _ => none

/-- What the parser makes of tokens. -/
def Shifts (stack : List Item) (tokens : List Token) (stack' : List Item) : Prop :=
  tokens.foldlM shift stack = some stack'

variable {stack stack' stack'' : List Item}

/-- **What is parsed of two texts is parsed of the one, then of the other.** -/
theorem Shifts.append (ha : Shifts stack ts stack') (hb : Shifts stack' us stack'') :
    Shifts stack (ts ++ us) stack'' := by
  rw [Shifts, List.foldlM_append, ha]
  exact hb

theorem parse_eq {v : Value} (h : Shifts [] ts [.value v]) : parse ts = some v := by
  rw [parse, h]

theorem decimal_ne_R (n : ℕ) : decimal n ≠ [82] := fun h => by
  have hdigit := isDigit_of_mem_decimal (n := n) (b := 82) (by rw [h]; exact List.mem_cons_self)
  exact absurd hdigit (by decide)

theorem shifts_word {w : List UInt8} (h : w ≠ [82]) :
    Shifts stack [.word w] (.value (.word w) :: stack) := by
  have hword : shift stack (.word w) = some (.value (.word w) :: stack) := if_neg h
  rw [Shifts, List.foldlM_cons, hword]
  rfl

theorem Shifts.cons_word {w : List UInt8} (hw : w ≠ [82])
    (h : Shifts (.value (.word w) :: stack) ts stack') : Shifts stack (.word w :: ts) stack' :=
  (shifts_word hw).append h

/-- **A reference is read back.** -/
theorem shifts_ref (n : ℕ) : Shifts stack (refTokens n) (.value (.ref n) :: stack) := by
  have hend : Shifts (.value (.word (decimal n)) :: stack) [.word (octets "0"), .word (octets "R")]
      (.value (.ref n) :: stack) := by
    have hclose : closeRef (.value (.word (octets "0")) :: .value (.word (decimal n)) :: stack)
        = some (.value (.ref n) :: stack) := by
      rw [closeRef, readDecimal_decimal]
      rfl
    change (closeRef (.value (.word (octets "0")) :: .value (.word (decimal n)) :: stack)
      >>= fun stack => some stack) = _
    rw [hclose]
    rfl
  exact (shifts_word (decimal_ne_R n)).append hend

/-- …and references in a row. -/
theorem shifts_refs (ids : List ℕ) : Shifts stack (ids.flatMap refTokens)
    (((ids.map Value.ref).map Item.value).reverse ++ stack) := by
  induction ids generalizing stack with
  | nil => rfl
  | cons n ids ih =>
    rw [List.flatMap_cons, List.map_cons, List.map_cons, List.reverse_cons, List.append_assoc]
    exact (shifts_ref n).append ih

/-- **The items of an array are those that were read**, in order. -/
theorem closeArray_reverse (values items : List Value) (stack : List Item) :
    closeArray items ((values.map Item.value).reverse ++ .arrayOpen :: stack)
      = some (.value (.array (values ++ items)) :: stack) := by
  induction values using List.reverseRecOn generalizing items with
  | nil => rfl
  | append_singleton values v ih =>
    rw [List.map_append, List.map_singleton, List.reverse_append, List.reverse_singleton,
      List.singleton_append, List.cons_append, closeArray, ih, List.append_assoc]
    rfl

theorem shifts_arrayClose (values : List Value) :
    Shifts ((values.map Item.value).reverse ++ .arrayOpen :: stack) [.arrayClose]
      (.value (.array values) :: stack) := by
  have hclose := closeArray_reverse values [] stack
  rw [List.append_nil] at hclose
  rw [Shifts, List.foldlM_cons, shift, hclose]
  rfl

end BareAnalysis.Pdf
