import BareAnalysis.Machinery.Json
import BareAnalysis.Machinery.Text
import Mathlib.Tactic.IntervalCases

/-!
# Machinery/Scalars — texts written as JSON and read as YAML

    text ──json.dumps──▸ "…\n…"  ──scan_flow_scalar──▸ text, folded

Both quote with double quotes and escape alike what is escaped.  But of what JSON leaves as it is,
YAML folds the line breaks past ASCII, with the blanks around them, and stops at document marks.
-/

namespace BareAnalysis

/-! ## JSON -/

/-- One character of `json.dumps(text, ensure_ascii=False)`. -/
def jsonChar (c : Char) : List Char :=
  if c = '"' then ['\\', '"']
  else if c = '\\' then ['\\', '\\']
  else if c = '\n' then ['\\', 'n']
  else if c = '\r' then ['\\', 'r']
  else if c = '\t' then ['\\', 't']
  else if c = '\x0c' then ['\\', 'f']
  else if c = '\x08' then ['\\', 'b']
  else if c.toNat < 32 then '\\' :: 'u' :: (Json.hexText 4 c.toNat).toList
  else [c]

/-- `json.dumps(text, ensure_ascii=False)`. -/
def jsonQuote (text : List Char) : List Char := '"' :: (text.flatMap jsonChar ++ ['"'])

/-! ## YAML -/

/-- The characters a YAML stream may hold. -/
def isYamlPrintable (c : Char) : Bool :=
  c == '\t' || c == '\n' || c == '\r' || c == '\x85'
    || decide (0x20 ≤ c.toNat ∧ c.toNat ≤ 0x7e ∨ 0xa0 ≤ c.toNat ∧ c.toNat ≤ 0xd7ff
      ∨ 0xe000 ≤ c.toNat ∧ c.toNat ≤ 0xfffd ∨ 0x10000 ≤ c.toNat)

/-- The blanks of YAML. -/
def isFlowBlank (c : Char) : Bool := c == ' ' || c == '\t'

/-- What a line break is read as. -/
def lineBreak? (c : Char) : Option Char :=
  if c = '\n' ∨ c = '\r' ∨ c = '\x85' then some '\n'
  else if c = '\u2028' ∨ c = '\u2029' then some c
  else none

/-- A mark of the end of the document, at the start of a line. -/
def markAhead (s : List Char) : Bool :=
  (s.take 3 == ['-', '-', '-'] || s.take 3 == ['.', '.', '.']) &&
    match s.drop 3 with
    | [] => true
    | c :: _ => isFlowBlank c || (lineBreak? c).isSome

/-- `ESCAPE_REPLACEMENTS`. -/
def replacement? (c : Char) : Option Char :=
  match c with
  | '0' => some '\x00'
  | 'a' => some '\x07'
  | 'b' => some '\x08'
  | 't' | '\t' => some '\t'
  | 'n' => some '\n'
  | 'v' => some '\x0b'
  | 'f' => some '\x0c'
  | 'r' => some '\r'
  | 'e' => some '\x1b'
  | ' ' | '"' | '\\' | '/' => some c
  | 'N' => some '\x85'
  | '_' => some '\xa0'
  | 'L' => some '\u2028'
  | 'P' => some '\u2029'
  | _ => none

/-- `ESCAPE_CODES`. -/
def codeLength? (c : Char) : Option ℕ :=
  match c with
  | 'x' => some 2
  | 'u' => some 4
  | 'U' => some 8
  | _ => none

/-- A hexadecimal digit. -/
def hexValue? (c : Char) : Option ℕ :=
  if '0' ≤ c ∧ c ≤ '9' then some (c.toNat - '0'.toNat)
  else if 'a' ≤ c ∧ c ≤ 'f' then some (c.toNat - 'a'.toNat + 10)
  else if 'A' ≤ c ∧ c ≤ 'F' then some (c.toNat - 'A'.toNat + 10)
  else none

/-- Where the scanner of a double-quoted scalar stands. -/
inductive FlowState
  | text
  /-- After blanks, which count unless a line break follows. -/
  | blanks (ws : List Char)
  /-- After line breaks: the first, unless it was escaped, and the others. -/
  | breaks (first : Option Char) (more : List Char)
  | escaped
  /-- Within a code, with the digits to come and the value so far. -/
  | code (left value : ℕ)

namespace FlowState

/-- What is read once something else follows. -/
def flush : FlowState → List Char
  | blanks ws => ws
  | breaks first more =>
    (match first with
      | some b => if b ≠ '\n' then [b] else if more = [] then [' '] else []
      | none => []) ++ more
  | text | escaped | code _ _ => []

/-- A blank follows. -/
def withBlank (c : Char) : FlowState → FlowState
  | blanks ws => blanks (ws ++ [c])
  | breaks first more => breaks first more
  | text | escaped | code _ _ => blanks [c]

/-- A line break follows. -/
def withBreak (b : Char) : FlowState → FlowState
  | breaks first more => breaks first (more ++ [b])
  | text | blanks _ | escaped | code _ _ => breaks (some b) []

end FlowState

/-- What is read ahead of the rest. -/
def readAhead (front : List Char) (result : Option (List Char × List Char)) :
    Option (List Char × List Char) := result.map fun r => (front ++ r.1, r.2)

/-- `scan_flow_scalar` after the opening quote: what is read, and what follows the closing one. -/
def scanFlow : FlowState → List Char → Option (List Char × List Char)
  | _, [] => none
  | .escaped, c :: rest =>
    match replacement? c, codeLength? c with
    | some d, _ => readAhead [d] (scanFlow .text rest)
    | none, some n => scanFlow (.code n 0) rest
    | none, none =>
      if c = '\r' ∧ rest.head? = some '\n' then scanFlow .escaped rest
      else if (lineBreak? c).isSome ∧ !markAhead rest then scanFlow (.breaks none []) rest
      else none
  | .code left value, c :: rest =>
    match hexValue? c with
    | some d =>
      if left ≤ 1 then readAhead [Char.ofNat (16 * value + d)] (scanFlow .text rest)
      else scanFlow (.code (left - 1) (16 * value + d)) rest
    | none => none
  | st, c :: rest =>
    if c = '"' then some (st.flush, rest)
    else if isFlowBlank c then scanFlow (st.withBlank c) rest
    -- a return and a line feed are one break
    else if c = '\r' ∧ rest.head? = some '\n' then scanFlow st rest
    else match lineBreak? c with
      | some b => if markAhead rest then none else scanFlow (st.withBreak b) rest
      | none =>
        if c = '\\' then readAhead st.flush (scanFlow .escaped rest)
        else readAhead (st.flush ++ [c]) (scanFlow .text rest)

example : scanFlow .text "a \u2028 b\\n\" # end".toList = some ("a\u2028b\n".toList, " # end".toList) := by
  decide +kernel

/-! ## What is kept -/

/-- The line separators past ASCII that YAML keeps as they are. -/
def IsSeparator (c : Char) : Prop := c = '\u2028' ∨ c = '\u2029'

instance (c : Char) : Decidable (IsSeparator c) := inferInstanceAs (Decidable (_ ∨ _))

/-- A document mark in a text: it ends where JSON leaves a blank or a line break as it is. -/
def markInText (s : List Char) : Bool :=
  (s.take 3 == ['-', '-', '-'] || s.take 3 == ['.', '.', '.']) &&
    match s.drop 3 with
    | [] => false
    | c :: _ => c == ' ' || c == '\x85' || decide (IsSeparator c)

/-- **A text that YAML does not fold**: no next-line character, no blank beside a line separator,
and no document mark after one. -/
def Unfolded : List Char → Prop
  | [] => True
  | c :: rest => c ≠ '\x85' ∧ (c = ' ' → ∀ d ∈ rest.head?, ¬IsSeparator d) ∧
      (IsSeparator c → rest.head? ≠ some ' ' ∧ markInText rest = false) ∧ Unfolded rest

/-- The scanner stands between two characters. -/
def FlowState.Between : FlowState → Prop
  | .text | .blanks _ | .breaks _ _ => True
  | .escaped | .code _ _ => False

section Scan

variable {st : FlowState} {c : Char} {rest : List Char}

theorem readAhead_readAhead (front front' : List Char) (result : Option (List Char × List Char)) :
    readAhead front (readAhead front' result) = readAhead (front ++ front') result := by
  cases result with
  | none => rfl
  | some r => simp [readAhead]

theorem readAhead_eq_some {front out rest' : List Char} {result : Option (List Char × List Char)} :
    readAhead front result = some (out, rest') ↔
      ∃ out', result = some (out', rest') ∧ front ++ out' = out := by
  rcases result with - | ⟨out', rest⟩
  · exact iff_of_false nofun fun ⟨_, h, _⟩ => nomatch h
  · constructor
    · intro h
      obtain ⟨hout, rfl⟩ := Prod.mk.inj (Option.some.inj h)
      exact ⟨out', rfl, hout⟩
    · rintro ⟨out'', h, rfl⟩
      obtain ⟨rfl, rfl⟩ := Prod.mk.inj (Option.some.inj h)
      rfl

theorem scanFlow_cons (h : st.Between) : scanFlow st (c :: rest) =
    if c = '"' then some (st.flush, rest)
    else if isFlowBlank c then scanFlow (st.withBlank c) rest
    else if c = '\r' ∧ rest.head? = some '\n' then scanFlow st rest
    else match lineBreak? c with
      | some b => if markAhead rest then none else scanFlow (st.withBreak b) rest
      | none =>
        if c = '\\' then readAhead st.flush (scanFlow .escaped rest)
        else readAhead (st.flush ++ [c]) (scanFlow .text rest) := by
  cases st with
  | text | blanks ws | breaks first more => rw [scanFlow] <;> nofun
  | escaped | code left value => exact absurd h id

theorem scanFlow_quote (h : st.Between) : scanFlow st ('"' :: rest) = some (st.flush, rest) := by
  rw [scanFlow_cons h, if_pos rfl]

theorem scanFlow_blank (h : st.Between) :
    scanFlow st (' ' :: rest) = scanFlow (st.withBlank ' ') rest := by
  rw [scanFlow_cons h, if_neg (by decide), if_pos (by decide)]

theorem scanFlow_break (h : st.Between) (hc : c = '\x85' ∨ IsSeparator c) :
    scanFlow st (c :: rest) = if markAhead rest then none
      else scanFlow (st.withBreak (if c = '\x85' then '\n' else c)) rest := by
  rw [scanFlow_cons h]
  obtain rfl | rfl | rfl := hc <;> simp [isFlowBlank, lineBreak?]

/-- A backslash starts an escape. -/
theorem scanFlow_backslash (h : st.Between) :
    scanFlow st ('\\' :: rest) = readAhead st.flush (scanFlow .escaped rest) := by
  rw [scanFlow_cons h]
  simp [isFlowBlank, lineBreak?]

/-- A code for a control character is read back. -/
theorem scanFlow_code {n : ℕ} (hn : n < 32) :
    scanFlow .escaped ('u' :: ((Json.hexText 4 n).toList ++ rest))
      = readAhead [Char.ofNat n] (scanFlow .text rest) := by
  have htext : ∀ m < 32, ∃ a b c d, (Json.hexText 4 m).toList = [a, b, c, d] ∧
      hexValue? a = some 0 ∧ hexValue? b = some 0 ∧ hexValue? c = some (m / 16) ∧
      hexValue? d = some (m % 16) := by
    intro m hm
    interval_cases m <;> exact ⟨_, _, _, _, rfl, rfl, rfl, rfl, rfl⟩
  obtain ⟨a, b, c, d, hlist, ha, hb, hc, hd⟩ := htext n hn
  have hvalue : 16 * (n / 16) + n % 16 = n := Nat.div_add_mod n 16
  rw [hlist]
  simp [scanFlow, replacement?, codeLength?, ha, hb, hc, hd, hvalue]

/-- JSON writes a character as it is, or escapes it. -/
theorem jsonChar_cases (c : Char) : jsonChar c = [c] ∧ c ≠ '"' ∧ c ≠ '\\' ∧ 32 ≤ c.toNat ∨
    (∃ d, jsonChar c = ['\\', d] ∧ replacement? d = some c) ∨
    jsonChar c = '\\' :: 'u' :: (Json.hexText 4 c.toNat).toList ∧ c.toNat < 32 := by
  rw [jsonChar]
  split_ifs with hquote hbackslash hfeed hreturn htab hform hback hcontrol
  · exact Or.inr (Or.inl ⟨_, rfl, by rw [hquote]; rfl⟩)
  · exact Or.inr (Or.inl ⟨_, rfl, by rw [hbackslash]; rfl⟩)
  · exact Or.inr (Or.inl ⟨_, rfl, by rw [hfeed]; rfl⟩)
  · exact Or.inr (Or.inl ⟨_, rfl, by rw [hreturn]; rfl⟩)
  · exact Or.inr (Or.inl ⟨_, rfl, by rw [htab]; rfl⟩)
  · exact Or.inr (Or.inl ⟨_, rfl, by rw [hform]; rfl⟩)
  · exact Or.inr (Or.inl ⟨_, rfl, by rw [hback]; rfl⟩)
  · exact Or.inr (Or.inr ⟨rfl, hcontrol⟩)
  · exact Or.inl ⟨rfl, hquote, hbackslash, not_lt.mp hcontrol⟩

/-- **What is neither a blank nor a line break is read back**, escaped or not. -/
theorem scanFlow_jsonChar (h : st.Between) (hspace : c ≠ ' ') (hnext : c ≠ '\x85')
    (hseparator : ¬IsSeparator c) :
    scanFlow st (jsonChar c ++ rest) = readAhead (st.flush ++ [c]) (scanFlow .text rest) := by
  obtain ⟨hjson, hquote, hbackslash, hcontrol⟩ | ⟨d, hjson, hd⟩ | ⟨hjson, hcontrol⟩ :=
    jsonChar_cases c
  · have hne : ∀ d : Char, d.toNat < 32 → c ≠ d := fun d hd hcd => by
      rw [hcd] at hcontrol
      exact absurd hd (not_lt.mpr hcontrol)
    rw [hjson, List.singleton_append, scanFlow_cons h]
    rw [IsSeparator, not_or] at hseparator
    simp [hquote, isFlowBlank, hspace, hne '\t' (by decide), hne '\r' (by decide), lineBreak?,
      hne '\n' (by decide), hnext, hseparator, hbackslash]
  · rw [hjson]
    change scanFlow st ('\\' :: d :: rest) = _
    rw [scanFlow_backslash h, scanFlow, hd, readAhead_readAhead]
  · rw [hjson]
    change scanFlow st ('\\' :: 'u' :: ((Json.hexText 4 c.toNat).toList ++ rest)) = _
    rw [scanFlow_backslash h, scanFlow_code hcontrol, readAhead_readAhead, Char.ofNat_toNat]

/-- JSON leaves blanks and line breaks past ASCII alone. -/
theorem jsonChar_of_kept (hc : c = ' ' ∨ c = '\x85' ∨ IsSeparator c) : jsonChar c = [c] := by
  obtain rfl | rfl | rfl | rfl := hc <;> rfl

/-- What JSON escapes starts with a backslash. -/
theorem jsonChar_eq_or (c : Char) : jsonChar c = [c] ∨ ∃ t, jsonChar c = '\\' :: t ∧ c ≠ ' ' ∧
    c ≠ '\x85' ∧ ¬IsSeparator c ∧ c ≠ '-' ∧ c ≠ '.' := by
  have hkept : ∀ {t}, jsonChar c = '\\' :: t → ∀ d, jsonChar d = [d] → d ≠ '\\' → c ≠ d := by
    rintro t ht d hd hne rfl
    exact hne (List.cons.inj (hd.symm.trans ht)).1
  have hright : ∀ {t}, jsonChar c = '\\' :: t → ∃ t, jsonChar c = '\\' :: t ∧ c ≠ ' ' ∧
      c ≠ '\x85' ∧ ¬IsSeparator c ∧ c ≠ '-' ∧ c ≠ '.' := fun {t} ht =>
    ⟨t, ht, hkept ht ' ' rfl (by decide), hkept ht '\x85' rfl (by decide),
      not_or.mpr ⟨hkept ht '\u2028' rfl (by decide), hkept ht '\u2029' rfl (by decide)⟩,
      hkept ht '-' rfl (by decide), hkept ht '.' rfl (by decide)⟩
  obtain ⟨hjson, -⟩ | ⟨d, hjson, -⟩ | ⟨hjson, -⟩ := jsonChar_cases c
  · exact Or.inl hjson
  · exact Or.inr (hright hjson)
  · exact Or.inr (hright hjson)

/-- Of what is written as it is, the same ends a mark. -/
theorem endsMark_of_kept (h : jsonChar c = [c]) :
    (isFlowBlank c || (lineBreak? c).isSome) = (c == ' ' || c == '\x85' || decide (IsSeparator c)) := by
  have hne : ∀ d e, jsonChar d = ['\\', e] → c ≠ d := by
    rintro d e hd rfl
    cases h.symm.trans hd
  have htab : (c == '\t') = false := beq_false_of_ne (hne '\t' 't' rfl)
  rw [isFlowBlank, htab, Bool.or_false, lineBreak?]
  simp only [hne '\n' 'n' rfl, hne '\r' 'r' rfl, IsSeparator, false_or]
  by_cases hnext : c = '\x85'
  · simp [hnext]
  · rw [if_neg hnext, beq_false_of_ne hnext, Bool.or_false]
    by_cases hsep : c = '\u2028' ∨ c = '\u2029'
    · simp [hsep]
    · simp [hsep]

/-- Where the scanner sees a document mark there is one in the text. -/
theorem markAhead_jsonChar (s : List Char) :
    markAhead (s.flatMap jsonChar ++ '"' :: rest) = markInText s := by
  rcases s with - | ⟨a, - | ⟨b, - | ⟨c, s⟩⟩⟩
  · simp [markAhead, markInText]
  · obtain ha | ⟨t, ha, -⟩ := jsonChar_eq_or a <;> simp [markAhead, markInText, ha]
  · obtain ha | ⟨t, ha, -⟩ := jsonChar_eq_or a <;>
      obtain hb | ⟨t', hb, -⟩ := jsonChar_eq_or b <;> simp [markAhead, markInText, ha, hb]
  · obtain ha | ⟨t, ha, -, -, -, ha'⟩ := jsonChar_eq_or a
    · obtain hb | ⟨t', hb, -, -, -, hb'⟩ := jsonChar_eq_or b
      · obtain hc | ⟨t'', hc, -, -, -, hc'⟩ := jsonChar_eq_or c
        · rcases s with - | ⟨d, s⟩
          · simp [markAhead, markInText, ha, hb, hc, isFlowBlank, lineBreak?]
          · obtain hd | ⟨t, hd, hspace, hnext, hseparator, -⟩ := jsonChar_eq_or d
            · simp [markAhead, markInText, ha, hb, hc, hd, endsMark_of_kept hd]
            · simp [markAhead, markInText, ha, hb, hc, hd, hspace, hnext, hseparator, isFlowBlank,
                lineBreak?]
        · simp [markAhead, markInText, ha, hb, hc, hc']
      · simp [markAhead, markInText, ha, hb, hb']
    · simp [markAhead, markInText, ha, ha']

end Scan

/-! ## There and back -/

/-- How much has been scanned and not been read yet. -/
def FlowState.pending : FlowState → ℕ
  | .blanks ws => ws.length
  | .breaks _ more => more.length + 1
  | .text | .escaped | .code _ _ => 0

/-- The text that follows is not folded with what is pending. -/
def FlowState.Keeps (s : List Char) : FlowState → Prop
  | .blanks ws => (ws ≠ [] → ∀ d ∈ s.head?, ¬IsSeparator d) ∧ Unfolded s
  | .breaks _ _ => s.head? ≠ some ' ' ∧ Unfolded s
  | .text | .escaped | .code _ _ => Unfolded s

/-- No next-line character is pending. -/
def FlowState.NoNextLine : FlowState → Prop
  | .blanks ws => '\x85' ∉ ws
  | .breaks first more => first ≠ some '\x85' ∧ '\x85' ∉ more
  | .text | .escaped | .code _ _ => True

/-- Every break that is pending is kept. -/
def FlowState.Kept : FlowState → Prop
  | .breaks first _ => ∃ b, first = some b ∧ b ≠ '\n'
  | .text | .blanks _ | .escaped | .code _ _ => True

section RoundTrip

variable {st : FlowState} {c : Char} {s rest out rest' : List Char}

theorem between_withBlank : (st.withBlank c).Between := by cases st <;> trivial

theorem between_text : FlowState.text.Between := trivial

theorem between_withBreak : (st.withBreak c).Between := by cases st <;> trivial

theorem length_flush_le (st : FlowState) : st.flush.length ≤ st.pending := by
  cases st with
  | breaks first more =>
    rcases first with - | b
    · simp [FlowState.flush, FlowState.pending]
    · by_cases hb : b = '\n'
      · by_cases hmore : more = []
        · simp [FlowState.flush, FlowState.pending, hb, hmore]
        · simp [FlowState.flush, FlowState.pending, hb, hmore]
      · simp [FlowState.flush, FlowState.pending, hb]
  | _ => exact le_refl _

/-- A character is a blank, the next-line character, a separator, or none of these. -/
theorem kind_of_char (c : Char) : c = ' ' ∨ (c = '\x85' ∨ IsSeparator c) ∨
    c ≠ ' ' ∧ c ≠ '\x85' ∧ ¬IsSeparator c := by
  by_cases hspace : c = ' '
  · exact Or.inl hspace
  · by_cases hbreak : c = '\x85' ∨ IsSeparator c
    · exact Or.inr (Or.inl hbreak)
    · exact Or.inr (Or.inr ⟨hspace, not_or.mp hbreak⟩)

/-- **One more character of the text.** -/
theorem scanFlow_step (h : st.Between) :
    (c = ' ' ∧ scanFlow st ((c :: s).flatMap jsonChar ++ '"' :: rest)
      = scanFlow (st.withBlank ' ') (s.flatMap jsonChar ++ '"' :: rest)) ∨
    ((c = '\x85' ∨ IsSeparator c) ∧ scanFlow st ((c :: s).flatMap jsonChar ++ '"' :: rest)
      = if markInText s then none else scanFlow (st.withBreak (if c = '\x85' then '\n' else c))
        (s.flatMap jsonChar ++ '"' :: rest)) ∨
    (c ≠ ' ' ∧ c ≠ '\x85' ∧ ¬IsSeparator c) ∧
      scanFlow st ((c :: s).flatMap jsonChar ++ '"' :: rest)
        = readAhead (st.flush ++ [c]) (scanFlow .text (s.flatMap jsonChar ++ '"' :: rest)) := by
  rw [List.flatMap_cons, List.append_assoc]
  obtain rfl | hbreak | hother := kind_of_char c
  · rw [jsonChar_of_kept (Or.inl rfl)]
    exact Or.inl ⟨rfl, scanFlow_blank h⟩
  · rw [jsonChar_of_kept (Or.inr hbreak), List.singleton_append, scanFlow_break h hbreak,
      markAhead_jsonChar]
    exact Or.inr (Or.inl ⟨hbreak, rfl⟩)
  · exact Or.inr (Or.inr ⟨hother, scanFlow_jsonChar h hother.1 hother.2.1 hother.2.2⟩)

/-- **What is read is no longer than what was written**, up to the closing quote. -/
theorem length_le_of_scanFlow (h : st.Between)
    (hscan : scanFlow st (s.flatMap jsonChar ++ '"' :: rest) = some (out, rest')) :
    out.length ≤ st.pending + s.length ∧ rest' = rest := by
  induction s generalizing st out with
  | nil =>
    rw [List.flatMap_nil, List.nil_append, scanFlow_quote h] at hscan
    obtain ⟨rfl, rfl⟩ := Prod.mk.inj (Option.some.inj hscan)
    exact ⟨length_flush_le st, rfl⟩
  | cons c s ih =>
    rw [List.length_cons]
    obtain ⟨-, hstep⟩ | ⟨-, hstep⟩ | ⟨-, hstep⟩ := @scanFlow_step st c s rest h <;>
      rw [hstep] at hscan
    · obtain ⟨hle, hrest⟩ := ih (between_withBlank) hscan
      refine ⟨hle.trans ?_, hrest⟩
      cases st <;> simp [FlowState.withBlank, FlowState.pending] <;> omega
    · split at hscan
      · cases hscan
      · obtain ⟨hle, hrest⟩ := ih between_withBreak hscan
        refine ⟨hle.trans ?_, hrest⟩
        cases st <;> simp [FlowState.withBreak, FlowState.pending] <;> omega
    · obtain ⟨out', htail, rfl⟩ := readAhead_eq_some.mp hscan
      obtain ⟨hle, hrest⟩ := ih between_text htail
      refine ⟨?_, hrest⟩
      have hflush := length_flush_le st
      have hzero : FlowState.text.pending = 0 := rfl
      simp only [hzero, List.length_append, List.length_singleton] at hle ⊢
      omega

theorem not_mem_flush (hst : st.NoNextLine) : '\x85' ∉ st.flush := by
  cases st with
  | blanks ws => exact hst
  | breaks first more =>
    obtain ⟨hfirst, hmore⟩ := hst
    rcases first with - | b
    · simpa [FlowState.flush] using hmore
    · have hne : '\x85' ≠ b := fun h => hfirst (congrArg some h.symm)
      by_cases hb : b = '\n'
      · by_cases hnil : more = []
        · simp [FlowState.flush, hb, hnil]
        · simpa [FlowState.flush, hb, hnil] using hmore
      · simpa [FlowState.flush, hb] using ⟨hne, hmore⟩
  | _ => exact List.not_mem_nil

/-- No next-line character is read. -/
theorem not_mem_of_scanFlow (h : st.Between) (hst : st.NoNextLine)
    (hscan : scanFlow st (s.flatMap jsonChar ++ '"' :: rest) = some (out, rest')) :
    '\x85' ∉ out := by
  induction s generalizing st out with
  | nil =>
    rw [List.flatMap_nil, List.nil_append, scanFlow_quote h] at hscan
    obtain ⟨rfl, rfl⟩ := Prod.mk.inj (Option.some.inj hscan)
    exact not_mem_flush hst
  | cons c s ih =>
    obtain ⟨-, hstep⟩ | ⟨-, hstep⟩ | ⟨hc, hstep⟩ := @scanFlow_step st c s rest h <;>
      rw [hstep] at hscan
    · refine ih between_withBlank ?_ hscan
      cases st with
      | blanks ws => simpa [FlowState.withBlank, FlowState.NoNextLine] using hst
      | breaks first more => exact hst
      | _ => exact fun h => absurd (List.mem_singleton.mp h) (by decide)
    · split at hscan
      · cases hscan
      · have hne : '\x85' ≠ (if c = '\x85' then '\n' else c) := by
          split_ifs with hc
          · decide
          · exact fun h => hc h.symm
        refine ih between_withBreak ?_ hscan
        cases st with
        | breaks first more =>
          exact ⟨hst.1, fun h => (List.mem_append.mp h).elim hst.2 fun h =>
            hne (List.mem_singleton.mp h)⟩
        | _ => exact ⟨fun h => hne (Option.some.inj h).symm, List.not_mem_nil⟩
    · obtain ⟨out', htail, rfl⟩ := readAhead_eq_some.mp hscan
      simp only [List.mem_append, List.mem_singleton, not_or]
      exact ⟨⟨not_mem_flush hst, fun h => hc.2.1 h.symm⟩, ih between_text trivial htail⟩

/-- **What is as long as what was written was not folded.** -/
theorem keeps_of_length_le (h : st.Between) (hnext : '\x85' ∉ s)
    (hscan : scanFlow st (s.flatMap jsonChar ++ '"' :: rest) = some (out, rest'))
    (hle : st.pending + s.length ≤ out.length) : st.Keeps s := by
  induction s generalizing st out with
  | nil => cases st <;> simp [FlowState.Keeps, Unfolded]
  | cons c s ih =>
    rw [List.mem_cons, not_or] at hnext
    rw [List.length_cons] at hle
    obtain ⟨rfl, hstep⟩ | ⟨hc, hstep⟩ | ⟨hc, hstep⟩ := @scanFlow_step st c s rest h <;>
      rw [hstep] at hscan
    · have hbound := (length_le_of_scanFlow between_withBlank hscan).1
      have hkeeps := ih between_withBlank hnext.2 hscan
      have hspace : ¬IsSeparator ' ' := by decide
      cases st with
      | text =>
        obtain ⟨hhead, hunfolded⟩ := hkeeps (by simpa [FlowState.withBlank, FlowState.pending,
          Nat.add_comm] using hle)
        exact ⟨by decide, fun _ => hhead (by simp), fun h => absurd h hspace, hunfolded⟩
      | blanks ws =>
        obtain ⟨hhead, hunfolded⟩ := hkeeps (by simpa [FlowState.withBlank, FlowState.pending,
          Nat.add_comm, Nat.add_left_comm] using hle)
        exact ⟨fun _ d hd => Option.some.inj hd ▸ hspace,
          by decide, fun _ => hhead (by simp), fun h => absurd h hspace, hunfolded⟩
      | breaks first more =>
        -- a blank that is dropped makes the text shorter
        simp only [FlowState.withBlank, FlowState.pending] at hbound hle
        omega
      | escaped | code left value => exact absurd h id
    · have hsep : IsSeparator c := hc.resolve_left fun h => hnext.1 h.symm
      split at hscan
      · cases hscan
      · rename_i hmark
        have hbound := (length_le_of_scanFlow between_withBreak hscan).1
        have hkeeps := ih between_withBreak hnext.2 hscan
        have hspace : c ≠ ' ' := by rintro rfl; exact absurd hsep (by decide)
        have hunfolded : ∀ {first more}, FlowState.Keeps s (.breaks first more) →
            Unfolded (c :: s) := fun h =>
          ⟨fun h => hnext.1 h.symm, fun h => absurd h hspace,
            fun _ => ⟨h.1, by simpa using hmark⟩, h.2⟩
        cases st with
        | text =>
          exact hunfolded (hkeeps (by simpa [FlowState.withBreak, FlowState.pending,
            Nat.add_comm] using hle))
        | blanks ws =>
          simp only [FlowState.withBreak, FlowState.pending, List.length_nil] at hbound hle
          refine ⟨fun hws => ?_, hunfolded (hkeeps ?_)⟩
          · have hpos := List.length_pos_of_ne_nil hws
            omega
          · simp only [FlowState.withBreak, FlowState.pending, List.length_nil]
            omega
        | breaks first more =>
          have hbreaks := hkeeps (by simpa [FlowState.withBreak, FlowState.pending,
            Nat.add_comm, Nat.add_left_comm] using hle)
          exact ⟨fun h => hspace (Option.some.inj h), hunfolded hbreaks⟩
        | escaped | code left value => exact absurd h id
    · obtain ⟨out', htail, rfl⟩ := readAhead_eq_some.mp hscan
      have hflush := length_flush_le st
      have hkeeps : Unfolded s := by
        refine ih between_text hnext.2 htail ?_
        have hzero : FlowState.text.pending = 0 := rfl
        simp only [hzero, List.length_append, List.length_singleton] at hle ⊢
        omega
      have hunfolded : Unfolded (c :: s) :=
        ⟨hc.2.1, fun h => absurd h hc.1, fun h => absurd h hc.2.2, hkeeps⟩
      cases st with
      | blanks ws => exact ⟨fun _ d hd => (Option.some.inj hd) ▸ hc.2.2, hunfolded⟩
      | breaks first more => exact ⟨fun h => hc.1 (Option.some.inj h), hunfolded⟩
      | _ => exact hunfolded

/-- **What is not folded is read back.** -/
theorem scanFlow_of_keeps (h : st.Between) (hkept : st.Kept) (hkeeps : st.Keeps s) :
    scanFlow st (s.flatMap jsonChar ++ '"' :: rest) = some (st.flush ++ s, rest) := by
  induction s generalizing st with
  | nil => rw [List.flatMap_nil, List.nil_append, scanFlow_quote h, List.append_nil]
  | cons c s ih =>
    have hunfolded : Unfolded (c :: s) := by
      cases st with
      | blanks ws | breaks first more => exact hkeeps.2
      | text | escaped | code left value => exact hkeeps
    obtain ⟨hnext, hblank, hseparator, htail⟩ := hunfolded
    have hblanks : ∀ ws, (∀ d ∈ s.head?, ¬IsSeparator d) →
        scanFlow (.blanks ws) (s.flatMap jsonChar ++ '"' :: rest) = some (ws ++ s, rest) :=
      fun ws hhead => @ih (.blanks ws) trivial trivial ⟨fun _ => hhead, htail⟩
    have hbreaks : ∀ b more, b ≠ '\n' → s.head? ≠ some ' ' →
        scanFlow (.breaks (some b) more) (s.flatMap jsonChar ++ '"' :: rest)
          = some (b :: more ++ s, rest) := by
      intro b more hb hhead
      have hscan := @ih (.breaks (some b) more) trivial ⟨b, rfl, hb⟩ ⟨hhead, htail⟩
      rwa [FlowState.flush, if_pos hb] at hscan
    obtain ⟨rfl, hstep⟩ | ⟨hc, hstep⟩ | ⟨-, hstep⟩ := @scanFlow_step st c s rest h <;> rw [hstep]
    · cases st with
      | text => exact hblanks [' '] (hblank rfl)
      | blanks ws =>
        refine (hblanks (ws ++ [' ']) (hblank rfl)).trans ?_
        rw [List.append_assoc]
        rfl
      | breaks first more => exact absurd rfl hkeeps.1
      | escaped | code left value => exact absurd h id
    · have hsep : IsSeparator c := hc.resolve_left hnext
      have hfeed : c ≠ '\n' := by rintro rfl; exact absurd hsep (by decide)
      obtain ⟨hhead, hmark⟩ := hseparator hsep
      rw [hmark, if_neg Bool.false_ne_true, if_neg hnext]
      cases st with
      | text => exact hbreaks c [] hfeed hhead
      | blanks ws =>
        have hws : ws = [] := by
          by_contra hws
          exact hkeeps.1 hws c rfl hsep
        rw [hws]
        exact hbreaks c [] hfeed hhead
      | breaks first more =>
        obtain ⟨b, rfl, hb⟩ := hkept
        refine (hbreaks b (more ++ [c]) hb hhead).trans ?_
        rw [FlowState.flush, if_pos hb]
        simp
      | escaped | code left value => exact absurd h id
    · rw [@ih .text trivial trivial htail]
      simp [readAhead, FlowState.flush]

/-- **A text is read back exactly if it is not folded**, also when blanks at its ends are stripped
from what is read. -/
theorem scanFlow_jsonQuote_iff {space : Char → Bool} (text : List Char)
    (hstrip : strip space text = text) :
    (∃ out, scanFlow .text (text.flatMap jsonChar ++ ['"']) = some (out, []) ∧
      strip space out = text) ↔ Unfolded text := by
  constructor
  · rintro ⟨out, hscan, hout⟩
    have hnext : '\x85' ∉ text := fun hmem => by
      rw [← hout] at hmem
      exact not_mem_of_scanFlow between_text trivial hscan ((sublist_strip space out).subset hmem)
    refine @keeps_of_length_le .text text [] out [] between_text hnext hscan ?_
    rw [FlowState.pending, Nat.zero_add]
    conv_lhs => rw [← hout]
    exact (sublist_strip space out).length_le
  · intro h
    refine ⟨text, ?_, hstrip⟩
    exact scanFlow_of_keeps between_text trivial h

end RoundTrip

end BareAnalysis
