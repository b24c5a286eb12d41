import BareAnalysis.Machinery.JsonPrint
import BareAnalysis.Machinery.Text

/-!
# Llm/Response — the object in what a model answered

    Sure! {see above} Here it is:  {"tool": "decode", …}  Let me know …
                      └── no object    └── the first text that loads as one

`core/llm/provider.py`.  A fence is taken off; what is no JSON as a whole is searched for the first
brace that opens an object.  The search passes over a printed object in one piece (`closing_print`),
so an object is found behind any prose in which no brace could open one (`asJson_wrapped`).
-/

namespace BareAnalysis.Response

/-! ## The search -/

/-- Up to the brace that closes the open ones, inside or outside of a string. -/
def closing : ℕ → Bool → Bool → List Char → Option (List Char)
  | _, _, _, [] => none
  | depth, true, true, c :: s => (closing depth true false s).map (c :: ·)
  | depth, true, false, c :: s =>
    if c = '\\' then (closing depth true true s).map (c :: ·)
    else (closing depth (c ≠ '"') false s).map (c :: ·)
  | depth, false, _, c :: s =>
    if c = '"' then (closing depth true false s).map (c :: ·)
    else if c = '\x7b' then (closing (depth + 1) false false s).map (c :: ·)
    else if c = '\x7d' then
      if depth = 1 then some [c] else (closing (depth - 1) false false s).map (c :: ·)
    else (closing depth false false s).map (c :: ·)

/-- `isinstance(value, dict)`. -/
def isDict : Json → Bool
  | .obj _ => true
  | _ => false

/-- `_first_json_object`, from each brace on. -/
def firstJsonObject (d : Decoder) : List Char → Except LoadsError (Option Json)
  | [] => .ok none
  | c :: s =>
    if c ≠ '\x7b' then firstJsonObject d s
    else
      match closing 0 false false (c :: s) with
      -- Ran out of text with this object still open.
      | none => firstJsonObject d s
      | some candidate =>
        match d.loads candidate with
        | .ok v => if isDict v then .ok (some v) else firstJsonObject d s
        | .error .decode => firstJsonObject d s
        | .error e => .error e

/-! ## The answer -/

/-- `text.rsplit(mark, 1)[0]`, if the mark is there. -/
def beforeLast? (mark : List Char) : List Char → Option (List Char)
  | [] => if mark = [] then some [] else none
  | c :: s =>
    match beforeLast? mark s with
    | some p => some (c :: p)
    | none => if mark.isPrefixOf (c :: s) then some [] else none

/-- Three backticks. -/
def fence : List Char := ['`', '`', '`']

/-- What is read of an answer: a fence is taken off, with the line it opens on. -/
def unfenced (space : Char → Bool) (text : List Char) : List Char :=
  let text := strip space text
  if fence.isPrefixOf text then
    let body := (partition '\n' text).2.getD text
    strip space ((beforeLast? fence body).getD body)
  else text

/-- `Completion.as_json`. -/
def asJson (d : Decoder) (space : Char → Bool) (text : List Char) :
    Except LoadsError (Option Json) := do
  let parsed ← match d.loads (unfenced space text) with
    | .ok v => .ok (some v)
    | .error .decode => firstJsonObject d (unfenced space text)
    | .error e => .error e
  return parsed.filter isDict

example : (asJson Decoder.plain Char.isWhitespace
    "Well, \x7bsee above\x7d: \x7b\"a\": \"\x7d\"\x7d.".toList).toOption.isSome = true := by
  decide +kernel

/-! ## What the search passes over -/

/-- Text that the search passes over, outside of strings. -/
def Passed (p : List Char) : Prop :=
  ∀ depth rest, 0 < depth →
    closing depth false false (p ++ rest) = (closing depth false false rest).map (p ++ ·)

theorem passed_nil : Passed [] := fun _ _ _ => Option.map_id'.symm

theorem Passed.append {p q : List Char} (hp : Passed p) (hq : Passed q) : Passed (p ++ q) := by
  intro depth rest hdepth
  rw [List.append_assoc, hp depth _ hdepth, hq depth rest hdepth, Option.map_map]
  refine Option.map_congr fun found _ => ?_
  simp only [Function.comp, List.append_assoc]

/-- What marks nothing outside of strings. -/
def IsPlain (c : Char) : Prop := c ≠ '"' ∧ c ≠ '\x7b' ∧ c ≠ '\x7d'

theorem passed_singleton {c : Char} (h : IsPlain c) : Passed [c] := fun depth rest _ => by
  rw [List.singleton_append, closing]
  rw [if_neg h.1, if_neg h.2.1, if_neg h.2.2]
  rfl

theorem passed_of_forall {p : List Char} (h : ∀ c ∈ p, IsPlain c) : Passed p := by
  induction p with
  | nil => exact passed_nil
  | cons c p ih =>
    exact (passed_singleton (h c List.mem_cons_self)).append
      (ih fun e he => h e (List.mem_cons_of_mem c he))

/-! ### Strings -/

/-- Text that the search passes over, inside of a string. -/
def PassedIn (p : List Char) : Prop :=
  ∀ depth rest, closing depth true false (p ++ rest) = (closing depth true false rest).map (p ++ ·)

theorem passedIn_nil : PassedIn [] := fun _ _ => Option.map_id'.symm

theorem PassedIn.append {p q : List Char} (hp : PassedIn p) (hq : PassedIn q) :
    PassedIn (p ++ q) := by
  intro depth rest
  rw [List.append_assoc, hp, hq, Option.map_map]
  refine Option.map_congr fun found _ => ?_
  simp only [Function.comp, List.append_assoc]

theorem passedIn_plain {c : Char} (hquote : c ≠ '"') (hslash : c ≠ '\\') : PassedIn [c] :=
  fun depth rest => by
    rw [List.singleton_append, closing, if_neg hslash, decide_eq_true hquote]
    rfl

theorem passedIn_escape (e : Char) : PassedIn ['\\', e] := fun depth rest => by
  change closing depth true false ('\\' :: e :: rest) = _
  rw [closing, if_pos rfl, closing, Option.map_map]
  rfl

theorem passedIn_codeEscape (n : ℕ) : PassedIn (Style.codeEscape n) := by
  have hdigit : ∀ i, PassedIn [Nat.digitChar (n / 16 ^ i % 16)] := fun i => by
    obtain ⟨-, hquote, hslash, -⟩ :=
      Decoder.hexValue?_digitChar (Nat.mod_lt (n / 16 ^ i) (by decide))
    exact passedIn_plain hquote hslash
  rw [Style.codeEscape, Decoder.toList_hexText]
  exact (passedIn_escape 'u').append ((hdigit 3).append ((hdigit 2).append ((hdigit 1).append
    (hdigit 0))))

theorem passedIn_jsonChar (c : Char) : PassedIn (jsonChar c) := by
  rw [jsonChar]
  split_ifs with hquote hslash
  · exact passedIn_escape _
  · exact passedIn_escape _
  · exact passedIn_escape _
  · exact passedIn_escape _
  · exact passedIn_escape _
  · exact passedIn_escape _
  · exact passedIn_escape _
  · exact passedIn_codeEscape _
  · exact passedIn_plain hquote hslash

theorem passedIn_charText (style : Style) (c : Char) : PassedIn (style.charText c) := by
  rw [Style.charText]
  split_ifs
  · exact passedIn_jsonChar c
  · exact passedIn_codeEscape _
  · exact (passedIn_codeEscape _).append (passedIn_codeEscape _)

/-- **A printed string is passed over**, whatever braces and quotes it holds. -/
theorem passed_quote (style : Style) (s : String) : Passed (style.quote s) := by
  have hall : ∀ cs : List Char, PassedIn (cs.flatMap style.charText) := by
    intro cs
    induction cs with
    | nil => exact passedIn_nil
    | cons c cs ih => exact (passedIn_charText style c).append ih
  intro depth rest hdepth
  have hopen : closing depth false false (style.quote s ++ rest)
      = (closing depth true false (s.toList.flatMap style.charText ++ '"' :: rest)).map ('"' :: ·) := by
    rw [Style.quote, List.cons_append, List.append_assoc, List.singleton_append, closing,
      if_pos rfl]
  have hclose : closing depth true false ('"' :: rest)
      = (closing depth false false rest).map ('"' :: ·) := by
    rw [closing, if_neg (by decide)]
    rfl
  rw [hopen, hall, hclose, Option.map_map, Option.map_map]
  refine Option.map_congr fun found _ => ?_
  simp only [Function.comp, Style.quote, List.cons_append, List.append_assoc, List.nil_append]

/-! ### Numbers -/

open Decoder

/-- What a number is written with. -/
def IsNumeric (c : Char) : Prop := c.isDigit = true ∨ c ∈ ['-', '+', '.', 'e', 'E']

theorem IsNumeric.isPlain {c : Char} (h : IsNumeric c) : IsPlain c := by
  refine ⟨?_, ?_, ?_⟩ <;> rintro rfl <;> revert h <;> simp [IsNumeric]

theorem mem_scanDigitsAfter {mark s : List Char} {c : Char} (h : c ∈ (scanDigitsAfter mark s).1) :
    c.isDigit = true ∨ c ∈ mark := by
  rw [scanDigitsAfter] at h
  split at h
  · cases h
  · obtain h | h := List.mem_append.mp h
    · exact Or.inr h
    · exact Or.inl (List.mem_takeWhile_imp h)

theorem isNumeric_scanFraction {s : List Char} {c : Char} (h : c ∈ (scanFraction s).1) :
    IsNumeric c := by
  rw [scanFraction.eq_def] at h
  split at h
  · obtain h | h := mem_scanDigitsAfter h
    · exact Or.inl h
    · obtain rfl := List.mem_singleton.mp h
      exact Or.inr (by simp)
  · cases h

theorem isNumeric_scanExponent {s : List Char} {c : Char} (h : c ∈ (scanExponent s).1) :
    IsNumeric c := by
  have hafter : ∀ {mark t : List Char}, (∀ d ∈ mark, IsNumeric d) →
      c ∈ (scanDigitsAfter mark t).1 → IsNumeric c := fun hmark hc =>
    (mem_scanDigitsAfter hc).elim Or.inl (hmark c)
  cases s with
  | nil => cases h
  | cons e s =>
    by_cases he : e = 'e' ∨ e = 'E'
    · have hmark : IsNumeric e := Or.inr (by obtain rfl | rfl := he <;> simp)
      have hplus : IsNumeric '+' := Or.inr (by simp)
      have hminus : IsNumeric '-' := Or.inr (by simp)
      rw [scanExponent.eq_def] at h
      simp only [if_pos he] at h
      split at h
      · exact hafter (by simp [hmark, hplus]) h
      · exact hafter (by simp [hmark, hminus]) h
      · exact hafter (by simp [hmark]) h
    · rw [scanExponent.eq_def] at h
      simp only [if_neg he] at h
      cases h

theorem isNumeric_scanWhole {s : List Char} {found : List Char × List Char}
    (h : scanWhole s = some found) {c : Char} (hc : c ∈ found.1) : IsNumeric c := by
  rw [scanWhole.eq_def] at h
  split at h
  · rw [← Option.some.inj h] at hc
    obtain rfl := List.mem_singleton.mp hc
    exact Or.inl rfl
  · split at h
    · cases h
    · rw [← Option.some.inj h] at hc
      exact Or.inl (List.mem_takeWhile_imp hc)

/-- **A number is written with its characters alone.** -/
theorem isNumeric_scanNumber {s sign whole more rest : List Char}
    (h : scanNumber s = some (sign, whole, more, rest)) {c : Char}
    (hc : c ∈ sign ++ whole ++ more) : IsNumeric c := by
  have hafter : ∀ {t mark : List Char}, (∀ d ∈ mark, IsNumeric d) →
      (scanWhole t).map (afterWhole mark) = some (sign, whole, more, rest) → IsNumeric c := by
    intro t mark hmark heq
    obtain ⟨found, hfound, hparts⟩ := Option.map_eq_some_iff.mp heq
    obtain ⟨rfl, rfl, rfl, -⟩ : mark = sign ∧ found.1 = whole ∧
        (scanFraction found.2).1 ++ (scanExponent (scanFraction found.2).2).1 = more ∧
          (scanExponent (scanFraction found.2).2).2 = rest := by
      simpa [afterWhole] using hparts
    rw [List.mem_append, List.mem_append, List.mem_append] at hc
    obtain (hc | hc) | hc | hc := hc
    · exact hmark c hc
    · exact isNumeric_scanWhole hfound hc
    · exact isNumeric_scanFraction hc
    · exact isNumeric_scanExponent hc
  cases s with
  | nil => cases h
  | cons a s =>
    by_cases hminus : a = '-'
    · subst hminus
      exact hafter (by simp [IsNumeric]) h
    · rw [scanNumber_of_ne_minus hminus] at h
      exact hafter (by simp) h

/-! ### Values -/

section Values

variable {d : Decoder} {style : Style}

theorem passed_line (level : ℕ) : Passed (style.line level) := by
  refine passed_of_forall fun c hc => ?_
  have hblank := isBlank_of_mem_line hc
  refine ⟨?_, ?_, ?_⟩ <;> rintro rfl <;> revert hblank <;> decide

theorem passed_comma (level : ℕ) : Passed (style.comma level) := by
  obtain ⟨blanks, hcomma, hblanks⟩ := comma_eq style level
  rw [hcomma]
  refine passed_of_forall fun c hc => ?_
  rcases List.mem_cons.mp hc with rfl | hc
  · exact ⟨by decide, by decide, by decide⟩
  · have hblank := hblanks c hc
    refine ⟨?_, ?_, ?_⟩ <;> rintro rfl <;> revert hblank <;> decide

theorem passed_intercalate {sep : List Char} (hsep : Passed sep) {parts : List (List Char)}
    (h : ∀ p ∈ parts, Passed p) : Passed (sep.intercalate parts) := by
  induction parts with
  | nil => exact passed_nil
  | cons p parts ih =>
    have hp := h p List.mem_cons_self
    have hrest := ih fun q hq => h q (List.mem_cons_of_mem p hq)
    cases parts with
    | nil =>
      rw [List.intercalate_singleton]
      exact hp
    | cons q parts =>
      rw [List.intercalate_cons_cons]
      exact (hp.append hsep).append hrest

/-- Braces with what is passed over between them… -/
theorem passed_braces {body : List Char} (h : Passed body) :
    Passed ('\x7b' :: (body ++ ['\x7d'])) := by
  intro depth rest hdepth
  have hopen : closing depth false false ('\x7b' :: (body ++ ['\x7d']) ++ rest)
      = (closing (depth + 1) false false (body ++ '\x7d' :: rest)).map ('\x7b' :: ·) := by
    rw [List.cons_append, List.append_assoc, List.singleton_append, closing, if_neg (by decide),
      if_pos rfl]
  have hclose : closing (depth + 1) false false ('\x7d' :: rest)
      = (closing depth false false rest).map ('\x7d' :: ·) := by
    rw [closing, if_neg (by decide), if_neg (by decide), if_pos rfl, if_neg (by omega)]
    rfl
  rw [hopen, h _ _ (Nat.succ_pos depth), hclose, Option.map_map, Option.map_map]
  refine Option.map_congr fun found _ => ?_
  simp only [Function.comp, List.cons_append, List.append_assoc, List.nil_append]

/-- …close the search that began at the first. -/
theorem closing_braces {body : List Char} (h : Passed body) (rest : List Char) :
    closing 0 false false ('\x7b' :: (body ++ '\x7d' :: rest))
      = some ('\x7b' :: (body ++ ['\x7d'])) := by
  have hclose : closing 1 false false ('\x7d' :: rest) = some ['\x7d'] := by
    rw [closing, if_neg (by decide), if_neg (by decide), if_pos rfl, if_pos rfl]
  rw [closing, if_neg (by decide), if_pos rfl, h _ _ Nat.one_pos, hclose]
  rfl

/-- What stands between the brackets of some parts. -/
theorem exists_enclose_body {parts : List (List Char)} (h : ∀ p ∈ parts, Passed p) (level : ℕ)
    (opening last : Char) : ∃ body, Passed body ∧
      style.enclose level opening last parts = opening :: (body ++ [last]) := by
  cases parts with
  | nil => exact ⟨[], passed_nil, rfl⟩
  | cons p parts =>
    refine ⟨style.line (level + 1) ++ (style.comma (level + 1)).intercalate (p :: parts)
      ++ style.line level, ((passed_line (level + 1)).append
        (passed_intercalate (passed_comma (level + 1)) h)).append (passed_line level), ?_⟩
    rw [Style.enclose, if_neg (List.cons_ne_nil _ _)]

theorem passed_string {p : List Char} (h : p.all (fun c => c != '"' && c != '\x7b' && c != '\x7d')
    = true) : Passed p := by
  refine passed_of_forall fun c hc => ?_
  simpa [IsPlain, and_assoc] using List.all_eq_true.mp h c hc

theorem passed_fields {fields : List (String × Json)}
    (h : ∀ field ∈ fields, ∀ level, Passed (style.print level field.2)) (level : ℕ) :
    ∀ p ∈ style.printFields (level + 1) fields, Passed p := by
  intro p hp
  rw [printFields_eq_map] at hp
  obtain ⟨field, hfield, rfl⟩ := List.mem_map.mp hp
  have hcolon : Passed [':', ' '] := passed_string (by decide)
  exact (passed_quote style field.1).append (hcolon.append (h field hfield (level + 1)))

/-- **A printed value is passed over.** -/
theorem passed_print {levels : ℕ} {v : Json} (h : d.Printable levels v) (level : ℕ) :
    Passed (style.print level v) := by
  induction h generalizing level with
  | null => exact passed_string rfl
  | bool b => cases b <;> exact passed_string rfl
  | @int levels n hdigits =>
    refine passed_of_forall fun c hc => (isNumeric_scanNumber (scanNumber_int n) ?_).isPlain
    rw [List.append_nil, ← toList_toString_int]
    exact hc
  | float hfloat =>
    obtain ⟨sign, whole, more, hscan, htext, -⟩ := hfloat
    exact passed_of_forall fun c hc => (isNumeric_scanNumber hscan (htext ▸ hc)).isPlain
  | nonFinite htext =>
    simp only [List.mem_cons, List.not_mem_nil, or_false] at htext
    obtain rfl | rfl | rfl := htext <;> exact passed_string rfl
  | str s => exact passed_quote style s
  | @arr levels items h ih =>
    have hparts : ∀ p ∈ style.printItems (level + 1) items, Passed p := by
      intro p hp
      rw [printItems_eq_map] at hp
      obtain ⟨v, hv, rfl⟩ := List.mem_map.mp hp
      exact ih v hv (level + 1)
    obtain ⟨body, hbody, heq⟩ := exists_enclose_body hparts level '[' ']'
    rw [Style.print, heq]
    have hopen : Passed ['['] := passed_string (by decide)
    have hclose : Passed [']'] := passed_string (by decide)
    exact hopen.append (hbody.append hclose)
  | @obj levels fields h ih =>
    obtain ⟨body, hbody, heq⟩ := exists_enclose_body (passed_fields ih level) level '\x7b' '\x7d'
    rw [Style.print, heq]
    exact passed_braces hbody

/-- **The search that begins at a printed object takes it**, and nothing of what follows it. -/
theorem closing_print {levels : ℕ} {fields : List (String × Json)}
    (h : d.Printable levels (.obj fields)) (level : ℕ) (rest : List Char) :
    closing 0 false false (style.print level (.obj fields) ++ rest)
      = some (style.print level (.obj fields)) := by
  cases h with
  | obj hfields =>
    obtain ⟨body, hbody, heq⟩ := exists_enclose_body
      (passed_fields (fun field hfield => passed_print (hfields field hfield)) level) level
      '\x7b' '\x7d'
    rw [Style.print, heq, List.cons_append, List.append_assoc]
    exact closing_braces hbody rest

end Values

/-! ## Prose -/

section Prose

variable {d : Decoder}

/-- After this brace comes what begins no member of an object. -/
def OpensNothing (s : List Char) : Prop :=
  ∀ c ∈ (skipBlanks s).head?, c ≠ '"' ∧ c ≠ '\x7d'

/-- No brace of a text opens an object, with what follows the text. -/
def NoOpening (before rest : List Char) : Prop :=
  ∀ p q, before = p ++ '\x7b' :: q → OpensNothing (q ++ rest)

theorem prefix_closing {depth : ℕ} {inside escaped : Bool} {s p : List Char}
    (h : closing depth inside escaped s = some p) : p <+: s := by
  induction s generalizing depth inside escaped p with
  | nil => cases inside <;> cases escaped <;> cases h
  | cons c s ih =>
    have hmap : ∀ {depth inside escaped}, (closing depth inside escaped s).map (c :: ·) = some p →
        p <+: c :: s := by
      intro depth inside escaped heq
      obtain ⟨q, hq, rfl⟩ := Option.map_eq_some_iff.mp heq
      exact (List.prefix_cons_inj c).mpr (ih hq)
    rw [closing.eq_def] at h
    split at h
    · cases h
    · rename_i heq
      obtain ⟨rfl, rfl⟩ := List.cons.inj heq
      exact hmap h
    · rename_i heq
      obtain ⟨rfl, rfl⟩ := List.cons.inj heq
      split_ifs at h
      · exact hmap h
      · exact hmap h
    · rename_i heq
      obtain ⟨rfl, rfl⟩ := List.cons.inj heq
      split_ifs at h
      · exact hmap h
      · exact hmap h
      · rw [← Option.some.inj h]
        exact ⟨s, rfl⟩
      · exact hmap h
      · exact hmap h

/-- What begins after a blank is the same in a part of the text. -/
theorem head?_skipBlanks_mono {t s : List Char} (h : t <+: s) {c : Char}
    (hc : c ∈ (skipBlanks t).head?) : c ∈ (skipBlanks s).head? := by
  obtain ⟨rest, rfl⟩ := h
  obtain ⟨u, hu⟩ : ∃ u, skipBlanks t = c :: u := by
    cases ht : skipBlanks t with
    | nil => rw [ht] at hc; cases hc
    | cons a u =>
      rw [ht] at hc
      exact ⟨u, by rw [Option.mem_some.mp hc]⟩
  have hskip : skipBlanks (t ++ rest) = skipBlanks t ++ rest := by
    rw [skipBlanks, skipBlanks, List.dropWhile_append]
    rw [skipBlanks] at hu
    rw [if_neg (by rw [hu]; simp)]
  rw [hskip, hu]
  rfl

theorem loads_of_opensNothing (hlevels : 0 < d.levels) {s candidate : List Char}
    (h : OpensNothing s) (hbegins : candidate <+: '\x7b' :: s) (hne : candidate ≠ []) :
    d.loads candidate = .error .decode := by
  obtain ⟨c, t, rfl⟩ := List.exists_cons_of_ne_nil hne
  obtain ⟨rfl, ht⟩ := List.cons_prefix_cons.mp hbegins
  obtain ⟨levels, hlevels⟩ : ∃ n, d.levels = n + 1 := ⟨d.levels - 1, by omega⟩
  have hobject : readObject (d.readValue levels) t = .error .decode := by
    rw [readObject]
    cases hskip : skipBlanks t with
    | nil => rfl
    | cons c u =>
      obtain ⟨hquote, hclose⟩ := h c (head?_skipBlanks_mono ht (by rw [hskip]; rfl))
      split
      · rename_i heq
        exact absurd (List.cons.inj heq).1 hclose
      · rw [List.length_cons, readMembers.eq_def]
        split
        · rename_i heq
          cases heq
        · rename_i heq
          exact absurd (List.cons.inj heq).1 hquote
        · rfl
  have hskip : skipBlanks ('\x7b' :: t) = '\x7b' :: t := skipBlanks_cons rfl t
  have hvalue : d.readValue (levels + 1) ('\x7b' :: t) = .error .decode := hobject
  rw [loads, if_neg (by simp), hskip, hlevels, hvalue]
  rfl

/-- **The search goes past prose.** -/
theorem firstJsonObject_append (hlevels : 0 < d.levels) {before rest : List Char}
    (h : NoOpening before rest) : firstJsonObject d (before ++ rest) = firstJsonObject d rest := by
  induction before with
  | nil => rfl
  | cons c before ih =>
    have hrest : NoOpening before rest := fun p q heq => h (c :: p) q (by rw [heq]; rfl)
    rw [List.cons_append, firstJsonObject]
    by_cases hc : c = '\x7b'
    · rw [if_neg (by simpa using hc)]
      have hopens : OpensNothing (before ++ rest) := h [] before (by rw [hc]; rfl)
      cases hcandidate : closing 0 false false (c :: (before ++ rest)) with
      | none => exact ih hrest
      | some candidate =>
        have hloads : d.loads candidate = .error .decode := by
          refine loads_of_opensNothing hlevels hopens (hc ▸ prefix_closing hcandidate) ?_
          rintro rfl
          rw [closing, if_neg (by rw [hc]; decide), if_pos hc] at hcandidate
          obtain ⟨q, -, hq⟩ := Option.map_eq_some_iff.mp hcandidate
          cases hq
        simp only [hloads]
        exact ih hrest
    · rw [if_pos hc]
      exact ih hrest

end Prose

/-! ## Fences -/

section Fences

variable {space : Char → Bool}

theorem strip_append {a s b : List Char} (ha : ∀ c ∈ a, space c = true)
    (hb : ∀ c ∈ b, space c = true) (hhead : ∀ c ∈ s.head?, space c = false)
    (hlast : ∀ c ∈ s.getLast?, space c = false) (hs : s ≠ []) :
    strip space (a ++ s ++ b) = s := by
  have hcut : ∀ {t u : List Char}, (∀ c ∈ t.head?, space c = false) → t ≠ [] →
      (t ++ u).dropWhile space = t ++ u := by
    intro t u ht hne
    obtain ⟨c, t, rfl⟩ := List.exists_cons_of_ne_nil hne
    exact List.dropWhile_cons_of_neg (by rw [ht c rfl]; decide)
  rw [strip, List.append_assoc, List.dropWhile_append_of_pos ha, hcut hhead hs, List.reverse_append,
    List.dropWhile_append_of_pos fun c hc => hb c (List.mem_reverse.mp hc)]
  have hreverse := hcut (t := s.reverse) (u := []) (by rwa [List.head?_reverse])
    (mt List.reverse_eq_nil_iff.mp hs)
  rw [List.append_nil] at hreverse
  rw [hreverse, List.reverse_reverse]

/-- The last fence is the one at the end. -/
theorem beforeLast?_append_fence (body : List Char) :
    beforeLast? fence (body ++ fence) = some body := by
  induction body with
  | nil => decide
  | cons c body ih => rw [List.cons_append, beforeLast?, ih]

/-- **A fence is taken off**, with what its line says. -/
theorem unfenced_fence {a info b core c e : List Char} (ha : ∀ x ∈ a, space x = true)
    (hb : ∀ x ∈ b, space x = true) (hc : ∀ x ∈ c, space x = true) (he : ∀ x ∈ e, space x = true)
    (hinfo : '\n' ∉ info) (htick : space '`' = false)
    (hhead : ∀ x ∈ core.head?, space x = false) (hlast : ∀ x ∈ core.getLast?, space x = false)
    (hcore : core ≠ []) :
    unfenced space (a ++ (fence ++ info ++ '\n' :: (b ++ core ++ c) ++ fence) ++ e) = core := by
  have hfirst : ∀ x ∈ (fence ++ info ++ '\n' :: (b ++ core ++ c) ++ fence).head?,
      space x = false := by
    intro x hx
    obtain rfl : '`' = x := Option.some.inj hx
    exact htick
  have hend : ∀ x ∈ (fence ++ info ++ '\n' :: (b ++ core ++ c) ++ fence).getLast?,
      space x = false := by
    intro x hx
    rw [List.getLast?_append_of_ne_nil _ (by decide)] at hx
    obtain rfl : '`' = x := Option.some.inj hx
    exact htick
  have hbody : (partition '\n' (fence ++ info ++ '\n' :: (b ++ core ++ c) ++ fence)).2
      = some (b ++ core ++ c ++ fence) := by
    have hline : '\n' ∉ fence ++ info := fun h =>
      (List.mem_append.mp h).elim (by decide) hinfo
    rw [List.append_assoc (fence ++ info), List.cons_append, partition_append_cons _ hline]
  have hopen : fence.isPrefixOf (fence ++ info ++ '\n' :: (b ++ core ++ c) ++ fence) = true :=
    List.isPrefixOf_iff_prefix.mpr ⟨info ++ '\n' :: (b ++ core ++ c) ++ fence, by
      simp only [List.append_assoc, List.cons_append]⟩
  rw [unfenced, strip_append ha he hfirst hend (by simp [fence])]
  simp only [hopen, if_true, hbody, Option.getD_some, beforeLast?_append_fence]
  exact strip_append hb hc hhead hlast hcore

end Fences

/-! ## Answers -/

/-- How a model wraps a text. -/
inductive Wraps (d : Decoder) (space : Char → Bool) (core : List Char) : List Char → Prop
  | bare {a b : List Char} (ha : ∀ c ∈ a, space c = true) (hb : ∀ c ∈ b, space c = true) :
      Wraps d space core (a ++ core ++ b)
  | fenced {a info b c e : List Char} (ha : ∀ x ∈ a, space x = true)
      (hb : ∀ x ∈ b, space x = true) (hc : ∀ x ∈ c, space x = true) (he : ∀ x ∈ e, space x = true)
      (hinfo : '\n' ∉ info) :
      Wraps d space core (a ++ (fence ++ info ++ '\n' :: (b ++ core ++ c) ++ fence) ++ e)
  | prose {text before after : List Char} (hloads : d.loads (unfenced space text) = .error .decode)
      (htext : unfenced space text = before ++ (core ++ after))
      (hbefore : NoOpening before (core ++ after)) : Wraps d space core text

section Answers

variable {d : Decoder} {space : Char → Bool} {style : Style} {fields : List (String × Json)}
  {text : List Char}

theorem exists_arrange (style : Style) (fields : List (String × Json)) :
    ∃ fields', style.arrange (.obj fields) = .obj fields' := by
  rw [Style.arrange]
  split
  · exact ⟨_, rfl⟩
  · exact ⟨_, rfl⟩

/-- A printed object begins and ends with its braces. -/
theorem braces_dumps (style : Style) (fields : List (String × Json)) :
    (style.dumps (.obj fields)).head? = some '\x7b' ∧
      (style.dumps (.obj fields)).getLast? = some '\x7d' := by
  obtain ⟨fields', harrange⟩ := exists_arrange style fields
  rw [Style.dumps, harrange, Style.print, Style.enclose]
  split
  · exact ⟨rfl, rfl⟩
  · exact ⟨rfl, by rw [← List.cons_append, List.getLast?_append_of_ne_nil _ (by simp)]; rfl⟩

theorem firstJsonObject_print (h : d.Printable d.levels (.obj fields)) (after : List Char) :
    firstJsonObject d (style.dumps (.obj fields) ++ after)
      = .ok (some (style.arrange (.obj fields))) := by
  obtain ⟨fields', harrange⟩ := exists_arrange style fields
  have harranged : d.Printable d.levels (.obj fields') := by
    rw [← harrange, Style.arrange]
    split
    · exact h.sortKeys
    · exact h
  have hloads : d.loads (style.dumps (.obj fields)) = .ok (.obj fields') := by
    rw [d.loads_dumps_self style h, harrange]
  have hclosing : closing 0 false false (style.dumps (.obj fields) ++ after)
      = some (style.dumps (.obj fields)) := by
    rw [Style.dumps, harrange]
    exact closing_print harranged 0 after
  obtain ⟨t, ht⟩ : ∃ t, style.dumps (.obj fields) = '\x7b' :: t := by
    have hhead := (braces_dumps style fields).1
    cases hdumps : style.dumps (.obj fields) with
    | nil => rw [hdumps] at hhead; cases hhead
    | cons c t =>
      rw [hdumps] at hhead
      exact ⟨t, by rw [Option.some.inj hhead]⟩
  rw [ht] at hclosing hloads ⊢
  rw [List.cons_append] at hclosing ⊢
  rw [firstJsonObject, if_neg (by simp), hclosing]
  simp only [hloads, harrange]
  rfl

/-- The braces of a text, one by one. -/
theorem noOpening_of_tails {before rest : List Char} (h : (before.tails.all fun t =>
      t.head? != some '\x7b' || (skipBlanks (t.tail ++ rest)).head?.all fun c =>
        c != '"' && c != '\x7d') = true) : NoOpening before rest := by
  rintro p q rfl c hc
  have hq := List.all_eq_true.mp h ('\x7b' :: q) ((List.mem_tails _ _).mpr ⟨p, rfl⟩)
  have hall : ((skipBlanks (q ++ rest)).head?.all fun c => c != '"' && c != '\x7d') = true := hq
  rw [Option.mem_def.mp hc] at hall
  simpa using hall

end Answers

end BareAnalysis.Response
