import Mathlib.Data.List.Forall2
import BareAnalysis.Machinery.JsonText
import BareAnalysis.Machinery.Sorting

/-!
# Machinery/JsonPrint — `json.dumps`, read back by `json.loads`

    value  ──print──▸  {"a": [1, "b"]}  ──loads──▸  the same value

`print` writes a value with or without line ends, with or without characters past ASCII.  What it
writes ends where the value ends, whatever follows (`readValue_print`), so a decoder takes exactly the
value off the front of the text; with sorted keys it takes the same fields in their order
(`field_sortKeys`).
-/

namespace BareAnalysis

/-- How `json.dumps` is called. -/
structure Style where
  /-- `indent`. -/
  indent : Option ℕ := none
  /-- `ensure_ascii`. -/
  ascii : Bool := true
  /-- `sort_keys`. -/
  sorted : Bool := false

/-! ## The order of the keys -/

namespace Json

mutual

/-- A value with the keys of each object in their order… -/
def sortKeys : Json → Json
  | .arr items => .arr (sortItems items)
  | .obj fields => .obj (sortBy Prod.fst (sortFields fields))
  | v => v

/-- …in a list… -/
def sortItems : List Json → List Json
  | [] => []
  | v :: vs => sortKeys v :: sortItems vs

/-- …and in the fields of an object. -/
def sortFields : List (String × Json) → List (String × Json)
  | [] => []
  | (key, v) :: rest => (key, sortKeys v) :: sortFields rest

end

theorem sortItems_eq_map (vs : List Json) : sortItems vs = vs.map sortKeys := by
  induction vs with
  | nil => rfl
  | cons v vs ih => rw [sortItems, ih, List.map_cons]

theorem sortFields_eq_map (fields : List (String × Json)) :
    sortFields fields = fields.map fun field => (field.1, field.2.sortKeys) := by
  induction fields with
  | nil => rfl
  | cons field fields ih => rw [sortFields, ih, List.map_cons]

/-- **The order of the assignments does not matter** if no key is assigned twice. -/
theorem get?_eq_of_perm {κ β : Type*} [DecidableEq κ] {d d' : Dict κ β} (h : d.Perm d')
    (hnd : (d.map Prod.fst).Nodup) (key : κ) : Dict.get? d key = Dict.get? d' key := by
  have hsame : ∀ {e : Dict κ β}, (e.map Prod.fst).Nodup → ∀ v, (key, v) ∈ e →
      Dict.get? e key = some v := by
    intro e he v hv
    obtain ⟨w, hw⟩ := Dict.exists_get?_of_mem hv
    have heq := List.inj_on_of_nodup_map he (Dict.mem_of_get?_eq_some hw) hv rfl
    obtain rfl : w = v := congrArg Prod.snd heq
    exact hw
  cases hd : Dict.get? d key with
  | some v =>
    have hv := h.mem_iff.mp (Dict.mem_of_get?_eq_some hd)
    exact (hsame ((h.map Prod.fst).nodup_iff.mp hnd) v hv).symm
  | none =>
    refine Eq.symm (Option.eq_none_iff_forall_ne_some.mpr fun v hv => ?_)
    rw [hsame hnd v (h.mem_iff.mpr (Dict.mem_of_get?_eq_some hv))] at hd
    cases hd

/-- **A key finds its value**, sorted, in an object with sorted keys. -/
theorem get?_sortKeys {fields : List (String × Json)} (hnd : (fields.map Prod.fst).Nodup)
    (key : String) : Dict.get? (sortBy Prod.fst (sortFields fields)) key
      = (Dict.get? fields key).map sortKeys := by
  have hkeys : ((sortFields fields).map Prod.fst) = fields.map Prod.fst := by
    rw [sortFields_eq_map, List.map_map]
    rfl
  rw [← get?_eq_of_perm (sortBy_perm Prod.fst (sortFields fields)).symm (hkeys ▸ hnd),
    sortFields_eq_map]
  exact Dict.get?_mapValues fields sortKeys key

end Json

/-! ## Printing -/

namespace Style

/-- `\u` and four digits. -/
def codeEscape (n : ℕ) : List Char := '\\' :: 'u' :: (Json.hexText 4 n).toList

/-- One character of a string. -/
def charText (style : Style) (c : Char) : List Char :=
  if style.ascii = false ∨ c.toNat < 127 then jsonChar c
  else if c.toNat < 0x10000 then codeEscape c.toNat
  else codeEscape (0xD800 + (c.toNat - 0x10000) / 0x400)
    ++ codeEscape (0xDC00 + (c.toNat - 0x10000) % 0x400)

/-- A string. -/
def quote (style : Style) (s : String) : List Char :=
  '"' :: (s.toList.flatMap style.charText ++ ['"'])

/-- A line end and the blanks of the next line. -/
def line (style : Style) (level : ℕ) : List Char :=
  match style.indent with
  | some n => '\n' :: List.replicate (n * level) ' '
  | none => []

/-- What stands between two items: a comma, and a blank or a line end. -/
def comma (style : Style) (level : ℕ) : List Char :=
  ',' :: if style.indent = none then [' '] else style.line level

/-- Items between brackets. -/
def enclose (style : Style) (level : ℕ) (opening closing : Char) (items : List (List Char)) :
    List Char :=
  if items = [] then [opening, closing]
  else opening :: (style.line (level + 1) ++ (style.comma (level + 1)).intercalate items
    ++ style.line level ++ [closing])

/-- `NaN` and the infinities. -/
def nonFiniteText (text : String) : List Char :=
  (if text = "nan" then "NaN" else if text = "inf" then "Infinity" else "-Infinity").toList

mutual

/-- A value, whose items are so deep. -/
def print (style : Style) (level : ℕ) : Json → List Char
  | .null => "null".toList
  | .bool b => (if b then "true" else "false").toList
  | .int n => (toString n).toList
  | .float _ text => text.toList
  | .nonFinite text => nonFiniteText text
  | .str s => style.quote s
  | .arr items => style.enclose level '[' ']' (printItems style (level + 1) items)
  | .obj fields => style.enclose level '\x7b' '\x7d' (printFields style (level + 1) fields)

/-- …the items of an array… -/
def printItems (style : Style) (level : ℕ) : List Json → List (List Char)
  | [] => []
  | v :: vs => print style level v :: printItems style level vs

/-- …and the fields of an object. -/
def printFields (style : Style) (level : ℕ) : List (String × Json) → List (List Char)
  | [] => []
  | (key, v) :: rest =>
    (style.quote key ++ ':' :: ' ' :: print style level v) :: printFields style level rest

end

/-- The value as it is printed. -/
def arrange (style : Style) (v : Json) : Json := if style.sorted then v.sortKeys else v

/-- `json.dumps`. -/
def dumps (style : Style) (v : Json) : List Char := style.print 0 (style.arrange v)

example : ({ indent := some 2 } : Style).dumps (.obj [("é", .arr [.int 1, .obj []])])
    = "\x7b\n  \"\\u00e9\": [\n    1,\n    \x7b\x7d\n  ]\n\x7d".toList := by
  decide +kernel

end Style

namespace Decoder

open Style

/-! ## Strings, read back -/

/-- Text that stays inside of its string. -/
def Inside (p : List Char) : Prop :=
  ∀ rest, scanString (p ++ rest) = (scanString rest).map fun found => (p ++ found.1, found.2)

/-- Text that is read as some units. -/
def ReadAs (p : List Char) (units : List (Char ⊕ ℕ)) : Prop :=
  ∀ rest, unescape (p ++ rest) = (unescape rest).map (units ++ ·)

/-- Text that stands for a character. -/
def Renders (p : List Char) (c : Char) : Prop :=
  Inside p ∧ ∃ units, ReadAs p units ∧ ∀ us, joinCodes (units ++ us) = c :: joinCodes us

theorem inside_nil : Inside [] := fun rest => by
  rw [List.nil_append]
  exact Option.map_id'.symm

theorem Inside.append {p q : List Char} (hp : Inside p) (hq : Inside q) : Inside (p ++ q) := by
  intro rest
  rw [List.append_assoc, hp, hq, Option.map_map]
  refine Option.map_congr fun found _ => ?_
  simp only [Function.comp, List.append_assoc]

theorem ReadAs.append {p q : List Char} {us vs : List (Char ⊕ ℕ)} (hp : ReadAs p us)
    (hq : ReadAs q vs) : ReadAs (p ++ q) (us ++ vs) := by
  intro rest
  rw [List.append_assoc, hp, hq, Option.map_map]
  refine Option.map_congr fun found _ => ?_
  simp only [Function.comp, List.append_assoc]

theorem inside_plain {c : Char} (hquote : c ≠ '"') (hslash : c ≠ '\\') (hcontrol : 32 ≤ c.toNat) :
    Inside [c] := fun rest => by
  rw [List.singleton_append, scanString.eq_def]
  simp only [if_neg hquote, if_neg hslash, if_neg (not_lt.mpr hcontrol), List.singleton_append]

theorem inside_escape (e : Char) : Inside ['\\', e] := fun rest => by
  change scanString ('\\' :: e :: rest) = _
  rw [scanString, if_neg (by decide), if_pos rfl]
  rfl

theorem readAs_plain {c : Char} (h : c ≠ '\\') : ReadAs [c] [.inl c] := fun rest => by
  rw [List.singleton_append, unescape.eq_def]
  simp only [if_pos h, List.singleton_append]

theorem readAs_escape {e c : Char} (hu : e ≠ 'u') (h : escaped? e = some c) :
    ReadAs ['\\', e] [.inl c] := fun rest => by
  change unescape ('\\' :: e :: rest) = _
  rw [unescape, if_neg (by simp)]
  · simp only [h]
    cases unescape rest <;> rfl
  · exact hu

/-- A hexadecimal digit is read back, and is no mark of a string. -/
theorem hexValue?_digitChar {n : ℕ} (h : n < 16) : hexValue? (Nat.digitChar n) = some n ∧
    Nat.digitChar n ≠ '"' ∧ Nat.digitChar n ≠ '\\' ∧ 32 ≤ (Nat.digitChar n).toNat := by
  have hall : ∀ n < 16, hexValue? (Nat.digitChar n) = some n ∧ Nat.digitChar n ≠ '"' ∧
      Nat.digitChar n ≠ '\\' ∧ 32 ≤ (Nat.digitChar n).toNat := by
    decide
  exact hall n h

theorem toList_hexText (n : ℕ) : (Json.hexText 4 n).toList = [Nat.digitChar (n / 16 ^ 3 % 16),
    Nat.digitChar (n / 16 ^ 2 % 16), Nat.digitChar (n / 16 ^ 1 % 16),
    Nat.digitChar (n / 16 ^ 0 % 16)] := by
  rw [Json.hexText, String.toList_ofList]
  rfl

theorem inside_codeEscape (n : ℕ) : Inside (codeEscape n) := by
  have hdigit : ∀ i, Inside [Nat.digitChar (n / 16 ^ i % 16)] := fun i => by
    obtain ⟨-, hquote, hslash, hcontrol⟩ := hexValue?_digitChar (Nat.mod_lt (n / 16 ^ i) (by decide))
    exact inside_plain hquote hslash hcontrol
  rw [codeEscape, toList_hexText]
  exact (inside_escape 'u').append ((hdigit 3).append ((hdigit 2).append ((hdigit 1).append
    (hdigit 0))))

/-- **A code is read back.** -/
theorem readAs_codeEscape {n : ℕ} (h : n < 0x10000) : ReadAs (codeEscape n) [.inr n] := by
  intro rest
  have hvalue : ∀ i, hexValue? (Nat.digitChar (n / 16 ^ i % 16)) = some (n / 16 ^ i % 16) :=
    fun i => (hexValue?_digitChar (Nat.mod_lt _ (by decide))).1
  have hsum : 16 * (16 * (16 * (16 * 0 + n / 16 ^ 3 % 16) + n / 16 ^ 2 % 16) + n / 16 ^ 1 % 16)
      + n / 16 ^ 0 % 16 = n := by omega
  have hcode : [Nat.digitChar (n / 16 ^ 3 % 16), Nat.digitChar (n / 16 ^ 2 % 16),
      Nat.digitChar (n / 16 ^ 1 % 16), Nat.digitChar (n / 16 ^ 0 % 16)].foldlM
        (fun n h => (hexValue? h).map (16 * n + ·)) 0 = some n := by
    simp only [List.foldlM_cons, List.foldlM_nil, hvalue, Option.map_some, bind, Option.bind, pure,
      hsum]
  rw [codeEscape, toList_hexText]
  change unescape ('\\' :: 'u' :: _ :: _ :: _ :: _ :: rest) = _
  rw [unescape, if_neg (by simp)]
  simp only [hcode]
  cases unescape rest <;> rfl

theorem renders_plain {c : Char} (hquote : c ≠ '"') (hslash : c ≠ '\\') (hcontrol : 32 ≤ c.toNat) :
    Renders [c] c :=
  ⟨inside_plain hquote hslash hcontrol, _, readAs_plain hslash, fun _ => rfl⟩

/-- No character is half of a pair. -/
theorem not_half (c : Char) : ¬(0xD800 ≤ c.toNat ∧ c.toNat ≤ 0xDFFF) := by
  have hvalid := c.valid
  rw [UInt32.isValidChar, Nat.isValidChar] at hvalid
  change ¬(0xD800 ≤ c.val.toNat ∧ c.val.toNat ≤ 0xDFFF)
  omega

theorem renders_code {c : Char} (h : c.toNat < 0x10000) : Renders (codeEscape c.toNat) c := by
  refine ⟨inside_codeEscape _, _, readAs_codeEscape h, fun us => ?_⟩
  have hhalf := not_half c
  have hcode : codeChar c.toNat = c := by
    rw [codeChar, if_neg hhalf, Char.ofNat_toNat]
  cases us with
  | nil => exact congrArg (· :: []) hcode
  | cons u us =>
    cases u with
    | inl d => exact congrArg (· :: d :: joinCodes us) hcode
    | inr low =>
      change joinCodes (.inr c.toNat :: .inr low :: us) = _
      rw [joinCodes, if_neg (by omega), hcode]

/-- **A character past `U+FFFF` is read back from its pair.** -/
theorem renders_pair {c : Char} (h : 0x10000 ≤ c.toNat) :
    Renders (codeEscape (0xD800 + (c.toNat - 0x10000) / 0x400)
      ++ codeEscape (0xDC00 + (c.toNat - 0x10000) % 0x400)) c := by
  have hbound : c.toNat < 0x110000 := by
    have hvalid := c.valid
    rw [UInt32.isValidChar, Nat.isValidChar] at hvalid
    change c.val.toNat < 0x110000
    omega
  refine ⟨(inside_codeEscape _).append (inside_codeEscape _), _,
    (readAs_codeEscape (by omega)).append (readAs_codeEscape (by omega)), fun us => ?_⟩
  have hvalue : 0x10000 + (0xD800 + (c.toNat - 0x10000) / 0x400 - 0xD800) * 0x400
      + (0xDC00 + (c.toNat - 0x10000) % 0x400 - 0xDC00) = c.toNat := by omega
  change joinCodes (.inr _ :: .inr _ :: us) = _
  rw [joinCodes, if_pos (by omega), hvalue, Char.ofNat_toNat]

theorem renders_jsonChar (c : Char) : Renders (jsonChar c) c := by
  have hescape : ∀ e d : Char, e ≠ 'u' → escaped? e = some d → Renders ['\\', e] d :=
    fun e d hu h => ⟨inside_escape e, _, readAs_escape hu h, fun _ => rfl⟩
  rw [jsonChar]
  split_ifs with hquote hslash hfeed hreturn htab hform hback hcontrol
  · rw [hquote]
    exact hescape _ _ (by decide) rfl
  · rw [hslash]
    exact hescape _ _ (by decide) rfl
  · rw [hfeed]
    exact hescape _ _ (by decide) rfl
  · rw [hreturn]
    exact hescape _ _ (by decide) rfl
  · rw [htab]
    exact hescape _ _ (by decide) rfl
  · rw [hform]
    exact hescape _ _ (by decide) rfl
  · rw [hback]
    exact hescape _ _ (by decide) rfl
  · exact renders_code (by omega)
  · exact renders_plain hquote hslash (not_lt.mp hcontrol)

/-- **Every character is read back**, however it is written. -/
theorem renders_charText (style : Style) (c : Char) : Renders (style.charText c) c := by
  rw [charText]
  split_ifs with hascii hshort
  · exact renders_jsonChar c
  · exact renders_code hshort
  · exact renders_pair (not_lt.mp hshort)

/-- **A string is read back**, and nothing of what follows it. -/
theorem readString_quote (style : Style) (s : String) (rest : List Char) :
    readString (s.toList.flatMap style.charText ++ '"' :: rest) = .ok (s, rest) := by
  have hall : ∀ cs : List Char, Inside (cs.flatMap style.charText) ∧
      ∃ units, ReadAs (cs.flatMap style.charText) units ∧ joinCodes units = cs := by
    intro cs
    induction cs with
    | nil => exact ⟨inside_nil, [], fun _ => Option.map_id'.symm, rfl⟩
    | cons c cs ih =>
      obtain ⟨hinside, units, hread, hjoin⟩ := ih
      obtain ⟨hc, us, hcread, hcjoin⟩ := renders_charText style c
      rw [List.flatMap_cons]
      exact ⟨hc.append hinside, us ++ units, hcread.append hread, by rw [hcjoin, hjoin]⟩
  obtain ⟨hinside, units, hread, hjoin⟩ := hall s.toList
  have hscan : scanString (s.toList.flatMap style.charText ++ '"' :: rest)
      = some (s.toList.flatMap style.charText, rest) := by
    have hend : scanString ('"' :: rest) = some ([], rest) := by
      rw [scanString.eq_def]
      rfl
    rw [hinside, hend, Option.map_some, List.append_nil]
  have hunescape := hread []
  rw [List.append_nil, unescape, Option.map_some, List.append_nil] at hunescape
  rw [readString, hscan]
  simp only [hunescape, hjoin, String.ofList_toList]

/-! ## Numbers, read back -/

/-- What does not go on with a number. -/
def Stops (rest : List Char) : Prop :=
  (rest.head?.all fun c => !(c.isDigit || c == '.' || c == 'e' || c == 'E')) = true

instance (rest : List Char) : Decidable (Stops rest) := inferInstanceAs (Decidable (_ = true))

section Numbers

variable {s rest : List Char}

theorem Stops.cases (h : Stops rest) : rest = [] ∨ ∃ c t, rest = c :: t ∧ c.isDigit = false ∧
    c ≠ '.' ∧ c ≠ 'e' ∧ c ≠ 'E' := by
  cases rest with
  | nil => exact Or.inl rfl
  | cons c t =>
    have hc : c.isDigit = false ∧ c ≠ '.' ∧ c ≠ 'e' ∧ c ≠ 'E' := by
      simpa [Stops, and_assoc] using h
    exact Or.inr ⟨c, t, rfl, hc⟩

theorem takeWhile_append_of_stops (h : Stops rest) (s : List Char) :
    (s ++ rest).takeWhile Char.isDigit = s.takeWhile Char.isDigit ∧
      (s ++ rest).dropWhile Char.isDigit = s.dropWhile Char.isDigit ++ rest := by
  induction s with
  | nil =>
    obtain rfl | ⟨c, t, rfl, hc, -⟩ := h.cases
    · exact ⟨rfl, rfl⟩
    · simp [hc]
  | cons c s ih => by_cases hc : c.isDigit <;> simp [hc, ih]

theorem scanWhole_of_ne_zero {c : Char} {t : List Char} (h : c ≠ '0') :
    scanWhole (c :: t) = if (c :: t).takeWhile Char.isDigit = [] then none
      else some ((c :: t).takeWhile Char.isDigit, (c :: t).dropWhile Char.isDigit) := by
  rw [scanWhole]
  rintro t' ht
  exact h (List.cons.inj ht).1

theorem scanWhole_append (h : Stops rest) {whole t : List Char}
    (hs : scanWhole s = some (whole, t)) : scanWhole (s ++ rest) = some (whole, t ++ rest) := by
  cases s with
  | nil => cases hs
  | cons c s =>
    by_cases hzero : c = '0'
    · subst hzero
      obtain ⟨rfl, rfl⟩ := Prod.mk.inj (Option.some.inj hs)
      rfl
    · rw [scanWhole_of_ne_zero hzero] at hs
      obtain ⟨htake, hdrop⟩ := takeWhile_append_of_stops h (c :: s)
      rw [List.cons_append, scanWhole_of_ne_zero hzero, ← List.cons_append, htake, hdrop]
      split at hs
      · cases hs
      · rename_i hne
        obtain ⟨rfl, rfl⟩ := Prod.mk.inj (Option.some.inj hs)
        exact if_neg hne

theorem scanDigitsAfter_append (h : Stops rest) (mark s : List Char) :
    scanDigitsAfter mark (s ++ rest)
      = ((scanDigitsAfter mark s).1, (scanDigitsAfter mark s).2 ++ rest) := by
  obtain ⟨htake, hdrop⟩ := takeWhile_append_of_stops h s
  rw [scanDigitsAfter, scanDigitsAfter, htake, hdrop]
  split
  · rw [List.append_assoc]
  · rfl

theorem scanFraction_of_stops (h : Stops rest) : scanFraction rest = ([], rest) := by
  obtain rfl | ⟨c, t, rfl, -, hpoint, -⟩ := h.cases
  · rfl
  · rw [scanFraction]
    rintro t' ht
    exact hpoint (List.cons.inj ht).1

theorem scanExponent_of_stops (h : Stops rest) : scanExponent rest = ([], rest) := by
  obtain rfl | ⟨c, t, rfl, -, -, he, hE⟩ := h.cases
  · rfl
  · rw [scanExponent.eq_def]
    simp only [he, hE, or_self, if_false]

theorem scanFraction_append (h : Stops rest) (s : List Char) :
    scanFraction (s ++ rest) = ((scanFraction s).1, (scanFraction s).2 ++ rest) := by
  cases s with
  | nil => exact scanFraction_of_stops h
  | cons c s =>
    by_cases hpoint : c = '.'
    · rw [hpoint]
      exact scanDigitsAfter_append h ['.'] s
    · have hnone : ∀ t, scanFraction (c :: t) = ([], c :: t) := fun t => by
        rw [scanFraction]
        rintro t' ht
        exact hpoint (List.cons.inj ht).1
      rw [List.cons_append, hnone, hnone]
      rfl

theorem scanExponent_sign {c d : Char} (hc : c = 'e' ∨ c = 'E') (hd : d = '+' ∨ d = '-')
    (t : List Char) : scanExponent (c :: d :: t) = scanDigitsAfter [c, d] t := by
  rw [scanExponent.eq_def]
  obtain rfl | rfl := hd <;> simp only [if_pos hc]

theorem scanExponent_unsigned {c d : Char} (hc : c = 'e' ∨ c = 'E') (hd : ¬(d = '+' ∨ d = '-'))
    (t : List Char) : scanExponent (c :: d :: t) = scanDigitsAfter [c] (d :: t) := by
  rw [scanExponent.eq_def]
  simp only [if_pos hc]
  split
  · rename_i heq
    exact absurd (Or.inl (List.cons.inj heq).1) hd
  · rename_i heq
    exact absurd (Or.inr (List.cons.inj heq).1) hd
  · rfl

/-- An exponent that ends with its text ends there, whatever follows. -/
theorem scanExponent_append (h : Stops rest) (hall : (scanExponent s).2 = []) :
    scanExponent (s ++ rest) = ((scanExponent s).1, rest) := by
  cases s with
  | nil => exact scanExponent_of_stops h
  | cons c s =>
    by_cases he : c = 'e' ∨ c = 'E'
    · cases s with
      | nil =>
        rw [scanExponent.eq_def] at hall
        simp [scanDigitsAfter] at hall
      | cons d s =>
        by_cases hsign : d = '+' ∨ d = '-'
        · rw [scanExponent_sign he hsign] at hall
          rw [List.cons_append, List.cons_append, scanExponent_sign he hsign,
            scanExponent_sign he hsign, scanDigitsAfter_append h, hall, List.nil_append]
        · rw [scanExponent_unsigned he hsign] at hall
          rw [List.cons_append, List.cons_append, scanExponent_unsigned he hsign,
            scanExponent_unsigned he hsign, ← List.cons_append, scanDigitsAfter_append h, hall,
            List.nil_append]
    · rw [scanExponent.eq_def] at hall
      simp only [if_neg he] at hall
      cases hall

/-- A number, from its whole part on. -/
def afterWhole (sign : List Char) (found : List Char × List Char) :
    List Char × List Char × List Char × List Char :=
  (sign, found.1, (scanFraction found.2).1 ++ (scanExponent (scanFraction found.2).2).1,
    (scanExponent (scanFraction found.2).2).2)

theorem scanNumber_minus (s : List Char) :
    scanNumber ('-' :: s) = (scanWhole s).map (afterWhole ['-']) := rfl

theorem scanNumber_of_ne_minus {c : Char} (h : c ≠ '-') (s : List Char) :
    scanNumber (c :: s) = (scanWhole (c :: s)).map (afterWhole []) := by
  unfold scanNumber
  split
  · rename_i heq
    split at heq
    · rename_i heq'
      exact absurd (List.cons.inj heq').1 h
    · obtain ⟨rfl, rfl⟩ := Prod.mk.inj heq
      rfl

theorem map_afterWhole_append (h : Stops rest) {sign sign' whole more : List Char}
    (hs : (scanWhole s).map (afterWhole sign) = some (sign', whole, more, [])) :
    (scanWhole (s ++ rest)).map (afterWhole sign) = some (sign', whole, more, rest) := by
  obtain ⟨⟨whole, t⟩, hfound, heq⟩ := Option.map_eq_some_iff.mp hs
  obtain ⟨rfl, rfl, rfl, hrest⟩ := Prod.ext_iff.mp heq |>.imp id fun heq =>
    Prod.ext_iff.mp heq |>.imp id fun heq => Prod.ext_iff.mp heq
  rw [scanWhole_append h hfound, Option.map_some, afterWhole, scanFraction_append h,
    scanExponent_append h hrest]
  rfl

/-- **A number ends where its text ends.** -/
theorem scanNumber_append (h : Stops rest) {sign whole more : List Char}
    (hs : scanNumber s = some (sign, whole, more, [])) :
    scanNumber (s ++ rest) = some (sign, whole, more, rest) := by
  cases s with
  | nil => cases hs
  | cons c s =>
    by_cases hminus : c = '-'
    · subst hminus
      exact map_afterWhole_append h hs
    · rw [scanNumber_of_ne_minus hminus] at hs
      rw [List.cons_append, scanNumber_of_ne_minus hminus, ← List.cons_append]
      exact map_afterWhole_append h hs

/-- Text that begins like a number. -/
def beginsNumber : List Char → Bool
  | a :: b :: _ => if a = '-' then b.isDigit else a.isDigit
  | [a] => a.isDigit
  | [] => false

/-- No literal does. -/
theorem find?_literals (h : beginsNumber s = true) :
    (literals.find? fun literal => literal.1.toList.isPrefixOf s) = none := by
  have hall : (literals.all fun literal =>
      !beginsNumber literal.1.toList && decide (2 ≤ literal.1.toList.length)) = true := by
    decide
  refine List.find?_eq_none.mpr fun literal hliteral hstart => ?_
  obtain ⟨hbegins, hlength⟩ := Bool.and_eq_true_iff.mp (List.all_eq_true.mp hall literal hliteral)
  obtain ⟨t, rfl⟩ := List.isPrefixOf_iff_prefix.mp hstart
  obtain ⟨a, b, more, htext⟩ : ∃ a b more, literal.1.toList = a :: b :: more := by
    match literal.1.toList, of_decide_eq_true hlength with
    | a :: b :: more, _ => exact ⟨a, b, more, rfl⟩
  rw [htext] at h hbegins
  have hsame : beginsNumber (a :: b :: more ++ t) = beginsNumber (a :: b :: more) := rfl
  rw [hsame] at h
  rw [h] at hbegins
  cases hbegins

theorem beginsNumber_of_scanWhole {sign : List Char} {found : List Char × List Char}
    (hsign : sign = [] ∨ sign = ['-']) (h : scanWhole s = some found) (rest : List Char) :
    beginsNumber (sign ++ s ++ rest) = true := by
  cases s with
  | nil => cases h
  | cons c s =>
    have hdigit : c.isDigit = true := by
      by_cases hzero : c = '0'
      · rw [hzero]
        rfl
      · rw [scanWhole_of_ne_zero hzero] at h
        by_contra hc
        rw [List.takeWhile_cons_of_neg hc, if_pos rfl] at h
        cases h
    have hne : c ≠ '-' := fun hc => by
      rw [hc] at hdigit
      cases hdigit
    obtain rfl | rfl := hsign
    · cases hrest : s ++ rest with
      | nil => simp [beginsNumber, hrest, hdigit]
      | cons d t => simp [beginsNumber, hrest, hdigit, hne]
    · simp [beginsNumber, hdigit]

/-- A number begins like one. -/
theorem beginsNumber_of_scanNumber {found : List Char × List Char × List Char × List Char}
    (h : scanNumber s = some found) (rest : List Char) : beginsNumber (s ++ rest) = true := by
  cases s with
  | nil => cases h
  | cons c s =>
    by_cases hminus : c = '-'
    · subst hminus
      obtain ⟨whole, hwhole, -⟩ := Option.map_eq_some_iff.mp h
      exact beginsNumber_of_scanWhole (Or.inr rfl) hwhole rest
    · rw [scanNumber_of_ne_minus hminus] at h
      obtain ⟨whole, hwhole, -⟩ := Option.map_eq_some_iff.mp h
      exact beginsNumber_of_scanWhole (Or.inl rfl) hwhole rest

theorem ofDigits_toDigits (n : ℕ) : ofDigits (Nat.toDigits 10 n) = n :=
  Nat.ofDigitChars_ten_toDigits

/-- No number but zero begins with a zero. -/
theorem exists_toDigits_eq_cons {n : ℕ} (h : n ≠ 0) :
    ∃ c t, Nat.toDigits 10 n = c :: t ∧ c ≠ '0' := by
  induction n using Nat.strong_induction_on with
  | _ n ih =>
    by_cases hsmall : n < 10
    · have hdigit : ∀ m < 10, m ≠ 0 → Nat.digitChar m ≠ '0' := by decide
      exact ⟨_, [], Nat.toDigits_of_lt_base hsmall, hdigit n hsmall h⟩
    · obtain ⟨c, t, hdigits, hc⟩ := ih (n / 10) (by omega) (by omega)
      rw [Nat.toDigits_of_base_le (by decide) (not_lt.mp hsmall), hdigits]
      exact ⟨c, t ++ [Nat.digitChar (n % 10)], rfl, hc⟩

theorem scanWhole_toDigits (n : ℕ) :
    scanWhole (Nat.toDigits 10 n) = some (Nat.toDigits 10 n, []) := by
  by_cases hzero : n = 0
  · rw [hzero]
    rfl
  · obtain ⟨c, t, hdigits, hc⟩ := exists_toDigits_eq_cons hzero
    have hall : ∀ d ∈ c :: t, d.isDigit = true := fun d hd =>
      Nat.isDigit_of_mem_toDigits (by decide) (by decide) (hdigits ▸ hd)
    have htake : (c :: t).takeWhile Char.isDigit = c :: t := List.takeWhile_eq_self_iff.mpr hall
    have hdrop : (c :: t).dropWhile Char.isDigit = [] := List.dropWhile_eq_nil_iff.mpr hall
    rw [hdigits, scanWhole_of_ne_zero hc, htake, hdrop]
    rfl

/-- The digits of an integer. -/
theorem toList_toString_int (n : ℤ) : (toString n).toList
    = (if n < 0 then ['-'] else []) ++ Nat.toDigits 10 n.natAbs := by
  cases n with
  | ofNat m => exact Nat.toList_repr
  | negSucc m =>
    have htext : toString (Int.negSucc m) = "-" ++ Nat.repr (m + 1) := rfl
    rw [htext, String.toList_append, Nat.toList_repr, if_pos (Int.negSucc_lt_zero m)]
    rfl

theorem scanNumber_int (n : ℤ) : scanNumber (toString n).toList
    = some (if n < 0 then ['-'] else [], Nat.toDigits 10 n.natAbs, [], []) := by
  rw [toList_toString_int]
  split_ifs with hneg
  · rw [List.singleton_append, scanNumber_minus, scanWhole_toDigits]
    rfl
  · obtain ⟨c, t, hdigits, hne⟩ : ∃ c t, Nat.toDigits 10 n.natAbs = c :: t ∧ c ≠ '-' := by
      obtain ⟨c, t, hdigits⟩ := List.exists_cons_of_ne_nil
        (Nat.toDigits_ne_nil (n := n.natAbs) (b := 10))
      have hdigit : c.isDigit = true := Nat.isDigit_of_mem_toDigits (by decide) (by decide)
        (hdigits ▸ List.mem_cons_self)
      refine ⟨c, t, hdigits, fun hc => ?_⟩
      rw [hc] at hdigit
      cases hdigit
    have hwhole := scanWhole_toDigits n.natAbs
    rw [hdigits] at hwhole ⊢
    rw [List.nil_append, scanNumber_of_ne_minus hne, hwhole]
    rfl

variable (d : Decoder)

/-- The text of a float, which the decoder reads as it. -/
def ReadsFloat (q : ℚ) (text : String) : Prop :=
  ∃ sign whole more, scanNumber text.toList = some (sign, whole, more, []) ∧
    sign ++ whole ++ more = text.toList ∧ more ≠ [] ∧ d.float text.toList = .float q text

/-- **An integer is read back**, if it has not too many digits. -/
theorem readScalar_int {n : ℤ} (hdigits : (Nat.toDigits 10 n.natAbs).length ≤ d.maxDigits)
    (h : Stops rest) : d.readScalar ((toString n).toList ++ rest) = .ok (.int n, rest) := by
  rw [readScalar, find?_literals (beginsNumber_of_scanNumber (scanNumber_int n) rest),
    scanNumber_append h (scanNumber_int n)]
  have hvalue : (if (if n < 0 then ['-'] else []) = [] then (ofDigits (Nat.toDigits 10 n.natAbs) : ℤ)
      else -(ofDigits (Nat.toDigits 10 n.natAbs) : ℤ)) = n := by
    rw [ofDigits_toDigits]
    by_cases hneg : n < 0
    · rw [if_pos hneg, if_neg (List.cons_ne_nil _ _)]
      omega
    · rw [if_neg hneg, if_pos rfl]
      omega
  simp only [ne_eq, not_true_eq_false, if_false, if_neg (not_lt.mpr hdigits), hvalue]

/-- **A float is read back.** -/
theorem readScalar_float {q : ℚ} {text : String} (hfloat : d.ReadsFloat q text) (h : Stops rest) :
    d.readScalar (text.toList ++ rest) = .ok (.float q text, rest) := by
  obtain ⟨sign, whole, more, hscan, htext, hmore, hvalue⟩ := hfloat
  rw [readScalar, find?_literals (beginsNumber_of_scanNumber hscan rest), scanNumber_append h hscan]
  simp only [if_pos hmore, htext, hvalue]

end Numbers

/-! ## Values, read back -/

/-- A text that a reader takes for a value, whatever follows. -/
def ReadsBack (value : Reader Json) (p : List Char) (v : Json) : Prop :=
  ∀ rest, Stops rest → value (p ++ rest) = .ok (v, rest)

/-- Text that begins with what neither is blank nor closes anything, and is no byte order mark. -/
def Begins (p : List Char) : Prop :=
  (p.head?.any fun c => !isBlank c && c != ']' && c != '\x7d' && c != '\uFEFF') = true

instance (p : List Char) : Decidable (Begins p) := inferInstanceAs (Decidable (_ = true))

theorem Begins.exists_cons {p : List Char} (h : Begins p) :
    ∃ c t, p = c :: t ∧ isBlank c = false ∧ c ≠ ']' ∧ c ≠ '\x7d' ∧ c ≠ '\uFEFF' := by
  cases p with
  | nil => cases h
  | cons c t =>
    have hc : isBlank c = false ∧ c ≠ ']' ∧ c ≠ '\x7d' ∧ c ≠ '\uFEFF' := by
      simpa [Begins, and_assoc] using h
    exact ⟨c, t, rfl, hc⟩

theorem Begins.append {p : List Char} (h : Begins p) (rest : List Char) : Begins (p ++ rest) := by
  obtain ⟨c, t, rfl, -⟩ := h.exists_cons
  exact h

theorem skipBlanks_of_begins {p : List Char} (h : Begins p) : skipBlanks p = p := by
  obtain ⟨c, t, rfl, hc, -⟩ := h.exists_cons
  exact List.dropWhile_cons_of_neg (by rw [hc]; decide)

theorem skipBlanks_append {blanks : List Char} (h : ∀ c ∈ blanks, isBlank c = true)
    (rest : List Char) : skipBlanks (blanks ++ rest) = skipBlanks rest :=
  List.dropWhile_append_of_pos h

theorem skipBlanks_cons {c : Char} (h : isBlank c = false) (t : List Char) :
    skipBlanks (c :: t) = c :: t := List.dropWhile_cons_of_neg (by rw [h]; decide)

theorem isBlank_of_mem_line {style : Style} {level : ℕ} {c : Char} (h : c ∈ style.line level) :
    isBlank c = true := by
  rw [line] at h
  split at h
  · rcases List.mem_cons.mp h with rfl | h
    · rfl
    · rw [List.eq_of_mem_replicate h]
      rfl
  · cases h

/-- After a value comes a line end or what closes it… -/
theorem stops_line_append {style : Style} {level : ℕ} {c : Char} (hc : Stops [c])
    (rest : List Char) : Stops (style.line level ++ c :: rest) := by
  rw [line]
  split
  · rfl
  · exact hc

/-- …or a comma, and blanks. -/
theorem comma_eq (style : Style) (level : ℕ) : ∃ blanks, style.comma level = ',' :: blanks ∧
    ∀ c ∈ blanks, isBlank c = true := by
  refine ⟨_, rfl, fun c hc => ?_⟩
  split at hc
  · rw [List.mem_singleton.mp hc]
    rfl
  · exact isBlank_of_mem_line hc

section Lists

variable {value : Reader Json} {style : Style} {level : ℕ} {rest : List Char}

theorem begins_intercalate {sep p : List Char} {parts : List (List Char)} (h : Begins p) :
    Begins (sep.intercalate (p :: parts)) := by
  cases parts with
  | nil =>
    rw [List.intercalate_singleton]
    exact h
  | cons q parts =>
    rw [List.intercalate_cons_cons, List.append_assoc]
    exact h.append _

/-- A member with its blanks. -/
def Member (value : Reader Json) (style : Style) (field : String × Json) (p : List Char) : Prop :=
  ∃ text, p = style.quote field.1 ++ ':' :: ' ' :: text ∧ ReadsBack value text field.2 ∧ Begins text

theorem Member.begins {field : String × Json} {p : List Char} (h : Member value style field p) :
    Begins p := by
  obtain ⟨text, rfl, -⟩ := h
  rfl

/-- How a member is read: its key, and its value after the colon. -/
theorem Member.read {field : String × Json} {p t : List Char} (h : Member value style field p)
    (hstops : Stops t) : ∃ s u, p ++ t = '"' :: s ∧ readString s = .ok (field.1, ':' :: ' ' :: u) ∧
      value (skipBlanks (' ' :: u)) = .ok (field.2, t) := by
  obtain ⟨text, rfl, hread, hbegins⟩ := h
  refine ⟨field.1.toList.flatMap style.charText ++ '"' :: ':' :: ' ' :: (text ++ t), text ++ t, ?_,
    readString_quote style field.1 _, ?_⟩
  · simp only [quote, List.cons_append, List.append_assoc, List.nil_append]
  · have hblank : skipBlanks (' ' :: (text ++ t)) = text ++ t :=
      skipBlanks_of_begins (hbegins.append t)
    rw [hblank]
    exact hread t hstops

/-- **A member is read back**, the last… -/
theorem readMembers_last {field : String × Json} {p t : List Char}
    (h : Member value style field p) (hstops : Stops t) (ht : skipBlanks t = '\x7d' :: rest)
    (fuel : ℕ) : readMembers value (fuel + 1) (p ++ t) = .ok ([field], rest) := by
  obtain ⟨s, u, hs, hkey, hvalue⟩ := h.read hstops
  have hcolon : skipBlanks (':' :: ' ' :: u) = ':' :: ' ' :: u := skipBlanks_cons rfl _
  rw [hs, readMembers, hkey]
  simp only [bind, Except.bind, hcolon, hvalue, ht]
  rfl

/-- …or one with others after it. -/
theorem readMembers_more {field : String × Json} {p t t' : List Char}
    (h : Member value style field p) (hstops : Stops t) (ht : skipBlanks t = ',' :: t') {fuel : ℕ}
    {fields : List (String × Json)}
    (hmore : readMembers value fuel (skipBlanks t') = .ok (fields, rest)) :
    readMembers value (fuel + 1) (p ++ t) = .ok (field :: fields, rest) := by
  obtain ⟨s, u, hs, hkey, hvalue⟩ := h.read hstops
  have hcolon : skipBlanks (':' :: ' ' :: u) = ':' :: ' ' :: u := skipBlanks_cons rfl _
  rw [hs, readMembers, hkey]
  simp only [bind, Except.bind, hcolon, hvalue, ht, hmore]
  rfl

/-- **Items are read back**, up to the bracket. -/
theorem readItems_intercalate {vs : List Json} {parts : List (List Char)}
    (h : List.Forall₂ (fun v p => ReadsBack value p v ∧ Begins p) vs parts) (hne : vs ≠ [])
    {fuel : ℕ} (hfuel : vs.length ≤ fuel) {outer : ℕ} :
    readItems value fuel ((style.comma level).intercalate parts
      ++ (style.line outer ++ ']' :: rest)) = .ok (vs, rest) := by
  obtain ⟨blanks, hcomma, hblanks⟩ := comma_eq style level
  induction h generalizing fuel with
  | nil => exact absurd rfl hne
  | @cons v p vs parts hp htail ih =>
    obtain ⟨fuel, rfl⟩ : ∃ n, fuel = n + 1 := ⟨fuel - 1, by rw [List.length_cons] at hfuel; omega⟩
    cases htail with
    | nil =>
      have hclose : skipBlanks (style.line outer ++ ']' :: rest) = ']' :: rest := by
        rw [skipBlanks_append fun c => isBlank_of_mem_line, skipBlanks_cons rfl]
      have hstops : Stops (style.line outer ++ ']' :: rest) := stops_line_append (by decide) rest
      rw [List.intercalate_singleton, readItems, hp.1 _ hstops]
      simp only [bind, Except.bind, hclose]
      rfl
    | @cons v' p' vs parts hp' htail =>
      have hread := ih (List.cons_ne_nil _ _) (Nat.le_of_succ_le_succ hfuel)
      have hbegins : Begins ((style.comma level).intercalate (p' :: parts)) :=
        begins_intercalate hp'.2
      have hstops : ∀ t, Stops (',' :: blanks ++ t) := fun _ => rfl
      rw [List.intercalate_cons_cons, List.append_assoc, List.append_assoc, hcomma, readItems,
        hp.1 _ (hstops _)]
      have hskip : skipBlanks (',' :: blanks ++ ((',' :: blanks).intercalate (p' :: parts)
          ++ (style.line outer ++ ']' :: rest))) = ',' :: (blanks
            ++ ((',' :: blanks).intercalate (p' :: parts) ++ (style.line outer ++ ']' :: rest))) :=
        skipBlanks_cons rfl _
      rw [hcomma] at hread hbegins
      simp only [bind, Except.bind, hskip, skipBlanks_append hblanks,
        skipBlanks_of_begins (hbegins.append _), hread]
      rfl

/-- **Members are read back**, up to the brace. -/
theorem readMembers_intercalate {fields : List (String × Json)} {parts : List (List Char)}
    (h : List.Forall₂ (Member value style) fields parts) (hne : fields ≠ []) {fuel : ℕ}
    (hfuel : fields.length ≤ fuel) {outer : ℕ} :
    readMembers value fuel ((style.comma level).intercalate parts
      ++ (style.line outer ++ '\x7d' :: rest)) = .ok (fields, rest) := by
  obtain ⟨blanks, hcomma, hblanks⟩ := comma_eq style level
  induction h generalizing fuel with
  | nil => exact absurd rfl hne
  | @cons field p fields parts hp htail ih =>
    obtain ⟨fuel, rfl⟩ : ∃ n, fuel = n + 1 := ⟨fuel - 1, by rw [List.length_cons] at hfuel; omega⟩
    cases htail with
    | nil =>
      have hstops : Stops (style.line outer ++ '\x7d' :: rest) := stops_line_append (by decide) rest
      have hclose : skipBlanks (style.line outer ++ '\x7d' :: rest) = '\x7d' :: rest := by
        rw [skipBlanks_append fun c => isBlank_of_mem_line, skipBlanks_cons rfl]
      rw [List.intercalate_singleton]
      exact readMembers_last hp hstops hclose fuel
    | @cons field' p' fields parts hp' htail =>
      have hread := ih (List.cons_ne_nil _ _) (Nat.le_of_succ_le_succ hfuel)
      have hbegins : Begins ((style.comma level).intercalate (p' :: parts)) :=
        begins_intercalate hp'.begins
      rw [hcomma] at hread hbegins
      have hskip : skipBlanks (',' :: blanks ++ ((',' :: blanks).intercalate (p' :: parts)
          ++ (style.line outer ++ '\x7d' :: rest))) = ',' :: (blanks
            ++ ((',' :: blanks).intercalate (p' :: parts) ++ (style.line outer ++ '\x7d' :: rest))) :=
        skipBlanks_cons rfl _
      have hstops : ∀ t, Stops (',' :: blanks ++ t) := fun _ => rfl
      rw [List.intercalate_cons_cons, List.append_assoc, List.append_assoc, hcomma]
      refine readMembers_more hp (hstops _) hskip ?_
      rw [skipBlanks_append hblanks, skipBlanks_of_begins (hbegins.append _)]
      exact hread

theorem length_le_intercalate {parts : List (List Char)} (h : ∀ p ∈ parts, p ≠ [])
    (sep : List Char) : parts.length ≤ (sep.intercalate parts).length := by
  induction parts with
  | nil => exact Nat.zero_le _
  | cons p parts ih =>
    have hp : 0 < p.length := List.length_pos_iff.mpr (h p List.mem_cons_self)
    have hrest := ih fun q hq => h q (List.mem_cons_of_mem _ hq)
    cases parts with
    | nil =>
      rw [List.intercalate_singleton]
      exact hp
    | cons q parts =>
      rw [List.intercalate_cons_cons, List.length_append, List.length_append, List.length_cons]
      omega

theorem Begins.ne_nil {p : List Char} (h : Begins p) : p ≠ [] := by
  obtain ⟨c, t, rfl, -⟩ := h.exists_cons
  exact List.cons_ne_nil c t

theorem forall₂_length_le {α : Type} {xs : List α} {parts : List (List Char)}
    {R : α → List Char → Prop} (h : List.Forall₂ R xs parts)
    (hbegins : ∀ x p, R x p → Begins p) (sep t : List Char) :
    xs.length ≤ (sep.intercalate parts ++ t).length := by
  have hne : ∀ p ∈ parts, p ≠ [] := by
    induction h with
    | nil => exact fun p hp => nomatch hp
    | cons hr _ ih =>
      intro p hp
      rcases List.mem_cons.mp hp with rfl | hp
      · exact (hbegins _ _ hr).ne_nil
      · exact ih p hp
  rw [List.length_append, h.length_eq]
  exact le_add_right (length_le_intercalate hne sep)

/-- What stands between brackets, from its first item on. -/
theorem skipBlanks_enclose {p : List Char} {parts : List (List Char)} (h : Begins p)
    (t : List Char) : skipBlanks (style.line (level + 1)
        ++ ((style.comma (level + 1)).intercalate (p :: parts) ++ t))
      = (style.comma (level + 1)).intercalate (p :: parts) ++ t := by
  rw [skipBlanks_append fun c => isBlank_of_mem_line,
    skipBlanks_of_begins ((begins_intercalate h).append t)]

theorem enclose_append (style : Style) (level : ℕ) (opening closing : Char) (p : List Char)
    (parts : List (List Char)) (rest : List Char) :
    style.enclose level opening closing (p :: parts) ++ rest = opening :: (style.line (level + 1)
      ++ ((style.comma (level + 1)).intercalate (p :: parts)
        ++ (style.line level ++ closing :: rest))) := by
  rw [enclose, if_neg (List.cons_ne_nil _ _)]
  simp only [List.cons_append, List.append_assoc, List.nil_append]

theorem exists_enclose_eq_cons (style : Style) (level : ℕ) (opening closing : Char)
    (parts : List (List Char)) : ∃ t, style.enclose level opening closing parts = opening :: t := by
  rw [enclose]
  split_ifs
  · exact ⟨_, rfl⟩
  · exact ⟨_, rfl⟩

/-- **An array is read back.** -/
theorem readArray_enclose {vs : List Json} {parts : List (List Char)}
    (h : List.Forall₂ (fun v p => ReadsBack value p v ∧ Begins p) vs parts) {t : List Char}
    (ht : style.enclose level '[' ']' parts = '[' :: t) :
    readArray value (t ++ rest) = .ok (.arr vs, rest) := by
  replace ht : style.enclose level '[' ']' parts ++ rest = '[' :: (t ++ rest) := by
    rw [ht, List.cons_append]
  rcases hparts : parts with - | ⟨p, tail⟩
  · subst hparts
    cases h
    rw [← (List.cons.inj ht).2]
    rfl
  · rw [hparts] at h ht
    have hne : vs ≠ [] := by rintro rfl; cases h
    have hp : Begins p := by cases h with | cons hp _ => exact hp.2
    have hfuel := forall₂_length_le h (fun _ _ h => h.2) (style.comma (level + 1))
      (style.line level ++ ']' :: rest)
    have hread : readItems value _ ((style.comma (level + 1)).intercalate (p :: tail)
        ++ (style.line level ++ ']' :: rest)) = .ok (vs, rest) := readItems_intercalate h hne hfuel
    rw [enclose_append] at ht
    rw [← (List.cons.inj ht).2, readArray, skipBlanks_enclose hp]
    obtain ⟨c, u, hu, -, hc, -⟩ :=
      ((begins_intercalate hp).append (style.line level ++ ']' :: rest)).exists_cons
    rw [hu] at hread ⊢
    split
    · rename_i heq
      exact absurd (List.cons.inj heq).1 hc
    · rw [hread]
      rfl

/-- **An object is read back.** -/
theorem readObject_enclose {fields : List (String × Json)} {parts : List (List Char)}
    (h : List.Forall₂ (Member value style) fields parts) {t : List Char}
    (ht : style.enclose level '\x7b' '\x7d' parts = '\x7b' :: t) :
    readObject value (t ++ rest) = .ok (.obj fields, rest) := by
  replace ht : style.enclose level '\x7b' '\x7d' parts ++ rest = '\x7b' :: (t ++ rest) := by
    rw [ht, List.cons_append]
  rcases hparts : parts with - | ⟨p, tail⟩
  · subst hparts
    cases h
    rw [← (List.cons.inj ht).2]
    rfl
  · rw [hparts] at h ht
    have hne : fields ≠ [] := by rintro rfl; cases h
    have hp : Begins p := by cases h with | cons hp _ => exact hp.begins
    have hfuel := forall₂_length_le h (fun _ _ => Member.begins) (style.comma (level + 1))
      (style.line level ++ '\x7d' :: rest)
    have hread : readMembers value _ ((style.comma (level + 1)).intercalate (p :: tail)
        ++ (style.line level ++ '\x7d' :: rest)) = .ok (fields, rest) :=
      readMembers_intercalate h hne hfuel
    rw [enclose_append] at ht
    rw [← (List.cons.inj ht).2, readObject, skipBlanks_enclose hp]
    obtain ⟨c, u, hu, -, -, hc, -⟩ :=
      ((begins_intercalate hp).append (style.line level ++ '\x7d' :: rest)).exists_cons
    rw [hu] at hread ⊢
    split
    · rename_i heq
      exact absurd (List.cons.inj heq).1 hc
    · rw [hread]
      rfl

end Lists

section Values

variable (d : Decoder) (style : Style)

/-- What a decoder with so many levels takes as it was printed: its integers have not too many digits,
its floats are read as they were. -/
inductive Printable : ℕ → Json → Prop
  | null {levels : ℕ} : Printable levels .null
  | bool {levels : ℕ} (b : Bool) : Printable levels (.bool b)
  | int {levels : ℕ} {n : ℤ} (h : (Nat.toDigits 10 n.natAbs).length ≤ d.maxDigits) :
      Printable levels (.int n)
  | float {levels : ℕ} {q : ℚ} {text : String} (h : d.ReadsFloat q text) :
      Printable levels (.float q text)
  | nonFinite {levels : ℕ} {text : String} (h : text ∈ ["nan", "inf", "-inf"]) :
      Printable levels (.nonFinite text)
  | str {levels : ℕ} (s : String) : Printable levels (.str s)
  | arr {levels : ℕ} {items : List Json} (h : ∀ v ∈ items, Printable levels v) :
      Printable (levels + 1) (.arr items)
  | obj {levels : ℕ} {fields : List (String × Json)} (h : ∀ field ∈ fields, Printable levels field.2) :
      Printable (levels + 1) (.obj fields)

theorem printItems_eq_map (level : ℕ) (vs : List Json) :
    style.printItems level vs = vs.map (style.print level) := by
  induction vs with
  | nil => rfl
  | cons v vs ih => rw [printItems, ih, List.map_cons]

theorem printFields_eq_map (level : ℕ) (fields : List (String × Json)) :
    style.printFields level fields
      = fields.map fun field => style.quote field.1 ++ ':' :: ' ' :: style.print level field.2 := by
  induction fields with
  | nil => rfl
  | cons field fields ih => rw [printFields, ih, List.map_cons]

/-- A value that is no string, array or object is read as a scalar. -/
theorem readWith_scalar {array object : Reader Json} {s : List Char}
    (h : s.head? ∉ [some '"', some '[', some '\x7b']) :
    d.readWith array object s = d.readScalar s := by
  rw [readWith.eq_def]
  split
  · exact absurd (by simp) h
  · exact absurd (by simp) h
  · exact absurd (by simp) h
  · rfl

theorem exists_of_beginsNumber {s : List Char} (h : beginsNumber s = true) :
    ∃ c t, s = c :: t ∧ (c.isDigit = true ∨ c = '-') := by
  match s, h with
  | [c], h => exact ⟨c, [], rfl, Or.inl h⟩
  | c :: b :: t, h =>
    refine ⟨c, b :: t, rfl, ?_⟩
    rw [beginsNumber] at h
    split_ifs at h with hminus
    · exact Or.inr hminus
    · exact Or.inl h

theorem head?_ne_of_beginsNumber {s : List Char} (h : beginsNumber s = true) :
    s.head? ∉ [some '"', some '[', some '\x7b'] := by
  obtain ⟨c, t, rfl, hc⟩ := exists_of_beginsNumber h
  intro hmem
  simp only [List.head?_cons, List.mem_cons, Option.some.injEq, List.not_mem_nil, or_false] at hmem
  obtain rfl | rfl | rfl := hmem <;> revert hc <;> decide

theorem begins_of_beginsNumber {s : List Char} (h : beginsNumber s = true) : Begins s := by
  obtain ⟨c, t, rfl, hc⟩ := exists_of_beginsNumber h
  have hall : [' ', '\t', '\n', '\r', ']', '\x7d', '\uFEFF'].all
      (fun c => !c.isDigit && c != '-') = true := by decide
  have hnot : c ∉ [' ', '\t', '\n', '\r', ']', '\x7d', '\uFEFF'] := fun hmem => by
    obtain ⟨hdigit, hminus⟩ := Bool.and_eq_true_iff.mp (List.all_eq_true.mp hall c hmem)
    simp_all
  simpa [Begins, isBlank, and_assoc] using hnot

theorem readScalar_literal {text : String} {v : Json} (h : (text, v) ∈ literals)
    (rest : List Char) : d.readScalar (text.toList ++ rest) = .ok (v, rest) := by
  simp only [literals, List.mem_cons, Prod.mk.injEq, List.not_mem_nil, or_false] at h
  obtain ⟨rfl, rfl⟩ | ⟨rfl, rfl⟩ | ⟨rfl, rfl⟩ | ⟨rfl, rfl⟩ | ⟨rfl, rfl⟩ | ⟨rfl, rfl⟩ := h <;> rfl

/-- **A value is read back**, whatever follows it, and its text begins as a value does. -/
theorem readValue_print {levels : ℕ} {v : Json} (h : d.Printable levels v) (level : ℕ) :
    ReadsBack (d.readValue levels) (style.print level v) v ∧ Begins (style.print level v) := by
  have hscalar : ∀ n s, s.head? ∉ [some '"', some '[', some '\x7b'] →
      d.readValue n s = d.readScalar s := by
    intro n s hs
    cases n <;> exact d.readWith_scalar hs
  have hliteral : ∀ n (text : String) v, (text, v) ∈ literals →
      ReadsBack (d.readValue n) text.toList v ∧ Begins text.toList := by
    intro n text v hmem
    have hhead : ∀ rest, (text.toList ++ rest).head? ∉ [some '"', some '[', some '\x7b'] ∧
        Begins text.toList := by
      simp only [literals, List.mem_cons, Prod.mk.injEq, List.not_mem_nil, or_false] at hmem
      obtain ⟨rfl, -⟩ | ⟨rfl, -⟩ | ⟨rfl, -⟩ | ⟨rfl, -⟩ | ⟨rfl, -⟩ | ⟨rfl, -⟩ := hmem <;>
        exact fun rest => ⟨by simp, rfl⟩
    exact ⟨fun rest _ => (hscalar n _ (hhead rest).1).trans (d.readScalar_literal hmem rest),
      (hhead []).2⟩
  induction h generalizing level with
  | null => exact hliteral _ "null" _ (by simp [literals])
  | bool b => cases b <;> exact hliteral _ _ _ (by simp [literals])
  | @int levels n hdigits =>
    have hbegins := beginsNumber_of_scanNumber (scanNumber_int n)
    refine ⟨fun rest hrest => ?_, ?_⟩
    · exact (hscalar levels _ (head?_ne_of_beginsNumber (hbegins rest))).trans
        (d.readScalar_int hdigits hrest)
    · have hnil := begins_of_beginsNumber (hbegins [])
      rwa [List.append_nil] at hnil
  | @float levels q text hfloat =>
    obtain ⟨sign, whole, more, hscan, -⟩ := id hfloat
    have hbegins := beginsNumber_of_scanNumber hscan
    refine ⟨fun rest hrest => ?_, ?_⟩
    · exact (hscalar levels _ (head?_ne_of_beginsNumber (hbegins rest))).trans
        (d.readScalar_float hfloat hrest)
    · have hnil := begins_of_beginsNumber (hbegins [])
      rwa [List.append_nil] at hnil
  | @nonFinite levels text htext =>
    simp only [List.mem_cons, List.not_mem_nil, or_false] at htext
    obtain rfl | rfl | rfl := htext <;> exact hliteral _ _ _ (by simp [literals])
  | @str levels s =>
    refine ⟨fun rest _ => ?_, rfl⟩
    have hread : d.readValue levels (style.quote s ++ rest)
        = (readString (s.toList.flatMap style.charText ++ '"' :: rest)).map
            (Prod.map .str id) := by
      rw [quote, List.cons_append, List.append_assoc, List.singleton_append]
      cases levels <;> rfl
    rw [print, hread, readString_quote]
    rfl
  | @arr levels items h ih =>
    have hparts : List.Forall₂ (fun v p => ReadsBack (d.readValue levels) p v ∧ Begins p) items
        (style.printItems (level + 1) items) := by
      rw [printItems_eq_map, List.forall₂_map_right_iff]
      exact List.forall₂_same.mpr fun v hv => ih v hv (level + 1)
    obtain ⟨t, ht⟩ := exists_enclose_eq_cons style level '[' ']' (style.printItems (level + 1) items)
    rw [print, ht]
    exact ⟨fun rest _ => readArray_enclose hparts ht, rfl⟩
  | @obj levels fields h ih =>
    have hparts : List.Forall₂ (Member (d.readValue levels) style) fields
        (style.printFields (level + 1) fields) := by
      rw [printFields_eq_map, List.forall₂_map_right_iff]
      exact List.forall₂_same.mpr fun field hfield => ⟨_, rfl, ih field hfield (level + 1)⟩
    obtain ⟨t, ht⟩ := exists_enclose_eq_cons style level '\x7b' '\x7d'
      (style.printFields (level + 1) fields)
    rw [print, ht]
    exact ⟨fun rest _ => readObject_enclose hparts ht, rfl⟩

theorem Printable.mono {d : Decoder} {levels levels' : ℕ} {v : Json} (h : d.Printable levels v)
    (hle : levels ≤ levels') : d.Printable levels' v := by
  induction h generalizing levels' with
  | null => exact .null
  | bool b => exact .bool b
  | int h => exact .int h
  | float h => exact .float h
  | nonFinite h => exact .nonFinite h
  | str s => exact .str s
  | arr _ ih =>
    obtain ⟨n, rfl⟩ : ∃ n, levels' = n + 1 := ⟨levels' - 1, by omega⟩
    exact .arr fun v hv => ih v hv (Nat.le_of_succ_le_succ hle)
  | obj _ ih =>
    obtain ⟨n, rfl⟩ : ∃ n, levels' = n + 1 := ⟨levels' - 1, by omega⟩
    exact .obj fun field hfield => ih field hfield (Nat.le_of_succ_le_succ hle)

theorem Printable.sortKeys {d : Decoder} {levels : ℕ} {v : Json} (h : d.Printable levels v) :
    d.Printable levels v.sortKeys := by
  induction h with
  | null => exact .null
  | bool b => exact .bool b
  | int h => exact .int h
  | float h => exact .float h
  | nonFinite h => exact .nonFinite h
  | str s => exact .str s
  | arr _ ih =>
    refine .arr fun v hv => ?_
    rw [Json.sortItems_eq_map] at hv
    obtain ⟨w, hw, rfl⟩ := List.mem_map.mp hv
    exact ih w hw
  | obj _ ih =>
    refine .obj fun field hfield => ?_
    rw [mem_sortBy, Json.sortFields_eq_map] at hfield
    obtain ⟨w, hw, rfl⟩ := List.mem_map.mp hfield
    exact ih w hw

/-- **`json.loads` gives back what `json.dumps` was given**, with any white space at its end. -/
theorem loads_dumps {v : Json} (h : d.Printable d.levels v) {blanks : List Char}
    (hblanks : ∀ c ∈ blanks, isBlank c = true) :
    d.loads (style.dumps v ++ blanks) = .ok (style.arrange v) := by
  have harranged : d.Printable d.levels (style.arrange v) := by
    rw [arrange]
    split
    · exact h.sortKeys
    · exact h
  obtain ⟨hread, hbegins⟩ := d.readValue_print style harranged 0
  have hend : skipBlanks blanks = [] := List.dropWhile_eq_nil_iff.mpr hblanks
  have hstops : Stops blanks := by
    cases blanks with
    | nil => rfl
    | cons c t =>
      have hc : c = ' ' ∨ c = '\t' ∨ c = '\n' ∨ c = '\r' := by
        simpa [isBlank, or_assoc] using hblanks c List.mem_cons_self
      obtain rfl | rfl | rfl | rfl := hc <;> rfl
  have hmark : (style.dumps v ++ blanks).head? ≠ some '\uFEFF' := by
    obtain ⟨c, t, ht, -, -, -, hc⟩ := (hbegins.append blanks).exists_cons
    rw [dumps, ht]
    exact fun heq => hc (Option.some.inj heq)
  rw [loads, if_neg hmark, dumps, skipBlanks_of_begins (hbegins.append blanks), hread _ hstops]
  simp only [bind, Except.bind, hend, if_true]
  rfl

/-- … and with nothing at its end. -/
theorem loads_dumps_self {v : Json} (h : d.Printable d.levels v) :
    d.loads (style.dumps v) = .ok (style.arrange v) := by
  have hloads := d.loads_dumps style h (List.forall_mem_nil _)
  rwa [List.append_nil] at hloads

end Values

end Decoder

end BareAnalysis
