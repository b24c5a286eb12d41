import Mathlib.Data.Nat.Digits.Lemmas
import Mathlib.Tactic.Common

/-!
# Machinery/Quote — percent encoding by code point

    safe c         c
    unsafe c       %XX, %XXX, …          the code point of `c`, with no end mark

An encoding that writes code points past `0xff` with more than two digits is not injective:
`Alike` says which texts it writes alike.
-/

namespace BareAnalysis

/-- An upper-case hexadecimal digit. -/
def hexDigit (d : ℕ) : Char := (Nat.digitChar d).toUpper

/-- `f"{n:02X}"`. -/
def hexCode (n : ℕ) : List Char := ((Nat.digits 16 n).reverse.map hexDigit).leftpad 2 '0'

/-- The upper-case hexadecimal digits. -/
def upperHexDigits : List Char := (List.range 16).map hexDigit

theorem mem_upperHexDigits_of_mem_hexCode {n : ℕ} {c : Char} (h : c ∈ hexCode n) :
    c ∈ upperHexDigits := by
  rw [hexCode, List.leftpad, List.mem_append] at h
  obtain hzero | hdigit := h
  · obtain rfl := List.eq_of_mem_replicate hzero
    decide
  · obtain ⟨d, hd, rfl⟩ := List.mem_map.mp hdigit
    have hlt : d < 16 := Nat.digits_lt_base (by decide) (List.mem_reverse.mp hd)
    exact List.mem_map_of_mem (List.mem_range.mpr hlt)

variable (safe : Char → Bool)

/-- How one character is written. -/
def quotedChar (c : Char) : List Char := if safe c then [c] else '%' :: hexCode c.toNat

/-- `UNSAFE.sub(lambda m: f"%{ord(m.group()):02X}", text)`. -/
def percentQuote (text : List Char) : List Char := text.flatMap (quotedChar safe)

/-- **Texts an encoding by code point writes alike**: they differ only where the code of one
character starts with the code of another, which the remaining digits follow. -/
inductive Alike : List Char → List Char → Prop
  | nil : Alike [] []
  | same {c : Char} {s t : List Char} (hc : safe c = true) (h : Alike s t) : Alike (c :: s) (c :: t)
  | longer {u v : Char} {digits s t : List Char} (hu : safe u = false) (hv : safe v = false)
      (hcode : hexCode u.toNat = hexCode v.toNat ++ digits) (h : Alike s t) :
      Alike (u :: s) (v :: (digits ++ t))
  | shorter {u v : Char} {digits s t : List Char} (hu : safe u = false) (hv : safe v = false)
      (hcode : hexCode v.toNat = hexCode u.toNat ++ digits) (h : Alike s t) :
      Alike (u :: (digits ++ s)) (v :: t)

variable {safe}

@[simp] theorem percentQuote_nil : percentQuote safe [] = [] := rfl

theorem percentQuote_append (s t : List Char) :
    percentQuote safe (s ++ t) = percentQuote safe s ++ percentQuote safe t :=
  List.flatMap_append

theorem percentQuote_cons_safe {c : Char} (hc : safe c = true) (s : List Char) :
    percentQuote safe (c :: s) = c :: percentQuote safe s := by
  rw [percentQuote, List.flatMap_cons, quotedChar, if_pos hc]
  rfl

theorem percentQuote_cons_quoted {c : Char} (hc : safe c = false) (s : List Char) :
    percentQuote safe (c :: s) = '%' :: (hexCode c.toNat ++ percentQuote safe s) := by
  rw [percentQuote, List.flatMap_cons, quotedChar, if_neg (by simp [hc])]
  rfl

/-- Safe text is written as it is. -/
theorem percentQuote_of_safe {s : List Char} (hs : ∀ c ∈ s, safe c = true) :
    percentQuote safe s = s := by
  induction s with
  | nil => rfl
  | cons c s ih =>
    obtain ⟨hc, hs⟩ := List.forall_mem_cons.mp hs
    rw [percentQuote_cons_safe hc, ih hs]

theorem percentQuote_eq_nil_iff {s : List Char} : percentQuote safe s = [] ↔ s = [] := by
  cases s with
  | nil => simp
  | cons c s =>
    cases hc : safe c with
    | true => simp [percentQuote_cons_safe hc]
    | false => simp [percentQuote_cons_quoted hc]

section Digits

variable (hdigit : ∀ c ∈ upperHexDigits, safe c = true) (hpercent : safe '%' = false)

include hdigit in
/-- **What stands in an encoded text**: percent signs, digits and the safe characters. -/
theorem mem_percentQuote {s : List Char} {c : Char} (h : c ∈ percentQuote safe s) :
    c = '%' ∨ safe c = true := by
  obtain ⟨d, -, hc⟩ := List.mem_flatMap.mp h
  rw [quotedChar] at hc
  split at hc
  · obtain rfl := List.mem_singleton.mp hc
    exact Or.inr ‹_›
  · obtain rfl | hc := List.mem_cons.mp hc
    · exact Or.inl rfl
    · exact Or.inr (hdigit _ (mem_upperHexDigits_of_mem_hexCode hc))

/-- A safe character that is no digit stands in the encoded text iff it stands in the text. -/
theorem mem_percentQuote_iff {s : List Char} {c : Char} (hc : safe c = true) (hne : c ≠ '%')
    (hnot : c ∉ upperHexDigits) : c ∈ percentQuote safe s ↔ c ∈ s := by
  rw [percentQuote, List.mem_flatMap]
  constructor
  · rintro ⟨d, hd, hmem⟩
    rw [quotedChar] at hmem
    split at hmem
    · rwa [List.mem_singleton.mp hmem]
    · obtain rfl | hmem := List.mem_cons.mp hmem
      · exact absurd rfl hne
      · exact absurd (mem_upperHexDigits_of_mem_hexCode hmem) hnot
  · intro hmem
    exact ⟨c, hmem, by rw [quotedChar, if_pos hc]; exact List.mem_singleton_self c⟩

/-- Digits at the front of an encoded text are digits at the front of the text. -/
theorem peel_digits {digits rest s : List Char} (hd : ∀ c ∈ digits, c ≠ '%')
    (h : percentQuote safe s = digits ++ rest) :
    ∃ t, s = digits ++ t ∧ percentQuote safe t = rest := by
  induction digits generalizing s with
  | nil => exact ⟨s, rfl, h⟩
  | cons d digits ih =>
    obtain ⟨hd, hds⟩ := List.forall_mem_cons.mp hd
    cases s with
    | nil => cases h
    | cons c s =>
      cases hc : safe c with
      | true =>
        rw [percentQuote_cons_safe hc] at h
        obtain ⟨rfl, htail⟩ := List.cons.inj h
        obtain ⟨t, rfl, ht⟩ := ih hds htail
        exact ⟨t, rfl, ht⟩
      | false =>
        rw [percentQuote_cons_quoted hc] at h
        exact absurd (List.cons.inj h).1.symm hd

include hdigit hpercent

private theorem ne_percent_of_hexCode {n : ℕ} {front digits : List Char}
    (h : hexCode n = front ++ digits) : ∀ c ∈ digits, c ≠ '%' := by
  rintro c hc rfl
  have hmem : '%' ∈ hexCode n := h ▸ List.mem_append_right _ hc
  rw [hdigit _ (mem_upperHexDigits_of_mem_hexCode hmem)] at hpercent
  cases hpercent

private theorem alike_quoted {u v : Char} {s t : List Char} (hu : safe u = false)
    (hv : safe v = false)
    (ih : ∀ s' t' : List Char, s'.length ≤ s.length → t'.length ≤ t.length →
      percentQuote safe s' = percentQuote safe t' → Alike safe s' t')
    (h : percentQuote safe (u :: s) = percentQuote safe (v :: t)) :
    Alike safe (u :: s) (v :: t) := by
  rw [percentQuote_cons_quoted hu, percentQuote_cons_quoted hv, List.cons.injEq,
    List.append_eq_append_iff] at h
  obtain ⟨-, ⟨digits, hcode, hrest⟩ | ⟨digits, hcode, hrest⟩⟩ := h
  · have hd := ne_percent_of_hexCode hdigit hpercent hcode
    obtain ⟨s', rfl, hs'⟩ := peel_digits hd hrest
    exact .shorter hu hv hcode (ih _ _ (by simp) le_rfl hs')
  · have hd := ne_percent_of_hexCode hdigit hpercent hcode
    obtain ⟨t', rfl, ht'⟩ := peel_digits hd hrest
    exact .longer hu hv hcode (ih _ _ le_rfl (by simp) ht'.symm)

/-- **Two texts are encoded to the same text iff they are alike.** -/
theorem percentQuote_eq_iff {s t : List Char} :
    percentQuote safe s = percentQuote safe t ↔ Alike safe s t := by
  have hdigits : ∀ {n : ℕ} {front digits : List Char}, hexCode n = front ++ digits →
      percentQuote safe digits = digits := fun h => percentQuote_of_safe fun c hc =>
    hdigit c (mem_upperHexDigits_of_mem_hexCode (h ▸ List.mem_append_right _ hc))
  constructor
  · intro h
    -- a code point may swallow digits of the other text, so the induction is on both lengths
    induction hn : s.length + t.length using Nat.strong_induction_on generalizing s t with
    | h n ih =>
      subst hn
      cases s with
      | nil =>
        obtain rfl := percentQuote_eq_nil_iff.mp h.symm
        exact .nil
      | cons u s =>
        cases t with
        | nil => cases percentQuote_eq_nil_iff.mp h
        | cons v t =>
          cases hu : safe u <;> cases hv : safe v
          · refine alike_quoted hdigit hpercent hu hv (fun s' t' hs ht h' => ?_) h
            exact ih _ (by simp only [List.length_cons]; omega) h' rfl
          · rw [percentQuote_cons_quoted hu, percentQuote_cons_safe hv] at h
            rw [(List.cons.inj h).1, hv] at hpercent
            cases hpercent
          · rw [percentQuote_cons_safe hu, percentQuote_cons_quoted hv] at h
            rw [← (List.cons.inj h).1, hu] at hpercent
            cases hpercent
          · rw [percentQuote_cons_safe hu, percentQuote_cons_safe hv] at h
            obtain ⟨rfl, htail⟩ := List.cons.inj h
            exact .same hu (ih _ (by simp only [List.length_cons]; omega) htail rfl)
  · intro h
    induction h with
    | nil => rfl
    | same hc _ ih => rw [percentQuote_cons_safe hc, percentQuote_cons_safe hc, ih]
    | longer hu hv hcode _ ih =>
      rw [percentQuote_cons_quoted hu, percentQuote_cons_quoted hv, percentQuote_append, ih,
        hdigits hcode, hcode, List.append_assoc]
    | shorter hu hv hcode _ ih =>
      rw [percentQuote_cons_quoted hu, percentQuote_cons_quoted hv, percentQuote_append, ih,
        hdigits hcode, hcode, List.append_assoc]

end Digits

end BareAnalysis
