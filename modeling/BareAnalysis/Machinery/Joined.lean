import Mathlib.Algebra.GroupWithZero.Nat
import Mathlib.Data.Int.Basic
import Mathlib.Data.List.Basic
import Mathlib.Tactic.Common

/-!
# Machinery/Joined — texts joined by a separator, and how much of them can be read back

    a ⟨sep⟩ b ⟨sep⟩ c        a, b free of the separator: read from the left
                             c free of the separator: read from the right

Joining is injective as far as the parts keep clear of the separator; decimal numerals keep clear of
every separator that is neither a digit nor a minus sign.
-/

namespace BareAnalysis

variable {α : Type*}

/-- The first part of a joined text, when it is free of the separator. -/
theorem append_cons_inj_left {sep : α} {xs ys as bs : List α} (hx : sep ∉ xs) (hy : sep ∉ ys)
    (h : xs ++ sep :: as = ys ++ sep :: bs) : xs = ys ∧ as = bs := by
  induction xs generalizing ys with
  | nil =>
    cases ys with
    | nil => exact ⟨rfl, (List.cons.inj h).2⟩
    | cons y ys => exact absurd ((List.cons.inj h).1 ▸ List.mem_cons_self) hy
  | cons x xs ih =>
    cases ys with
    | nil => exact absurd ((List.cons.inj h).1 ▸ List.mem_cons_self) hx
    | cons y ys =>
      obtain ⟨rfl, htail⟩ := List.cons.inj h
      obtain ⟨rfl, hrest⟩ := ih (fun hm => hx (List.mem_cons_of_mem _ hm))
        (fun hm => hy (List.mem_cons_of_mem _ hm)) htail
      exact ⟨rfl, hrest⟩

/-- …and the last part, when that is. -/
theorem append_cons_inj_right {sep : α} {xs ys as bs : List α} (ha : sep ∉ as) (hb : sep ∉ bs)
    (h : xs ++ sep :: as = ys ++ sep :: bs) : xs = ys ∧ as = bs := by
  have hrev : as.reverse ++ sep :: xs.reverse = bs.reverse ++ sep :: ys.reverse := by
    simpa using congrArg List.reverse h
  obtain ⟨hab, hxy⟩ := append_cons_inj_left (by simpa using ha) (by simpa using hb) hrev
  exact ⟨List.reverse_injective hxy, List.reverse_injective hab⟩

/-- **A list of parts can be read back from their join.** -/
theorem intercalate_inj [DecidableEq α] {sep : α} {ls ms : List (List α)} (hl : ls ≠ [])
    (hm : ms ≠ []) (hls : ∀ l ∈ ls, sep ∉ l) (hms : ∀ m ∈ ms, sep ∉ m)
    (h : [sep].intercalate ls = [sep].intercalate ms) : ls = ms := by
  rw [← List.splitOn_intercalate sep hls hl, h, List.splitOn_intercalate sep hms hm]

/-- The same for texts. -/
theorem string_intercalate_inj {sep : Char} {ls ms : List String} (hl : ls ≠ []) (hm : ms ≠ [])
    (hls : ∀ l ∈ ls, sep ∉ l.toList) (hms : ∀ m ∈ ms, sep ∉ m.toList)
    (h : (String.singleton sep).intercalate ls = (String.singleton sep).intercalate ms) :
    ls = ms := by
  have hchars := congrArg String.toList h
  rw [String.toList_intercalate, String.toList_intercalate, String.toList_singleton] at hchars
  refine List.map_injective_iff.mpr (fun a b => String.toList_inj.mp) <|
    intercalate_inj (by simpa using hl) (by simpa using hm) ?_ ?_ hchars
  · simpa using hls
  · simpa using hms

/-- A joined text with one more separator ends every part with one. -/
theorem intercalate_append_sep (sep : α) (l : List α) (ls : List (List α)) :
    [sep].intercalate (l :: ls) ++ [sep] = (l :: ls).flatMap (· ++ [sep]) := by
  induction ls generalizing l with
  | nil => simp
  | cons m ls ih =>
    rw [List.intercalate_cons_cons, List.flatMap_cons, ← ih m]
    simp

/-- **The first parts can be read back whatever the others hold.** -/
theorem intercalate_append_inj {sep : α} {ls ms rs ss : List (List α)}
    (hlen : ls.length = ms.length) (hls : ∀ l ∈ ls, sep ∉ l) (hms : ∀ m ∈ ms, sep ∉ m)
    (h : [sep].intercalate (ls ++ rs) = [sep].intercalate (ms ++ ss)) : ls = ms := by
  have hends : ∀ {ls ms : List (List α)}, ls.length = ms.length → (∀ l ∈ ls, sep ∉ l) →
      (∀ m ∈ ms, sep ∉ m) →
      (ls ++ rs).flatMap (· ++ [sep]) = (ms ++ ss).flatMap (· ++ [sep]) → ls = ms := by
    intro ls
    induction ls with
    | nil => exact fun hlen _ _ _ => (List.length_eq_zero_iff.mp hlen.symm).symm
    | cons l ls ih =>
      rintro (- | ⟨m, ms⟩) hlen hls hms heq
      · cases hlen
      rw [List.cons_append, List.cons_append, List.flatMap_cons, List.flatMap_cons,
        List.append_assoc, List.append_assoc, List.singleton_append, List.singleton_append] at heq
      obtain ⟨rfl, hrest⟩ := append_cons_inj_left (hls l List.mem_cons_self)
        (hms m List.mem_cons_self) heq
      rw [ih (Nat.succ.inj hlen) (fun l hl => hls l (List.mem_cons_of_mem _ hl))
        (fun m hm => hms m (List.mem_cons_of_mem _ hm)) hrest]
  obtain - | ⟨l, ls⟩ := ls
  · exact (List.length_eq_zero_iff.mp hlen.symm).symm
  obtain - | ⟨m, ms⟩ := ms
  · cases hlen
  refine hends hlen hls hms ?_
  rw [List.cons_append, List.cons_append, ← intercalate_append_sep, ← intercalate_append_sep,
    ← List.cons_append, ← List.cons_append, h]

/-- The same for texts. -/
theorem string_intercalate_append_inj {sep : Char} {ls ms rs ss : List String}
    (hlen : ls.length = ms.length) (hls : ∀ l ∈ ls, sep ∉ l.toList)
    (hms : ∀ m ∈ ms, sep ∉ m.toList)
    (h : (String.singleton sep).intercalate (ls ++ rs)
      = (String.singleton sep).intercalate (ms ++ ss)) : ls = ms := by
  have hchars := congrArg String.toList h
  rw [String.toList_intercalate, String.toList_intercalate, String.toList_singleton,
    List.map_append, List.map_append] at hchars
  refine List.map_injective_iff.mpr (fun a b => String.toList_inj.mp) <|
    intercalate_append_inj (by simpa using hlen) ?_ ?_ hchars
  · simpa using hls
  · simpa using hms

/-- How often the separator stands in a joined text. -/
theorem count_intercalate [DecidableEq α] (sep : α) (l : List α) (ls : List (List α)) :
    ([sep].intercalate (l :: ls)).count sep
      = ls.length + ((l :: ls).map (List.count sep)).sum := by
  have hcount : ∀ ms : List (List α),
      (ms.flatMap (· ++ [sep])).count sep = ms.length + (ms.map (List.count sep)).sum := by
    intro ms
    induction ms with
    | nil => rfl
    | cons m ms ih =>
      rw [List.flatMap_cons, List.count_append, List.count_append, ih, List.count_singleton_self,
        List.length_cons, List.map_cons, List.sum_cons]
      omega
  have hends := congrArg (List.count sep) (intercalate_append_sep sep l ls)
  rw [List.count_append, List.count_singleton_self, hcount, List.length_cons] at hends
  omega

/-- **A joined text tells its parts among all lists that are no shorter**, if they keep clear of the
separator. -/
theorem intercalate_inj_of_length_le [DecidableEq α] {sep : α} {ls ms : List (List α)}
    (hl : ls ≠ []) (hlen : ls.length ≤ ms.length) (hls : ∀ l ∈ ls, sep ∉ l)
    (h : [sep].intercalate ms = [sep].intercalate ls) : ms = ls := by
  obtain ⟨l, ls, rfl⟩ := List.exists_cons_of_ne_nil hl
  obtain - | ⟨m, ms⟩ := ms
  · exact absurd hlen (by simp)
  have hzero : ((l :: ls).map (List.count sep)).sum = 0 := by
    refine List.sum_eq_zero_iff_forall_eq_nat.mpr fun n hn => ?_
    obtain ⟨l', hl', rfl⟩ := List.mem_map.mp hn
    exact List.count_eq_zero.mpr (hls l' hl')
  have hcount := congrArg (List.count sep) h
  rw [count_intercalate, count_intercalate, hzero] at hcount
  simp only [List.length_cons] at hlen
  have hsum : ((m :: ms).map (List.count sep)).sum = 0 := by omega
  refine intercalate_inj (List.cons_ne_nil _ _) hl (fun m' hm' => ?_) hls h
  exact List.count_eq_zero.mp (List.sum_eq_zero_iff_forall_eq_nat.mp hsum _
    (List.mem_map_of_mem hm'))

/-- The same for texts. -/
theorem string_intercalate_inj_of_length_le {sep : Char} {ls ms : List String} (hl : ls ≠ [])
    (hlen : ls.length ≤ ms.length) (hls : ∀ l ∈ ls, sep ∉ l.toList)
    (h : (String.singleton sep).intercalate ms = (String.singleton sep).intercalate ls) :
    ms = ls := by
  have hchars := congrArg String.toList h
  rw [String.toList_intercalate, String.toList_intercalate, String.toList_singleton] at hchars
  refine List.map_injective_iff.mpr (fun a b => String.toList_inj.mp) <|
    intercalate_inj_of_length_le (by simpa using hl) (by simpa using hlen) ?_ hchars
  simpa using hls

/-! ## Numerals -/

theorem nat_toString_injective {m n : ℕ} (h : toString m = toString n) : m = n := by
  have hdigits : Nat.toDigits 10 m = Nat.toDigits 10 n := by
    simpa using congrArg String.toList h
  rw [← @Nat.ofDigitChars_ten_toDigits m, hdigits, Nat.ofDigitChars_ten_toDigits]

theorem isDigit_of_mem_toString {n : ℕ} {c : Char} (hc : c ∈ (toString n).toList) :
    c.isDigit = true :=
  Nat.isDigit_of_mem_toDigits (b := 10) (n := n) (by decide) (by decide) (by simpa using hc)

/-- A digit is the numeral of its value. -/
theorem digitChar_of_isDigit {c : Char} (h : c.isDigit = true) :
    c.toNat - '0'.toNat < 10 ∧ Nat.digitChar (c.toNat - '0'.toNat) = c := by
  rw [Char.isDigit_iff_toNat] at h
  have hzero : '0'.toNat = 48 := rfl
  have hnine : '9'.toNat = 57 := rfl
  have hlt : c.toNat - '0'.toNat < 10 := by omega
  refine ⟨hlt, Char.toNat_inj.mp ?_⟩
  rw [Nat.toNat_digitChar_of_lt_ten hlt]
  omega

/-- Digits go on where a numeral ends. -/
theorem toDigits_append_digits {n : ℕ} {l : List Char} (hn : 0 < n)
    (hl : ∀ c ∈ l, c.isDigit = true) :
    Nat.toDigits 10 n ++ l = Nat.toDigits 10 (Nat.ofDigitChars 10 l n) := by
  induction l generalizing n with
  | nil => rw [List.append_nil, Nat.ofDigitChars_nil]
  | cons c l ih =>
    obtain ⟨hc, hl⟩ := List.forall_mem_cons.mp hl
    obtain ⟨hlt, hchar⟩ := digitChar_of_isDigit hc
    have happend := Nat.toDigits_append_toDigits (b := 10) (by decide) hn hlt
    rw [Nat.toDigits_of_lt_base hlt, hchar] at happend
    rw [Nat.ofDigitChars_cons, ← ih (by omega) hl, ← happend, List.append_assoc]
    rfl

/-- A numeral without leading zeros is printed as it was read. -/
theorem toDigits_ofDigitChars {c : Char} {l : List Char} (hzero : c ≠ '0')
    (h : ∀ d ∈ c :: l, d.isDigit = true) :
    Nat.toDigits 10 (Nat.ofDigitChars 10 (c :: l) 0) = c :: l := by
  obtain ⟨hc, hl⟩ := List.forall_mem_cons.mp h
  obtain ⟨hlt, hchar⟩ := digitChar_of_isDigit hc
  have hpos : 0 < c.toNat - '0'.toNat := by
    refine Nat.pos_of_ne_zero fun hval => hzero ?_
    rw [← hchar, hval]
    rfl
  rw [Nat.ofDigitChars_cons, Nat.mul_zero, Nat.zero_add, ← toDigits_append_digits hpos hl,
    Nat.toDigits_of_lt_base hlt, hchar]
  rfl

/-- The value of so many digits. -/
theorem ofDigitChars_lt {b : ℕ} {l : List Char} (h : ∀ c ∈ l, c.toNat - '0'.toNat < b) (n : ℕ) :
    Nat.ofDigitChars b l n < b ^ l.length * (n + 1) := by
  induction l generalizing n with
  | nil => rw [Nat.ofDigitChars_nil, List.length_nil, pow_zero, one_mul]; exact Nat.lt_succ_self n
  | cons c l ih =>
    obtain ⟨hc, hl⟩ := List.forall_mem_cons.mp h
    rw [Nat.ofDigitChars_cons]
    refine lt_of_lt_of_le (ih hl _) ?_
    rw [List.length_cons, pow_succ, mul_assoc]
    refine Nat.mul_le_mul_left _ ?_
    rw [Nat.mul_add]
    omega

/-- A decimal numeral: digits, after a minus sign if it is negative. -/
theorem mem_int_toString {z : ℤ} {c : Char} (hc : c ∈ (toString z).toList) :
    c.isDigit = true ∨ c = '-' := by
  cases z with
  | ofNat n => exact Or.inl (isDigit_of_mem_toString (n := n) hc)
  | negSucc n =>
    have hc : c ∈ ("-" ++ toString (n + 1)).toList := hc
    rw [String.toList_append, List.mem_append] at hc
    rcases hc with hc | hc
    · exact Or.inr (by simpa using hc)
    · exact Or.inl (isDigit_of_mem_toString hc)

/-- **Integers print apart.** -/
theorem int_toString_injective {y z : ℤ} (h : toString y = toString z) : y = z := by
  have hminus : ∀ {m n : ℕ}, toString m ≠ "-" ++ toString n := fun {m n} he => by
    have hmem : '-' ∈ (toString m).toList := by rw [he]; simp
    exact absurd (isDigit_of_mem_toString hmem) (by decide)
  cases y with
  | ofNat m =>
    cases z with
    | ofNat n => rw [nat_toString_injective (m := m) (n := n) h]
    | negSucc n => exact absurd h (hminus (m := m) (n := n + 1))
  | negSucc m =>
    cases z with
    | ofNat n => exact absurd h.symm (hminus (m := n) (n := m + 1))
    | negSucc n =>
      have : "-" ++ toString (m + 1) = "-" ++ toString (n + 1) := h
      have hmn := nat_toString_injective ((String.append_right_inj "-").mp this)
      rw [Nat.succ_injective hmn]

end BareAnalysis
