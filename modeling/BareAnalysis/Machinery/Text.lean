import Mathlib.Data.Int.Basic
import Mathlib.Data.List.Basic
import Mathlib.Data.List.TakeWhile
import Mathlib.Tactic.Common

/-!
# Machinery/Text — texts as lists of characters, read the way Python reads them

    "a:b:c".partition(":") = a ⟨:⟩ b:c          "a:b:c".rpartition(":") = a:b ⟨:⟩ c

What an interpreter looks up in its Unicode tables is a parameter.
-/

namespace BareAnalysis

/-- What depends on the Unicode tables of the interpreter. -/
structure Unicode where
  /-- `text.lower()`. -/
  lower : List Char → List Char
  lower_nil : lower [] = []
  /-- `unicodedata.normalize("NFKC", text)`. -/
  nfkc : List Char → List Char
  /-- `char.isprintable()`. -/
  printable : Char → Bool
  /-- What `text.strip()` strips. -/
  space : Char → Bool

/-- The tables as far as ASCII goes. -/
def Unicode.ascii : Unicode where
  lower := List.map Char.toLower
  lower_nil := rfl
  nfkc := id
  printable c := decide (32 ≤ c.toNat ∧ c.toNat ≠ 127)
  space c := c.isWhitespace || decide (28 ≤ c.toNat ∧ c.toNat ≤ 31)

/-- The characters with the white-space property, as the tables have had them since Unicode 6.3. -/
def isSpace (c : Char) : Bool :=
  [0x20, 0x85, 0xa0, 0x1680, 0x2028, 0x2029, 0x202f, 0x205f, 0x3000].contains c.toNat
    || decide (9 ≤ c.toNat ∧ c.toNat ≤ 13 ∨ 28 ≤ c.toNat ∧ c.toNat ≤ 31
      ∨ 0x2000 ≤ c.toNat ∧ c.toNat ≤ 0x200a)

variable {α : Type*}

/-- `text.strip()`. -/
def strip (space : α → Bool) (s : List α) : List α :=
  ((s.dropWhile space).reverse.dropWhile space).reverse

theorem sublist_strip (space : α → Bool) (s : List α) : (strip space s).Sublist s := by
  have h := (List.dropWhile_sublist space (l := (s.dropWhile space).reverse)).reverse
  rw [List.reverse_reverse] at h
  exact h.trans (List.dropWhile_sublist space)

theorem dropWhile_of_prefix {p : α → Bool} {s t : List α} (h : t <+: s.dropWhile p) :
    t.dropWhile p = t := by
  rw [List.dropWhile_eq_self_iff]
  intro hpos
  have hlen : 0 < (s.dropWhile p).length := lt_of_lt_of_le hpos h.length_le
  rw [h.getElem hpos]
  exact List.dropWhile_get_zero_not p s hlen

/-- What was stripped has nothing more to strip. -/
theorem strip_strip (space : α → Bool) (s : List α) :
    strip space (strip space s) = strip space s := by
  have hprefix : strip space s <+: s.dropWhile space := by
    rw [← List.reverse_suffix, strip, List.reverse_reverse]
    exact List.dropWhile_suffix space
  rw [strip, dropWhile_of_prefix hprefix, strip, List.reverse_reverse,
    dropWhile_of_prefix (List.prefix_refl _)]

/-- `text.rstrip(chars)`. -/
def rstrip (p : α → Bool) (s : List α) : List α := (s.reverse.dropWhile p).reverse

/-- An index of a slice, counted from the end if it is negative. -/
def sliceIndex (length : ℕ) (i : ℤ) : ℕ :=
  if i < 0 then (i + length).toNat else min i.toNat length

/-- `text[start:stop]`. -/
def pySlice (s : List α) (start stop : ℤ) : List α :=
  (s.take (sliceIndex s.length stop)).drop (sliceIndex s.length start)

section Partition

variable [DecidableEq α]

/-- `text.partition(sep)`: what stands ahead of the first separator, and what follows it if there
is one. -/
def partition (sep : α) : List α → List α × Option (List α)
  | [] => ([], none)
  | c :: s =>
    if c = sep then ([], some s) else ((c :: (partition sep s).1), (partition sep s).2)

/-- `text.rpartition(sep)[2]`: what follows the last separator, the whole text without one. -/
def afterLast (sep : α) (s : List α) : List α :=
  (s.reverse.takeWhile fun c => decide (c ≠ sep)).reverse

/-- `text.rpartition(sep)`: what follows the last separator, and what stands ahead of it if there
is one. -/
def rpartition (sep : α) (s : List α) : Option (List α) × List α :=
  ((partition sep s.reverse).2.map List.reverse, (partition sep s.reverse).1.reverse)

theorem partition_of_not_mem {sep : α} {s : List α} (h : sep ∉ s) :
    partition sep s = (s, none) := by
  induction s with
  | nil => rfl
  | cons c s ih =>
    obtain ⟨hc, hs⟩ := not_or.mp (mt List.mem_cons.mpr h)
    rw [partition, if_neg (Ne.symm hc), ih hs]

theorem partition_append_cons {sep : α} {a : List α} (b : List α) (h : sep ∉ a) :
    partition sep (a ++ sep :: b) = (a, some b) := by
  induction a with
  | nil => exact if_pos rfl
  | cons c a ih =>
    obtain ⟨hc, ha⟩ := not_or.mp (mt List.mem_cons.mpr h)
    rw [List.cons_append, partition, if_neg (Ne.symm hc), ih ha]

omit [DecidableEq α] in
/-- A list with a separator is cut at the last one. -/
theorem eq_append_cons_of_mem_last {sep : α} {s : List α} (h : sep ∈ s) :
    ∃ a b, s = a ++ sep :: b ∧ sep ∉ b := by
  obtain ⟨b, a, heq, hb⟩ := List.eq_append_cons_of_mem (List.mem_reverse.mpr h)
  refine ⟨a.reverse, b.reverse, ?_, mt List.mem_reverse.mp hb⟩
  rw [← List.reverse_reverse s, heq]
  simp

theorem rpartition_of_not_mem {sep : α} {s : List α} (h : sep ∉ s) :
    rpartition sep s = (none, s) := by
  rw [rpartition, partition_of_not_mem (mt List.mem_reverse.mp h), List.reverse_reverse]
  rfl

theorem rpartition_append_cons {sep : α} (a : List α) {b : List α} (h : sep ∉ b) :
    rpartition sep (a ++ sep :: b) = (some a, b) := by
  have hrev : (a ++ sep :: b).reverse = b.reverse ++ sep :: a.reverse := by simp
  rw [rpartition, hrev, partition_append_cons _ (mt List.mem_reverse.mp h)]
  simp

/-- More text after a separator is more text after it. -/
theorem partition_append {sep : α} {s t : List α} (r : List α) (h : (partition sep s).2 = some t) :
    partition sep (s ++ r) = ((partition sep s).1, some (t ++ r)) := by
  induction s with
  | nil => cases h
  | cons c s ih =>
    by_cases hc : c = sep
    · rw [partition, if_pos hc] at h
      obtain rfl := Option.some.inj h
      rw [List.cons_append, partition, if_pos hc, partition, if_pos hc]
    · rw [partition, if_neg hc] at h
      rw [List.cons_append, partition, if_neg hc, ih h, partition, if_neg hc]

end Partition

end BareAnalysis
