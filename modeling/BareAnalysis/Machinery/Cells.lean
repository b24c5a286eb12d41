import Mathlib.Algebra.GroupWithZero.Nat
import Mathlib.Algebra.BigOperators.Group.List.Basic
import Mathlib.Data.List.Basic
import Mathlib.Tactic.Common

/-!
# Machinery/Cells — joined lines, and the cells of a line

    | a | b \| c |        three separators that count, two cells

The marks of joined texts add up (`countP_intercalate`).  A line is cut at the separators that no
escape stands before, and behind a character of neither kind the count starts afresh
(`separators_append_cons`).
-/

namespace BareAnalysis

variable {α : Type*}

/-- **The marks of a joined text** are the marks of its parts and of the joints. -/
theorem countP_intercalate (p : α → Bool) {sep : List α} {parts : List (List α)}
    (hne : parts ≠ []) :
    (sep.intercalate parts).countP p
      = (parts.map fun part => part.countP p).sum + (parts.length - 1) * sep.countP p := by
  induction parts with
  | nil => exact absurd rfl hne
  | cons part parts ih =>
    cases parts with
    | nil => simp
    | cons next parts =>
      rw [List.intercalate_cons_cons, List.countP_append, List.countP_append,
        ih (List.cons_ne_nil _ _)]
      simp only [List.map_cons, List.sum_cons, List.length_cons, Nat.add_sub_cancel, Nat.add_mul]
      omega

namespace Cells

variable [DecidableEq α] (esc sep : α)

/-- The pieces of a line between its separators; an escape hides the character behind it. -/
def split : List α → List (List α)
  | [] => [[]]
  | [c] => if c = sep then [[], []] else [[c]]
  | c :: d :: line =>
    if c = esc then (split line).modifyHead fun piece => c :: d :: piece
    else if c = sep then [] :: split (d :: line)
    else (split (d :: line)).modifyHead fun piece => c :: piece

/-- How many separators count. -/
def separators : List α → ℕ
  | [] => 0
  | [c] => if c = sep then 1 else 0
  | c :: d :: line =>
    if c = esc then separators line
    else if c = sep then separators (d :: line) + 1
    else separators (d :: line)

/-- What stands between the outermost separators. -/
def cells (line : List α) : List (List α) := ((split esc sep line).drop 1).dropLast

theorem length_split (line : List α) :
    (split esc sep line).length = separators esc sep line + 1 := by
  fun_induction split esc sep line with
  | case1 => rfl
  | case2 => rw [separators, if_pos rfl]; rfl
  | case3 c hsep => rw [separators, if_neg hsep]; rfl
  | case4 d line ih => rw [separators, if_pos rfl, List.length_modifyHead, ih]
  | case5 d line hesc ih => rw [separators, if_neg hesc, if_pos rfl, List.length_cons, ih]
  | case6 c d line hesc hsep ih =>
    rw [separators, if_neg hesc, if_neg hsep, List.length_modifyHead, ih]

/-- A row has one cell less than it has separators. -/
theorem length_cells (line : List α) :
    (cells esc sep line).length = separators esc sep line - 1 := by
  rw [cells, List.length_dropLast, List.length_drop, length_split, Nat.add_sub_cancel]

variable {esc sep}

theorem separators_cons {c : α} (hesc : c ≠ esc) (hsep : c ≠ sep) (line : List α) :
    separators esc sep (c :: line) = separators esc sep line := by
  cases line with
  | nil => exact if_neg hsep
  | cons d line => rw [separators, if_neg hesc, if_neg hsep]

theorem separators_sep (h : sep ≠ esc) (line : List α) :
    separators esc sep (sep :: line) = separators esc sep line + 1 := by
  cases line with
  | nil => exact if_pos rfl
  | cons d line => rw [separators, if_neg h, if_pos rfl]

/-- **Behind a character of neither kind the count starts afresh**: whatever the text before it
escapes, it is no separator. -/
theorem separators_append_cons (hne : sep ≠ esc) {c : α} (hesc : c ≠ esc) (hsep : c ≠ sep)
    (text line : List α) :
    separators esc sep (text ++ c :: line)
      = separators esc sep text + separators esc sep line := by
  fun_induction separators esc sep text with
  | case1 => rw [List.nil_append, separators_cons hesc hsep, Nat.zero_add]
  | case2 =>
    rw [List.singleton_append, separators_sep hne, separators_cons hesc hsep, Nat.add_comm]
  | case3 d hd =>
    rw [List.singleton_append, Nat.zero_add, separators]
    by_cases hdesc : d = esc
    · rw [if_pos hdesc]
    · rw [if_neg hdesc, if_neg hd, separators_cons hesc hsep]
  | case4 d text ih => rw [List.cons_append, List.cons_append, separators, if_pos rfl, ih]
  | case5 d text hd ih =>
    rw [List.cons_append, List.cons_append, separators, if_neg hd, if_pos rfl, ← List.cons_append,
      ih, Nat.add_right_comm]
  | case6 d e text hdesc hdsep ih =>
    rw [List.cons_append, List.cons_append, separators, if_neg hdesc, if_neg hdsep,
      ← List.cons_append, ih]

end Cells

end BareAnalysis
