import Mathlib.Data.List.Basic
import Mathlib.Data.List.Infix
import Mathlib.Tactic.Common

/-!
# Machinery/Regex — expressions, matched by backtracking

    ▸ab│cdef   ──expression──▸   ab▸cd│ef, ab▸c│def, …        the preferred end first

An expression takes a cursor to every cursor it can end at, in the order a backtracking matcher
tries them; a search takes the first end from the leftmost place that has one.  There is one group.
-/

namespace BareAnalysis

/-- A place in a text: the character ahead of it, what is left, and what the group has caught. -/
structure Cursor where
  last : Option Char
  rest : List Char
  group : Option (List Char) := none
  deriving DecidableEq

inductive Re
  | empty
  /-- One character of a class. -/
  | char (accepts : Char → Bool)
  /-- `^`. -/
  | start
  /-- `$`: at the end, or ahead of the newline that ends the text. -/
  | stop
  /-- `^` and `$` at every line. -/
  | lineStart
  | lineStop
  | seq (a b : Re)
  | alt (a b : Re)
  /-- Greedy repetition, from `least` rounds to `most`. -/
  | rep (least : ℕ) (most : Option ℕ) (a : Re)
  /-- `(?!…)`. -/
  | ahead (a : Re)
  /-- `(…)`. -/
  | group (a : Re)

namespace Re

/-- `re.IGNORECASE` at a letter of ASCII: the other case, and the letters beyond ASCII that have it
as one. -/
def sameLetter (c d : Char) : Bool :=
  d.toLower == c.toLower || (c == 'i' && (d == 'İ' || d == 'ı')) || (c == 's' && d == 'ſ')
    || (c == 'k' && d == '\u212A')

/-- A text, whatever its case. -/
def text (s : String) : Re :=
  s.toList.foldr (fun c re => .seq (.char (sameLetter c)) re) .empty

/-- A text as it is. -/
def exactly (s : String) : Re := s.toList.foldr (fun c re => .seq (.char (· == c)) re) .empty

/-- One expression after another. -/
def all (res : List Re) : Re := res.foldr .seq .empty

/-! ## Matching -/

/-- The rounds of a repetition: another one is tried before the loop is left, and each reads on. -/
def rounds (body : Cursor → List Cursor) : ℕ → ℕ → Option ℕ → Cursor → List Cursor
  | 0, least, _, c => if least = 0 then [c] else []
  | fuel + 1, least, most, c =>
    (if most = some 0 then []
      else ((body c).filter fun d => d.rest.length < c.rest.length).flatMap
        (rounds body fuel (least - 1) (most.map (· - 1))))
      ++ if least = 0 then [c] else []

/-- Where an expression can end, the preferred end first. -/
def ends : Re → Cursor → List Cursor
  | empty, c => [c]
  | char accepts, c =>
    match c.rest with
    | [] => []
    | x :: rest => if accepts x then [{ c with last := some x, rest := rest }] else []
  | start, c => if c.last = none then [c] else []
  | stop, c => if c.rest = [] ∨ c.rest = ['\n'] then [c] else []
  | lineStart, c => if c.last = none ∨ c.last = some '\n' then [c] else []
  | lineStop, c => if c.rest = [] ∨ c.rest.head? = some '\n' then [c] else []
  | seq a b, c => (a.ends c).flatMap b.ends
  | alt a b, c => a.ends c ++ b.ends c
  | rep least most a, c => rounds a.ends c.rest.length least most c
  | ahead a, c => if (a.ends c).isEmpty then [c] else []
  | group a, c => (a.ends c).map fun d =>
      { d with group := some (c.rest.take (c.rest.length - d.rest.length)) }

/-- The search, from a place on. -/
def searchFrom (re : Re) : Option Char → List Char → Option Cursor
  | last, [] => (re.ends { last := last, rest := [] }).head?
  | last, c :: rest =>
    match (re.ends { last := last, rest := c :: rest }).head? with
    | some d => some d
    | none => re.searchFrom (some c) rest

/-- `pattern.search(text)`: where the match ends. -/
def search (re : Re) (text : List Char) : Option Cursor := re.searchFrom none text

/-- `pattern.search(text)` as a condition. -/
def found (re : Re) (text : List Char) : Bool := (re.search text).isSome

/-- `pattern.search(text).group(1)`. -/
def group1 (re : Re) (text : List Char) : Option (List Char) :=
  (re.search text).bind Cursor.group

example : (Re.all [.lineStart, text "n:", .group (.rep 1 (some 3) (.char Char.isDigit))]).group1
    "1\nN:2385".toList = some "238".toList := by decide

/-! ## What a match reads -/

theorem eq_of_mem_ite {p : Prop} [Decidable p] {c d : Cursor} (h : d ∈ if p then [c] else []) :
    d = c := by
  split at h
  · exact List.mem_singleton.mp h
  · cases h

/-- Rounds keep what each round keeps. -/
theorem of_mem_rounds {P : Cursor → Prop} {body : Cursor → List Cursor}
    (hbody : ∀ c, P c → ∀ d ∈ body c, P d) (fuel : ℕ) {least : ℕ} {most : Option ℕ} {c d : Cursor}
    (hc : P c) (hd : d ∈ rounds body fuel least most c) : P d := by
  induction fuel generalizing least most c with
  | zero => exact eq_of_mem_ite hd ▸ hc
  | succ fuel ih =>
    obtain hd | hd := List.mem_append.mp hd
    · split at hd
      · cases hd
      · obtain ⟨e, he, hd⟩ := List.mem_flatMap.mp hd
        exact ih (hbody c hc e (List.mem_filter.mp he).1) hd
    · exact eq_of_mem_ite hd ▸ hc

/-- **Matching keeps what one character and one group keep.** -/
theorem of_mem_ends {P : Cursor → Prop}
    (hchar : ∀ c x rest, P c → c.rest = x :: rest → P { c with last := some x, rest := rest })
    (hgroup : ∀ c d g, P c → P d → g <+: c.rest → P { d with group := some g })
    (re : Re) {c d : Cursor} (hc : P c) (hd : d ∈ re.ends c) : P d := by
  induction re generalizing c d with
  | empty => exact List.mem_singleton.mp hd ▸ hc
  | char accepts =>
    rw [ends] at hd
    split at hd
    · cases hd
    · rename_i x rest hrest
      split at hd
      · obtain rfl := List.mem_singleton.mp hd
        exact hchar c x rest hc hrest
      · cases hd
  | start => exact eq_of_mem_ite hd ▸ hc
  | stop => exact eq_of_mem_ite hd ▸ hc
  | lineStart => exact eq_of_mem_ite hd ▸ hc
  | lineStop => exact eq_of_mem_ite hd ▸ hc
  | seq a b iha ihb =>
    obtain ⟨e, he, hd⟩ := List.mem_flatMap.mp hd
    exact ihb (iha hc he) hd
  | alt a b iha ihb =>
    obtain hd | hd := List.mem_append.mp hd
    · exact iha hc hd
    · exact ihb hc hd
  | rep least most a ih => exact of_mem_rounds (fun c hc d hd => ih hc hd) _ hc hd
  | ahead a => exact eq_of_mem_ite hd ▸ hc
  | group a ih =>
    obtain ⟨e, he, rfl⟩ := List.mem_map.mp hd
    exact hgroup c e _ hc (ih hc he) (List.take_prefix _ _)

/-- A cursor stands in a text, and its group is part of it. -/
structure StandsIn (text : List Char) (c : Cursor) : Prop where
  rest : c.rest <:+ text
  group : ∀ g, c.group = some g → g <:+: text

/-- **A match stays in the text.** -/
theorem standsIn_of_mem_ends {text : List Char} (re : Re) {c d : Cursor}
    (hc : StandsIn text c) (hd : d ∈ re.ends c) : StandsIn text d := by
  refine of_mem_ends (fun c x rest hc hrest => ?_) (fun c d g hc hd hg => ?_) re hc hd
  · exact ⟨(List.suffix_cons x rest).trans (hrest ▸ hc.rest), hc.group⟩
  · refine ⟨hd.rest, fun g' hg' => ?_⟩
    obtain rfl := Option.some.inj hg'
    exact hg.isInfix.trans hc.rest.isInfix

/-- A search ends where the expression can end, from some place of the text. -/
theorem exists_ends_of_searchFrom {re : Re} {last : Option Char} {s : List Char} {d : Cursor}
    (h : re.searchFrom last s = some d) :
    ∃ last' rest, rest <:+ s ∧ d ∈ re.ends { last := last', rest := rest } := by
  induction s generalizing last with
  | nil => exact ⟨last, [], List.suffix_rfl, List.mem_of_head? h⟩
  | cons c rest ih =>
    rw [searchFrom] at h
    split at h
    · rename_i d' hd'
      obtain rfl := Option.some.inj h
      exact ⟨last, c :: rest, List.suffix_rfl, List.mem_of_head? hd'⟩
    · obtain ⟨last', rest', hrest, hd⟩ := ih h
      exact ⟨last', rest', hrest.trans (List.suffix_cons c rest), hd⟩

/-- **What the group caught is part of the text.** -/
theorem infix_of_group1_eq_some {re : Re} {text g : List Char} (h : re.group1 text = some g) :
    g <:+: text := by
  obtain ⟨d, hd, hg⟩ := Option.bind_eq_some_iff.mp h
  obtain ⟨last, rest, hrest, hd⟩ := exists_ends_of_searchFrom hd
  exact (standsIn_of_mem_ends re ⟨hrest, fun _ hnone => by cases hnone⟩ hd).group g hg

/-! ## Expressions that fill their group -/

/-- Every match fills the group. -/
def captures : Re → Bool
  | group _ => true
  | seq a b => a.captures || b.captures
  | alt a b => a.captures && b.captures
  | _ => false

/-- A group that was filled stays filled. -/
theorem isSome_group_of_mem_ends (re : Re) {c d : Cursor} (hc : c.group.isSome)
    (hd : d ∈ re.ends c) : d.group.isSome :=
  of_mem_ends (P := fun c => c.group.isSome) (fun _ _ _ hc _ => hc) (fun _ _ _ _ _ _ => rfl) re hc
    hd

theorem isSome_group_of_captures {re : Re} (hre : re.captures) {c d : Cursor}
    (hd : d ∈ re.ends c) : d.group.isSome := by
  induction re generalizing c d with
  | seq a b iha ihb =>
    obtain ⟨e, he, hd⟩ := List.mem_flatMap.mp hd
    obtain ha | hb := Bool.or_eq_true_iff.mp hre
    · exact isSome_group_of_mem_ends b (iha ha he) hd
    · exact ihb hb hd
  | alt a b iha ihb =>
    obtain ⟨ha, hb⟩ := Bool.and_eq_true_iff.mp hre
    obtain hd | hd := List.mem_append.mp hd
    · exact iha ha hd
    · exact ihb hb hd
  | group a =>
    obtain ⟨e, -, rfl⟩ := List.mem_map.mp hd
    rfl
  | empty | char | start | stop | lineStart | lineStop | rep | ahead => cases hre

/-- **A match of such an expression has a group.** -/
theorem isSome_group1 {re : Re} (hre : re.captures) (text : List Char) :
    (re.group1 text).isSome = re.found text := by
  rw [group1, found]
  cases h : re.search text with
  | none => rfl
  | some d =>
    obtain ⟨_, _, -, hd⟩ := exists_ends_of_searchFrom h
    exact isSome_group_of_captures hre hd

end Re

end BareAnalysis
