import Mathlib.Data.Nat.Digits.Lemmas
import Mathlib.Data.Prod.Lex

/-!
# Machinery/Calendar — dates of the proleptic Gregorian calendar

A `Date` carries the proof that it names a real day, as `datetime.date` does by construction.  Days
compare by year, month, day; `toordinal` counts from 1 January of year 1.
-/

namespace BareAnalysis

namespace Calendar

/-- February has 29 days in this year. -/
def isLeap (year : ℕ) : Bool := year % 4 == 0 && (year % 100 != 0 || year % 400 == 0)

/-- The days of each month of a year, January first. -/
def monthLengths (year : ℕ) : List ℕ :=
  [31, if isLeap year then 29 else 28, 31, 30, 31, 30, 31, 31, 30, 31, 30, 31]

end Calendar

open Calendar

/-- `datetime.date`. -/
structure Date where
  year : ℕ
  month : ℕ
  day : ℕ
  year_mem : 1 ≤ year ∧ year ≤ 9999 := by decide
  month_mem : 1 ≤ month ∧ month ≤ 12 := by decide
  day_mem : 1 ≤ day ∧ day ≤ (monthLengths year).getD (month - 1) 0 := by decide
  deriving DecidableEq, Repr

namespace Date

@[ext] theorem ext {a b : Date} (hy : a.year = b.year) (hm : a.month = b.month)
    (hd : a.day = b.day) : a = b := by
  cases a; cases b; simp_all

/-- The sort key of a date. -/
def key (d : Date) : ℕ ×ₗ ℕ ×ₗ ℕ := toLex (d.year, toLex (d.month, d.day))

theorem key_injective : Function.Injective key := fun a b h => by
  have h1 := congrArg (fun k => (ofLex k).1) h
  have h2 := congrArg (fun k => (ofLex (ofLex k).2).1) h
  have h3 := congrArg (fun k => (ofLex (ofLex k).2).2) h
  exact Date.ext h1 h2 h3

instance : LinearOrder Date := LinearOrder.lift' key key_injective

/-- Days since the calendar began, 1 January of year 1 being day 1. -/
def toordinal (d : Date) : ℕ :=
  let y := d.year - 1
  y * 365 + y / 4 - y / 100 + y / 400 + ((monthLengths d.year).take (d.month - 1)).foldl (· + ·) 0 + d.day

/-- A decimal numeral padded with zeros on the left. -/
def padded (width n : ℕ) : String :=
  String.ofList (List.replicate (width - (toString n).length) '0') ++ toString n

/-- `YYYY-MM-DD`. -/
def isoformat (d : Date) : String :=
  padded 4 d.year ++ "-" ++ padded 2 d.month ++ "-" ++ padded 2 d.day

/-- `date(year, month, day)`. -/
def of? (year month day : ℕ) : Option Date :=
  if h : (1 ≤ year ∧ year ≤ 9999) ∧ (1 ≤ month ∧ month ≤ 12) ∧
      1 ≤ day ∧ day ≤ (monthLengths year).getD (month - 1) 0 then
    some ⟨year, month, day, h.1, h.2.1, h.2.2⟩
  else none

@[simp] theorem of?_self (d : Date) : of? d.year d.month d.day = some d :=
  dif_pos ⟨d.year_mem, d.month_mem, d.day_mem⟩

/-- The month and the day of a day of the year, counted from 0. -/
def monthAndDay : List ℕ → ℕ → ℕ × ℕ
  | [], n => (1, n + 1)
  | length :: lengths, n =>
    if n < length then (1, n + 1)
    else ((monthAndDay lengths (n - length)).1 + 1, (monthAndDay lengths (n - length)).2)

/-- `date.fromordinal(n)`: cycles of 400, 100 and 4 years, then years; the last day of a cycle
belongs to the year before. -/
def fromordinal? (n : ℕ) : Option Date :=
  if n = 0 then none else
    let n := n - 1
    let (n400, n) := (n / 146097, n % 146097)
    let (n100, n) := (n / 36524, n % 36524)
    let (n4, n) := (n / 1461, n % 1461)
    let (n1, n) := (n / 365, n % 365)
    let year := n400 * 400 + n100 * 100 + n4 * 4 + n1 + 1
    if n1 = 4 ∨ n100 = 4 then of? (year - 1) 12 31
    else
      let (month, day) := monthAndDay (monthLengths year) n
      of? year month day

/-- A numeral of exactly so many digits. -/
def numeral? (width : ℕ) (s : List Char) : Option ℕ :=
  if s.length = width ∧ s.all Char.isDigit = true then some (Nat.ofDigitChars 10 s 0) else none

/-- The day of a week of a year, by the ISO calendar. -/
def ofWeek? (year week day : ℕ) : Option Date :=
  let first := (year - 1) * 365 + (year - 1) / 4 - (year - 1) / 100 + (year - 1) / 400 + 1
  let long := first % 7 = 4 ∨ first % 7 = 3 ∧ isLeap year = true
  if 1 ≤ year ∧ 1 ≤ week ∧ (week ≤ 52 ∨ week = 53 ∧ long) ∧ 1 ≤ day ∧ day ≤ 7 then
    let weekday := (first + 6) % 7
    let monday := if 3 < weekday then first + 7 - weekday else first - weekday
    fromordinal? (monday + (week - 1) * 7 + (day - 1))
  else none

/-- What follows a separator, if there is to be one. -/
def afterSeparator (separated : Bool) (s : List Char) : Option (List Char) :=
  if separated then (if s.head? = some '-' then some s.tail else none) else some s

/-- `date.fromisoformat(text)`: a date or a day of a week, with or without separators. -/
def fromisoformat? (text : String) : Option Date := do
  let year ← numeral? 4 (text.toList.take 4)
  let rest := text.toList.drop 4
  let separated := rest.head? = some '-'
  let rest := if separated then rest.tail else rest
  if rest.head? = some 'W' then
    let week ← numeral? 2 (rest.tail.take 2)
    if rest.length = 3 then ofWeek? year week 1
    else ofWeek? year week (← numeral? 1 (← afterSeparator separated (rest.drop 3)))
  else
    let month ← numeral? 2 (rest.take 2)
    of? year month (← numeral? 2 (← afterSeparator separated (rest.drop 2)))

/-! ## Dates read back -/

theorem toList_padded (width n : ℕ) : (padded width n).toList
    = List.replicate (width - (Nat.toDigits 10 n).length) '0' ++ Nat.toDigits 10 n := by
  rw [padded, String.toList_append, String.toList_ofList, Nat.toString_eq_ofList_toDigits,
    String.toList_ofList, String.length_ofList]

/-- A padded numeral is one of its width… -/
theorem length_padded {width n : ℕ} (hpos : 0 < width) (h : n < 10 ^ width) :
    (padded width n).toList.length = width := by
  have hle := (Nat.length_toDigits_le_iff (by decide) hpos).mpr h
  rw [toList_padded, List.length_append, List.length_replicate]
  omega

/-- …of digits… -/
theorem isDigit_of_mem_padded {width n : ℕ} {c : Char} (h : c ∈ (padded width n).toList) :
    c.isDigit = true := by
  rw [toList_padded, List.mem_append] at h
  obtain h | h := h
  · rw [List.eq_of_mem_replicate h]
    decide
  · exact Nat.isDigit_of_mem_toDigits (by decide) (by decide) h

/-- …and is read back. -/
theorem numeral?_padded {width n : ℕ} (hpos : 0 < width) (h : n < 10 ^ width) :
    numeral? width (padded width n).toList = some n := by
  rw [numeral?, if_pos ⟨length_padded hpos h, List.all_eq_true.mpr fun _ => isDigit_of_mem_padded⟩,
    toList_padded, Nat.ofDigitChars_append, Nat.ofDigitChars_replicate_zero, Nat.mul_zero,
    Nat.ofDigitChars_ten_toDigits]

theorem day_lt (d : Date) : d.day < 100 := by
  have hlengths : ∀ year, ∀ length ∈ monthLengths year, length < 100 := fun year length h => by
    rw [monthLengths] at h
    split at h <;> simp at h <;> omega
  have h := d.day_mem.2
  have hmonth := d.month_mem
  rw [List.getD_eq_getElem?_getD] at h
  cases hget : (monthLengths d.year)[d.month - 1]? with
  | none => rw [hget] at h; exact lt_of_le_of_lt h (by decide)
  | some length =>
    rw [hget] at h
    exact lt_of_le_of_lt h (hlengths _ _ (List.mem_of_getElem? hget))

/-- **A date that is written is read back.** -/
theorem fromisoformat?_isoformat (d : Date) : fromisoformat? d.isoformat = some d := by
  have hyear := d.year_mem
  have hmonth := d.month_mem
  have hy := @numeral?_padded 4 d.year (by decide) (by omega)
  have hm := @numeral?_padded 2 d.month (by decide) (by omega)
  have hd := @numeral?_padded 2 d.day (by decide) (day_lt d)
  have hlist : d.isoformat.toList = (padded 4 d.year).toList
      ++ ('-' :: ((padded 2 d.month).toList ++ '-' :: (padded 2 d.day).toList)) := by
    have hdash : "-".toList = ['-'] := rfl
    simp only [isoformat, String.toList_append, List.append_assoc, hdash, List.cons_append,
      List.nil_append]
  have hlength := @length_padded 4 d.year (by decide) (by omega)
  have hlength' := @length_padded 2 d.month (by decide) (by omega)
  have hnotW : ((padded 2 d.month).toList ++ '-' :: (padded 2 d.day).toList).head? ≠ some 'W' := by
    cases hlist : (padded 2 d.month).toList with
    | nil => rw [hlist] at hlength'; cases hlength'
    | cons c cs =>
      have hdigit := @isDigit_of_mem_padded 2 d.month c (by simp [hlist])
      rintro hW
      rw [Option.some.inj hW] at hdigit
      exact absurd hdigit (by decide)
  rw [fromisoformat?, hlist, List.take_left' hlength, List.drop_left' hlength, hy]
  simp only [List.head?_cons, List.tail_cons, if_true, hnotW, if_false, List.take_left' hlength',
    List.drop_left' hlength', hm, hd, afterSeparator, Option.bind_eq_bind, Option.bind_some,
    of?_self, decide_true]

example : toordinal ⟨2026, 8, 18, by decide, by decide, by decide⟩ = 739846 := by decide

example : fromordinal? 739846 = fromisoformat? "2026-W34-2" := by decide +kernel

end Date

end BareAnalysis
