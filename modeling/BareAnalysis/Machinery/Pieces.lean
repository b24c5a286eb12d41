import Mathlib.Data.List.Basic
import Mathlib.Tactic.Common

/-!
# Machinery/Pieces — the runs of a sequence, cut into pieces

    ·  a  b  c  d  e  ·  f  ·        cells, some of which hold something
      [a  b][c  d][e]   [f]          the runs, cut every two

A run longer than `most` is cut and a piece shorter than `least` is dropped.  One loop cuts when the
next cell comes (`runPieces`), the other as soon as a piece is full (`eagerRunPieces`).
-/

namespace BareAnalysis

variable {α : Type*} {least most : ℕ}

/-- A piece that is long enough is kept, with where it starts. -/
def keptPiece (least index : ℕ) (run : List α) : List (ℕ × List α) :=
  if least ≤ run.length then [(index - run.length, run)] else []

/-- The loop that cuts a full piece when one more cell comes. -/
def runPieces (least most : ℕ) : List (Option α) → ℕ → List α → List (ℕ × List α)
  | [], index, run => keptPiece least index run
  | none :: cells, index, run =>
    keptPiece least index run ++ runPieces least most cells (index + 1) []
  | some x :: cells, index, run =>
    if most ≤ run.length then
      (index - run.length, run) :: runPieces least most cells (index + 1) [x]
    else runPieces least most cells (index + 1) (run ++ [x])

/-- The loop that cuts a piece as soon as it is full. -/
def eagerRunPieces (least most : ℕ) : List (Option α) → ℕ → List α → List (ℕ × List α)
  | [], index, run => keptPiece least index run
  | none :: cells, index, run =>
    keptPiece least index run ++ eagerRunPieces least most cells (index + 1) []
  | some x :: cells, index, run =>
    if most ≤ (run ++ [x]).length then
      (index + 1 - (run ++ [x]).length, run ++ [x])
        :: eagerRunPieces least most cells (index + 1) []
    else eagerRunPieces least most cells (index + 1) (run ++ [x])

/-! ## One loop for both -/

theorem keptPiece_nil (hleast : 0 < least) (index : ℕ) :
    keptPiece least index ([] : List α) = [] :=
  if_neg (by rw [List.length_nil]; omega)

/-- The loops agree between cuts, and the eager one is ahead at a full piece. -/
theorem runPieces_eq_eager_aux (hleast : 0 < least) (hle : least ≤ most)
    (cells : List (Option α)) (index : ℕ) (run : List α) :
    (run.length < most →
        runPieces least most cells index run = eagerRunPieces least most cells index run) ∧
      (run.length = most → runPieces least most cells index run
        = (index - run.length, run) :: eagerRunPieces least most cells index []) := by
  induction cells generalizing index run with
  | nil =>
    refine ⟨fun _ => rfl, fun hfull => ?_⟩
    rw [runPieces, eagerRunPieces, keptPiece_nil hleast, keptPiece, if_pos (by omega)]
  | cons cell cells ih =>
    obtain _ | x := cell
    · have hrest := (ih (index + 1) []).1 (by rw [List.length_nil]; omega)
      refine ⟨fun _ => ?_, fun hfull => ?_⟩
      · rw [runPieces, eagerRunPieces, hrest]
      · rw [runPieces, eagerRunPieces, hrest, keptPiece_nil hleast, keptPiece,
          if_pos (by omega), List.singleton_append, List.nil_append]
    · have hlength : (run ++ [x]).length = run.length + 1 := by
        rw [List.length_append, List.length_singleton]
      refine ⟨fun hroom => ?_, fun hfull => ?_⟩
      · rw [runPieces, eagerRunPieces, if_neg (by omega)]
        split
        · exact (ih (index + 1) (run ++ [x])).2 (by omega)
        · exact (ih (index + 1) (run ++ [x])).1 (by omega)
      · rw [runPieces, eagerRunPieces, if_pos (by omega), List.nil_append]
        split
        · rw [(ih (index + 1) [x]).2 (by rw [List.length_singleton] at *; omega)]
        · rw [(ih (index + 1) [x]).1 (by omega)]

/-- **Both loops list the same pieces.** -/
theorem eagerRunPieces_eq (hleast : 0 < least) (hle : least ≤ most)
    (cells : List (Option α)) (index : ℕ) :
    eagerRunPieces least most cells index [] = runPieces least most cells index [] :=
  ((runPieces_eq_eager_aux hleast hle cells index []).1 (by rw [List.length_nil]; omega)).symm

/-! ## Cuts of maximal runs -/

/-- A piece of a run: what lies between two of its cuts, unless it is too short. -/
def IsCutOf (least most start : ℕ) (run : List α) (piece : ℕ × List α) : Prop :=
  ∃ k, most * k + least ≤ run.length ∧
    piece = (start + most * k, (run.drop (most * k)).take most)

/-- Cells that hold something, between cells that do not. -/
structure IsMaximalRun (cell : ℕ → Option α) (start : ℕ) (run : List α) : Prop where
  ne_nil : run ≠ []
  held : ∀ i < run.length, cell (start + i) = run[i]?
  before : ∀ i, i + 1 = start → cell i = none
  after : cell (start + run.length) = none

/-- What a cell of a list holds: nothing beyond its end. -/
def cellAt (cells : List (Option α)) (i : ℕ) : Option α := cells[i]?.join

/-- A piece that is not yet full is the only cut of what has been read. -/
theorem mem_keptPiece_iff (hleast : 0 < least) {index : ℕ} {run : List α}
    (hmost : run.length ≤ most) {piece : ℕ × List α} :
    piece ∈ keptPiece least index run ↔ IsCutOf least most (index - run.length) run piece := by
  rw [keptPiece]
  constructor
  · intro h
    split at h
    · rw [List.mem_singleton.mp h]
      refine ⟨0, by omega, ?_⟩
      rw [Nat.mul_zero, List.drop_zero, List.take_of_length_le hmost, Nat.add_zero]
    · exact absurd h List.not_mem_nil
  · rintro ⟨k, hk, rfl⟩
    -- A later cut would begin beyond the end.
    obtain rfl : k = 0 := by
      by_contra hne
      have := Nat.le_mul_of_pos_right most (Nat.pos_of_ne_zero hne)
      omega
    rw [Nat.mul_zero] at hk ⊢
    rw [if_pos (by omega), List.drop_zero, List.take_of_length_le hmost, Nat.add_zero]
    exact List.mem_singleton_self _

/-- The first cut of a run that goes on, and the others. -/
theorem isCutOf_full_append_iff (hle : least ≤ most) {start : ℕ} {full run : List α}
    (hfull : full.length = most) {piece : ℕ × List α} :
    IsCutOf least most start (full ++ run) piece ↔
      piece = (start, full) ∨ IsCutOf least most (start + most) run piece := by
  have hdrop : ∀ k, (full ++ run).drop (most * (k + 1)) = run.drop (most * k) := by
    intro k
    rw [List.drop_append, hfull, Nat.mul_succ, Nat.add_sub_cancel,
      List.drop_eq_nil_of_le (by omega), List.nil_append]
  constructor
  · rintro ⟨k, hk, rfl⟩
    rw [List.length_append, hfull] at hk
    obtain - | k := k
    · left
      rw [Nat.mul_zero, Nat.add_zero, List.drop_zero, ← hfull, List.take_left]
    · right
      refine ⟨k, by rw [Nat.mul_succ] at hk; omega, ?_⟩
      rw [hdrop, Nat.mul_succ, Nat.add_assoc, Nat.add_comm most]
  · rintro (rfl | ⟨k, hk, rfl⟩)
    · refine ⟨0, by rw [List.length_append]; omega, ?_⟩
      rw [Nat.mul_zero, Nat.add_zero, List.drop_zero, ← hfull, List.take_left]
    · refine ⟨k + 1, by rw [List.length_append, Nat.mul_succ]; omega, ?_⟩
      rw [hdrop, Nat.mul_succ, Nat.add_assoc, Nat.add_comm most]

/-- **Along a run the loop lists its cuts**, and goes on behind the cell that ends it. -/
theorem mem_runPieces_run_iff (hleast : 0 < least) (hle : least ≤ most) {piece : ℕ × List α}
    (run : List α) {cells : List (Option α)} {index : ℕ} {carried : List α}
    (hcarried : carried.length ≤ most) (hread : carried.length ≤ index) :
    piece ∈ runPieces least most (run.map some ++ none :: cells) index carried ↔
      IsCutOf least most (index - carried.length) (carried ++ run) piece ∨
        piece ∈ runPieces least most cells (index + run.length + 1) [] := by
  induction run generalizing index carried with
  | nil =>
    rw [List.map_nil, List.nil_append, runPieces, List.mem_append,
      mem_keptPiece_iff hleast hcarried, List.append_nil, List.length_nil, Nat.add_zero]
  | cons x run ih =>
    have hindex : index + (x :: run).length + 1 = index + 1 + run.length + 1 := by
      rw [List.length_cons]
      omega
    rw [List.map_cons, List.cons_append, runPieces, hindex]
    split
    case isTrue hfull =>
      have hlength : carried.length = most := by omega
      rw [List.mem_cons, ih (by rw [List.length_singleton]; omega)
        (by rw [List.length_singleton]; omega), isCutOf_full_append_iff hle hlength, or_assoc,
        List.length_singleton, List.singleton_append, show index + 1 - 1 = index by omega,
        show index - carried.length + most = index by omega]
    case isFalse hroom =>
      rw [ih (by rw [List.length_append, List.length_singleton]; omega)
        (by rw [List.length_append, List.length_singleton]; omega), List.append_assoc,
        List.singleton_append, List.length_append, List.length_singleton,
        show index + 1 - (carried.length + 1) = index - carried.length by omega]

/-- …and to the end, when nothing ends it. -/
theorem mem_runPieces_last_iff (hleast : 0 < least) (hle : least ≤ most) {piece : ℕ × List α}
    (run : List α) {index : ℕ} {carried : List α} (hcarried : carried.length ≤ most)
    (hread : carried.length ≤ index) :
    piece ∈ runPieces least most (run.map some) index carried ↔
      IsCutOf least most (index - carried.length) (carried ++ run) piece := by
  have hnone : runPieces least most (run.map some) index carried
      = runPieces least most (run.map some ++ none :: []) index carried := by
    induction run generalizing index carried with
    | nil =>
      rw [List.map_nil, List.nil_append, runPieces, runPieces, runPieces, keptPiece_nil hleast,
        List.append_nil]
    | cons x run ih =>
      rw [List.map_cons, List.cons_append, runPieces, runPieces]
      split
      · rw [ih (by rw [List.length_singleton]; omega) (by rw [List.length_singleton]; omega)]
      · rw [ih (by rw [List.length_append, List.length_singleton]; omega)
          (by rw [List.length_append, List.length_singleton]; omega)]
  rw [hnone, mem_runPieces_run_iff hleast hle run hcarried hread, runPieces,
    keptPiece_nil hleast, or_iff_left List.not_mem_nil]

/-! ## The first run of a list of cells -/

theorem cellAt_run (run : List α) (rest : List (Option α)) {i : ℕ} (h : i < run.length) :
    cellAt (run.map some ++ rest) i = run[i]? := by
  rw [cellAt, List.getElem?_append_left (by rwa [List.length_map]), List.getElem?_map]
  cases run[i]? <;> rfl

theorem cellAt_end (run : List α) (cells : List (Option α)) :
    cellAt (run.map some ++ none :: cells) run.length = none := by
  rw [cellAt, List.getElem?_append_right (Nat.le_of_eq (List.length_map _)), List.length_map,
    Nat.sub_self]
  rfl

theorem cellAt_behind (run : List α) (cells : List (Option α)) (i : ℕ) :
    cellAt (run.map some ++ none :: cells) (run.length + 1 + i) = cellAt cells i := by
  rw [cellAt, List.getElem?_append_right (by rw [List.length_map]; omega), List.length_map,
    show run.length + 1 + i - run.length = i + 1 by omega, List.getElem?_cons_succ]
  rfl

/-- A maximal run that begins where a run begins is that run. -/
theorem IsMaximalRun.eq_of_held {cell : ℕ → Option α} {start : ℕ} {run other : List α}
    (h : IsMaximalRun cell start run) (hheld : ∀ i < other.length, cell (start + i) = other[i]?)
    (hafter : cell (start + other.length) = none) : run = other := by
  have hrun : ∀ i < run.length, (cell (start + i)).isSome := fun i hi => by
    rw [h.held i hi, List.getElem?_eq_getElem hi]
    rfl
  have hother : ∀ i < other.length, (cell (start + i)).isSome := fun i hi => by
    rw [hheld i hi, List.getElem?_eq_getElem hi]
    rfl
  have hlength : run.length = other.length := by
    obtain hlt | heq | hlt := Nat.lt_trichotomy run.length other.length
    · have := hother _ hlt
      rw [h.after] at this
      cases this
    · exact heq
    · have := hrun _ hlt
      rw [hafter] at this
      cases this
  refine List.ext_getElem? fun i => ?_
  obtain hi | hi := Nat.lt_or_ge i run.length
  · rw [← h.held i hi, hheld i (hlength ▸ hi)]
  · rw [List.getElem?_eq_none hi, List.getElem?_eq_none (hlength ▸ hi)]

/-- A maximal run does not begin inside another. -/
theorem IsMaximalRun.not_inside {cell : ℕ → Option α} {start first : ℕ} {run other : List α}
    (h : IsMaximalRun cell start run) (hheld : ∀ i < other.length, cell (first + i) = other[i]?)
    (hlt : first < start) : first + other.length < start := by
  by_contra hin
  obtain ⟨i, hi⟩ : ∃ i, start = first + i + 1 := ⟨start - first - 1, by omega⟩
  have hnone := h.before (first + i) hi.symm
  rw [hheld i (by omega), List.getElem?_eq_getElem (by omega)] at hnone
  cases hnone

/-- **Two maximal runs that share a cell are one.** -/
theorem IsMaximalRun.unique {cell : ℕ → Option α} {start first i : ℕ} {run other : List α}
    (h : IsMaximalRun cell start run) (h' : IsMaximalRun cell first other)
    (hi : start ≤ i ∧ i < start + run.length) (hi' : first ≤ i ∧ i < first + other.length) :
    start = first ∧ run = other := by
  obtain hlt | rfl | hlt := Nat.lt_trichotomy start first
  · have := h'.not_inside h.held hlt
    omega
  · exact ⟨rfl, h.eq_of_held h'.held h'.after⟩
  · have := h.not_inside h'.held hlt
    omega

/-- **The maximal runs of a list of cells**: the first, and those behind the cell that ends it. -/
theorem isMaximalRun_cons_iff {run : List α} {cells : List (Option α)} {start : ℕ}
    {other : List α} :
    IsMaximalRun (cellAt (run.map some ++ none :: cells)) start other ↔
      (start = 0 ∧ other = run ∧ run ≠ []) ∨
        ∃ i, start = run.length + 1 + i ∧ IsMaximalRun (cellAt cells) i other := by
  have hheld : ∀ i < run.length,
      cellAt (run.map some ++ none :: cells) (0 + i) = run[i]? := fun i hi => by
    rw [Nat.zero_add, cellAt_run run _ hi]
  have hend : cellAt (run.map some ++ none :: cells) (0 + run.length) = none := by
    rw [Nat.zero_add, cellAt_end]
  constructor
  · intro h
    obtain rfl | hpos := Nat.eq_zero_or_pos start
    · have heq := h.eq_of_held hheld hend
      exact Or.inl ⟨rfl, heq, heq ▸ h.ne_nil⟩
    · have hbehind := h.not_inside hheld hpos
      obtain ⟨i, rfl⟩ : ∃ i, start = run.length + 1 + i := ⟨start - run.length - 1, by omega⟩
      refine Or.inr ⟨i, rfl, h.ne_nil, fun j hj => ?_, fun j hj => ?_, ?_⟩
      · rw [← cellAt_behind run, ← Nat.add_assoc, h.held j hj]
      · rw [← cellAt_behind run]
        exact h.before _ (by omega)
      · rw [← cellAt_behind run, ← Nat.add_assoc]
        exact h.after
  · rintro (⟨rfl, rfl, hne⟩ | ⟨i, rfl, h⟩)
    · exact ⟨hne, hheld, fun j hj => (nomatch hj), hend⟩
    · refine ⟨h.ne_nil, fun j hj => ?_, fun j hj => ?_, ?_⟩
      · rw [Nat.add_assoc, cellAt_behind, h.held j hj]
      · obtain - | i := i
        · obtain rfl : j = run.length := by omega
          exact cellAt_end run cells
        · rw [show j = run.length + 1 + i by omega, cellAt_behind]
          exact h.before i rfl
      · rw [Nat.add_assoc, cellAt_behind]
        exact h.after

theorem isMaximalRun_last_iff {run : List α} {start : ℕ} {other : List α} :
    IsMaximalRun (cellAt (run.map some)) start other ↔ start = 0 ∧ other = run ∧ run ≠ [] := by
  have hcell : cellAt (run.map some) = cellAt (run.map some ++ none :: []) := by
    funext i
    obtain hi | hi := Nat.lt_or_ge i run.length
    · rw [cellAt_run run _ hi, ← cellAt_run run [] hi, List.append_nil]
    · obtain ⟨j, rfl⟩ := Nat.exists_eq_add_of_le hi
      have hnone : cellAt (run.map some) (run.length + j) = none := by
        rw [cellAt, List.getElem?_eq_none (by rw [List.length_map]; omega)]
        rfl
      rw [hnone]
      obtain - | j := j
      · exact (cellAt_end run []).symm
      · rw [show run.length + (j + 1) = run.length + 1 + j by omega, cellAt_behind]
        rfl
  rw [hcell, isMaximalRun_cons_iff, or_iff_left]
  rintro ⟨i, -, h⟩
  have := h.held 0 (List.length_pos_of_ne_nil h.ne_nil)
  rw [List.getElem?_eq_getElem (List.length_pos_of_ne_nil h.ne_nil)] at this
  cases this

/-- A list of cells begins with a run, perhaps empty. -/
theorem exists_first_run (cells : List (Option α)) :
    ∃ run : List α, cells = run.map some ∨ ∃ rest, cells = run.map some ++ none :: rest := by
  induction cells with
  | nil => exact ⟨[], Or.inl rfl⟩
  | cons cell cells ih =>
    obtain _ | x := cell
    · exact ⟨[], Or.inr ⟨cells, rfl⟩⟩
    · obtain ⟨run, rfl | ⟨rest, rfl⟩⟩ := ih
      · exact ⟨x :: run, Or.inl rfl⟩
      · exact ⟨x :: run, Or.inr ⟨rest, rfl⟩⟩

theorem mem_runPieces_iff_aux (hleast : 0 < least) (hle : least ≤ most) {piece : ℕ × List α}
    (n : ℕ) : ∀ (cells : List (Option α)) (index : ℕ), cells.length ≤ n →
      (piece ∈ runPieces least most cells index [] ↔
        ∃ start run, IsMaximalRun (cellAt cells) start run ∧
          IsCutOf least most (index + start) run piece) := by
  have hempty : ∀ start : ℕ, ¬IsCutOf least most start ([] : List α) piece := by
    rintro start ⟨k, hk, -⟩
    rw [List.length_nil] at hk
    omega
  induction n with
  | zero =>
    intro cells index hlength
    obtain rfl := List.length_eq_zero_iff.mp (Nat.le_zero.mp hlength)
    rw [runPieces, keptPiece_nil hleast]
    refine ⟨fun h => absurd h List.not_mem_nil, ?_⟩
    rintro ⟨start, run, hrun, hcut⟩
    exact absurd rfl ((@isMaximalRun_last_iff _ [] _ _).mp hrun).2.2
  | succ n ih =>
    intro cells index hlength
    obtain ⟨run, rfl | ⟨rest, rfl⟩⟩ := exists_first_run cells
    · rw [mem_runPieces_last_iff hleast hle run (Nat.zero_le _) (Nat.zero_le _),
        List.nil_append, List.length_nil, Nat.sub_zero]
      constructor
      · intro hcut
        refine ⟨0, run, isMaximalRun_last_iff.mpr ⟨rfl, rfl, ?_⟩, hcut⟩
        rintro rfl
        exact hempty _ hcut
      · rintro ⟨start, other, hrun, hcut⟩
        obtain ⟨rfl, rfl, -⟩ := isMaximalRun_last_iff.mp hrun
        exact hcut
    · have hrest : rest.length ≤ n := by
        rw [List.length_append, List.length_cons] at hlength
        omega
      rw [mem_runPieces_run_iff hleast hle run (Nat.zero_le _) (Nat.zero_le _),
        List.nil_append, List.length_nil, Nat.sub_zero, ih rest _ hrest]
      constructor
      · rintro (hcut | ⟨i, other, hrun, hcut⟩)
        · refine ⟨0, run, isMaximalRun_cons_iff.mpr (Or.inl ⟨rfl, rfl, ?_⟩), hcut⟩
          rintro rfl
          exact hempty _ hcut
        · refine ⟨_, other, isMaximalRun_cons_iff.mpr (Or.inr ⟨i, rfl, hrun⟩), ?_⟩
          rwa [← Nat.add_assoc, ← Nat.add_assoc]
      · rintro ⟨start, other, hrun, hcut⟩
        obtain ⟨rfl, rfl, -⟩ | ⟨i, rfl, hbehind⟩ := isMaximalRun_cons_iff.mp hrun
        · exact Or.inl hcut
        · rw [← Nat.add_assoc, ← Nat.add_assoc] at hcut
          exact Or.inr ⟨i, other, hbehind, hcut⟩

/-- **The loop lists the cuts of the maximal runs.** -/
theorem mem_runPieces_iff (hleast : 0 < least) (hle : least ≤ most) {cells : List (Option α)}
    {piece : ℕ × List α} :
    piece ∈ runPieces least most cells 0 [] ↔
      ∃ start run, IsMaximalRun (cellAt cells) start run ∧ IsCutOf least most start run piece := by
  rw [mem_runPieces_iff_aux hleast hle cells.length cells 0 (Nat.le_refl _)]
  simp only [Nat.zero_add]

end BareAnalysis
