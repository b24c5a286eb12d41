import Mathlib.Algebra.Group.Int.Defs
import Mathlib.Tactic.Common
import Mathlib.Data.Int.Basic

/-!
# Unpack/Budget — the zip-bomb defence

`core/unpack/budget.py`.  Three caps over one extraction tree, all cumulative: every file is
reserved before it is written, and what would go over a cap is noted and refused.
-/

namespace BareAnalysis

/-- `BudgetExceeded`. -/
structure BudgetExceeded where
  limit : String
  detail : String
  deriving DecidableEq, Repr

/-- `str(exc)`. -/
def BudgetExceeded.message (e : BudgetExceeded) : String :=
  "extraction budget exceeded (" ++ e.limit ++ "): " ++ e.detail

/-- `ExtractionBudget`: the caps, the running totals and the notes. -/
structure ExtractionBudget where
  maxDepth : ℤ := 8
  maxFiles : ℤ := 20000
  maxTotalBytes : ℤ := 10 * 1024 ^ 3
  filesWritten : ℤ := 0
  bytesWritten : ℤ := 0
  exceeded : List String := []
  deriving DecidableEq, Repr

namespace ExtractionBudget

/-- `for_input`: 20 times the input up to 10 GiB, and 600 files a megabyte. -/
def forInput (inputSizeBytes : ℤ) : ExtractionBudget :=
  let scaled := max (inputSizeBytes * 20) (64 * 1024 * 1024)
  let inputMb := max (inputSizeBytes / (1024 * 1024)) 1
  { maxTotalBytes := min scaled (10 * 1024 ^ 3)
    maxFiles := max 20000 (min (inputMb * 600) 250000) }

variable (b : ExtractionBudget)

def bytesRemaining : ℤ := max 0 (b.maxTotalBytes - b.bytesWritten)

def filesRemaining : ℤ := max 0 (b.maxFiles - b.filesWritten)

def isExhausted : Bool := decide (b.bytesRemaining ≤ 0 ∨ b.filesRemaining ≤ 0)

/-- `note`: every message once. -/
def note (message : String) : ExtractionBudget :=
  if message ∈ b.exceeded then b else { b with exceeded := b.exceeded ++ [message] }

/-- `check_depth`: the budget after the check, and what it raises. -/
def checkDepth (depth : ℤ) : ExtractionBudget × Option BudgetExceeded :=
  if b.maxDepth < depth then
    (b.note ("depth " ++ toString depth ++ " exceeds max_depth " ++ toString b.maxDepth),
      some ⟨"max_depth", toString depth ++ " > " ++ toString b.maxDepth⟩)
  else (b, none)

/-- `reserve`: account for a file about to be written, or refuse it. -/
def reserve (sizeBytes : ℤ) : ExtractionBudget × Option BudgetExceeded :=
  if b.maxFiles < b.filesWritten + 1 then
    (b.note ("file count would exceed max_files " ++ toString b.maxFiles),
      some ⟨"max_files", toString b.filesWritten ++ " files already written"⟩)
  else if b.maxTotalBytes < b.bytesWritten + sizeBytes then
    (b.note ("writing " ++ toString sizeBytes ++ " bytes would exceed max_total_bytes "
        ++ toString b.maxTotalBytes),
      some ⟨"max_total_bytes", toString b.bytesWritten ++ " of " ++ toString b.maxTotalBytes
        ++ " bytes already written"⟩)
  else
    ({ b with filesWritten := b.filesWritten + 1, bytesWritten := b.bytesWritten + sizeBytes }, none)

end ExtractionBudget

/-! ## What a check can do -/

section Cases

variable {b b' : ExtractionBudget}

/-- The caps and totals of two budgets agree; notes may differ. -/
def SameTotals (b b' : ExtractionBudget) : Prop :=
  b'.maxDepth = b.maxDepth ∧ b'.maxFiles = b.maxFiles ∧ b'.maxTotalBytes = b.maxTotalBytes ∧
    b'.filesWritten = b.filesWritten ∧ b'.bytesWritten = b.bytesWritten

theorem sameTotals_note (b : ExtractionBudget) (message : String) : SameTotals b (b.note message) := by
  unfold ExtractionBudget.note SameTotals
  split <;> exact ⟨rfl, rfl, rfl, rfl, rfl⟩

/-- A note is there once made. -/
theorem note_exceeded_ne_nil (b : ExtractionBudget) (message : String) :
    (b.note message).exceeded ≠ [] := by
  unfold ExtractionBudget.note
  split
  · rename_i h
    exact List.ne_nil_of_mem h
  · simp

/-- **What `check_depth` can do**: pass, or note and raise. -/
theorem checkDepth_cases {depth : ℤ} {e : Option BudgetExceeded} (h : b.checkDepth depth = (b', e)) :
    (depth ≤ b.maxDepth ∧ b' = b ∧ e = none) ∨
      (b.maxDepth < depth ∧ SameTotals b b' ∧ b'.exceeded ≠ [] ∧ e ≠ none) := by
  unfold ExtractionBudget.checkDepth at h
  split at h
  · rename_i hlt
    obtain ⟨rfl, rfl⟩ := Prod.mk.inj h
    exact Or.inr ⟨hlt, sameTotals_note b _, note_exceeded_ne_nil b _, Option.some_ne_none _⟩
  · rename_i hle
    obtain ⟨rfl, rfl⟩ := Prod.mk.inj h
    exact Or.inl ⟨Int.not_lt.mp hle, rfl, rfl⟩

/-- **What `reserve` can do**: charge the file within both caps, or note and raise. -/
theorem reserve_cases {size : ℤ} {e : Option BudgetExceeded} (h : b.reserve size = (b', e)) :
    (b.filesWritten + 1 ≤ b.maxFiles ∧ b.bytesWritten + size ≤ b.maxTotalBytes ∧ e = none ∧
        b' = { b with filesWritten := b.filesWritten + 1, bytesWritten := b.bytesWritten + size }) ∨
      (SameTotals b b' ∧ b'.exceeded ≠ [] ∧ e ≠ none) := by
  unfold ExtractionBudget.reserve at h
  split at h
  · obtain ⟨rfl, rfl⟩ := Prod.mk.inj h
    exact Or.inr ⟨sameTotals_note b _, note_exceeded_ne_nil b _, Option.some_ne_none _⟩
  · rename_i hfiles
    split at h
    · obtain ⟨rfl, rfl⟩ := Prod.mk.inj h
      exact Or.inr ⟨sameTotals_note b _, note_exceeded_ne_nil b _, Option.some_ne_none _⟩
    · rename_i hbytes
      obtain ⟨rfl, rfl⟩ := Prod.mk.inj h
      exact Or.inl ⟨Int.not_lt.mp hfiles, Int.not_lt.mp hbytes, rfl, rfl⟩

end Cases

end BareAnalysis
