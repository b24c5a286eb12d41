import Mathlib.Algebra.Group.Nat.Defs
import Mathlib.Algebra.Ring.Int.Defs
import BareAnalysis.Machinery.Effects

/-!
# Machinery/Handle — an open file, read at a position

    seek n    the next read starts at `n`, which may lie past the end
    read n    at most `n` bytes from the position, which moves behind them

`seek` refuses what is no offset; nothing else is raised over bytes that can be read.
-/

namespace BareAnalysis

/-- What the operations on a file raise. -/
inductive FileError
  | osError (text : String)
  | valueError (text : String)
  deriving DecidableEq, Repr

/-- A file open for reading. -/
structure Handle where
  content : List UInt8
  position : ℕ := 0
  deriving DecidableEq, Repr

namespace Handle

open Eff

variable {α : Type}

/-- The next `n` bytes. -/
def ahead (h : Handle) (n : ℕ) : List UInt8 := (h.content.drop h.position).take n

/-- The handle behind them. -/
def advance (h : Handle) (n : ℕ) : Handle :=
  { h with position := h.position + (h.ahead n).length }

@[simp] theorem content_advance (h : Handle) (n : ℕ) : (h.advance n).content = h.content := rfl

/-- `handle.seek(target)`. -/
def seek (target : ℤ) : Eff FileError Handle Unit :=
  if target < 0 then throw (.osError "[Errno 22] Invalid argument")
  else if 2 ^ 63 ≤ target then throw (.valueError "cannot fit 'int' into an offset-sized integer")
  else modify fun h => { h with position := target.toNat }

/-- `handle.read(n)`. -/
def read (n : ℕ) : Eff FileError Handle (List UInt8) := do
  let h ← get
  modify fun h => h.advance n
  return h.ahead n

theorem exec_seek_bind {target : ℕ} (hfits : target < 2 ^ 63) (f : Unit → Eff FileError Handle α)
    (h : Handle) :
    exec (seek target >>= f) h = exec (f ()) { h with position := target } := by
  have hneg : ¬ (target : ℤ) < 0 := by omega
  have hlarge : ¬ (2 : ℤ) ^ 63 ≤ target := by omega
  rw [seek, if_neg hneg, if_neg hlarge, exec_modify_bind, Int.toNat_natCast]

theorem exec_read_bind (n : ℕ) (f : List UInt8 → Eff FileError Handle α) (h : Handle) :
    exec (read n >>= f) h = exec (f (h.ahead n)) (h.advance n) := by
  rw [exec_bind]
  rfl

theorem exec_read (n : ℕ) (h : Handle) : exec (read n) h = (.ok (h.ahead n), h.advance n) := rfl

end Handle

end BareAnalysis
