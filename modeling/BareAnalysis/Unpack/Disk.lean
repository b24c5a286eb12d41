import Mathlib.Data.List.Lex
import BareAnalysis.Machinery.Table
import BareAnalysis.Machinery.Sorting
import BareAnalysis.Unpack.Detect

/-!
# Unpack/Disk — paths, and the file system the extractor writes to

A path is the list of its components from `/` down, resolved: it holds no `.` and no `..`.  A disk
holds regular files and directories; symbolic links are left out, which makes resolution lexical.
-/

namespace BareAnalysis

/-- An absolute path, or one relative to a path that is known. -/
abbrev Path := List String

namespace Path

/-- `path.name`. -/
def name (p : Path) : String := p.getLast?.getD ""

/-- Where `rfind(".")` finds the last dot of a name. -/
def lastDot (name : String) : Option ℕ :=
  (name.toList.reverse.findIdx? fun c => decide (c = '.')).map fun i => name.toList.length - 1 - i

/-- A name, split before its suffix: a dot in first or last place starts none. -/
def splitSuffix (name : String) : String × String :=
  match lastDot name with
  | some i =>
    if 0 < i ∧ i < name.toList.length - 1 then
      (String.ofList (name.toList.take i), String.ofList (name.toList.drop i))
    else (name, "")
  | none => (name, "")

/-- `path.stem`. -/
def stem (p : Path) : String := (splitSuffix p.name).1

/-- `path.suffix`. -/
def suffix (p : Path) : String := (splitSuffix p.name).2

/-- `path.as_posix()` of a relative path. -/
def asPosix (p : Path) : String := if p = [] then "." else "/".intercalate p

/-- `path.relative_to(base)`: the components below the base. -/
def relativeTo? (p base : Path) : Option Path :=
  if base.isPrefixOf p then some (p.drop base.length) else none

/-- `path.resolve()` without links: a `..` takes its parent away. -/
def resolve (p : Path) : Path :=
  p.foldl (fun done part => if part = ".." then done.dropLast else done ++ [part]) []

/-- The components pathlib makes of a text: empty ones and `.` are dropped. -/
def partsOf (text : String) : Path :=
  ((text.toList.splitOn '/').map String.ofList).filter fun part => part ≠ "" ∧ part ≠ "."

theorem eq_append_of_relativeTo? {p base rel : Path} (h : p.relativeTo? base = some rel) :
    p = base ++ rel := by
  unfold relativeTo? at h
  split at h
  · rename_i hpre
    obtain ⟨rest, rfl⟩ := List.isPrefixOf_iff_prefix.mp hpre
    rw [← Option.some.inj h, List.drop_left]
  · cases h

example : stem ["tmp", "app.tar.gz"] = "app.tar" := by decide

example : resolve (["out"] ++ partsOf "a//./b/../c") = ["out", "a", "c"] := by decide

end Path

/-! ## The disk -/

/-- Regular files by their path, and directories. -/
structure Disk where
  files : Table (Prod.fst : Path × Bytes → Path) := ∅
  dirs : List Path := []

namespace Disk

/-- The bytes of a regular file. -/
def read (d : Disk) (p : Path) : Option Bytes := (d.files.get? p).map Prod.snd

/-- `path.is_dir()`; the root always is one. -/
def isDir (d : Disk) (p : Path) : Bool := decide (p = [] ∨ p ∈ d.dirs)

/-- A file created, or overwritten. -/
def put (d : Disk) (p : Path) (content : Bytes) : Disk := { d with files := d.files.put (p, content) }

/-- A file deleted. -/
def unlink (d : Disk) (p : Path) : Disk := { d with files := d.files.drop p }

/-- A directory created with its parents. -/
def addDirs (d : Disk) (p : Path) : Disk :=
  { d with dirs := d.dirs ++ p.inits.filter fun q => !d.isDir q }

@[simp] theorem read_put (d : Disk) (p : Path) (content : Bytes) (q : Path) :
    (d.put p content).read q = if q = p then some content else d.read q := by
  unfold read put
  rw [Table.get?_put]
  split <;> rfl

@[simp] theorem read_unlink (d : Disk) (p q : Path) :
    (d.unlink p).read q = if q = p then none else d.read q := by
  unfold read unlink
  rw [Table.get?_drop]
  split <;> rfl

@[simp] theorem read_addDirs (d : Disk) (p q : Path) : (d.addDirs p).read q = d.read q := rfl

/-- The text of an `OSError`. -/
def osError (number : ℕ) (reason : String) (p : Path) : String :=
  "[Errno " ++ toString number ++ "] " ++ reason ++ ": '/" ++ "/".intercalate p ++ "'"

/-- `path.mkdir(parents=True, exist_ok=True)`, on a system that refuses some names. -/
def mkdir (refuses : Path → Option String) (d : Disk) (p : Path) : Except String Disk :=
  match p.inits.findSome? refuses with
  | some reason => .error reason
  | none =>
    if (d.read p).isSome then .error (osError 17 "File exists" p)
    else if p.inits.any fun q => (d.read q).isSome then .error (osError 20 "Not a directory" p)
    else .ok (d.addDirs p)

/-- What stops `path.open("wb")`. -/
def openError (refuses : Path → Option String) (d : Disk) (p : Path) : Option String :=
  match refuses p with
  | some reason => some reason
  | none =>
    if d.isDir p then some (osError 21 "Is a directory" p)
    else if d.isDir p.dropLast then none
    else some (osError 2 "No such file or directory" p)

/-- `sorted(path.rglob("*"))`, the regular files of it. -/
def filesUnder (d : Disk) (p : Path) : List Path :=
  sortBy id ((d.files.rows.map Prod.fst).filter fun q => p.isPrefixOf q && decide (q ≠ p))

theorem mem_filesUnder {d : Disk} {p q : Path} (h : q ∈ d.filesUnder p) :
    ∃ content, d.read q = some content := by
  obtain ⟨row, hrow, rfl⟩ := List.mem_map.mp (List.mem_filter.mp (mem_sortBy.mp h)).1
  exact ⟨row.2, by rw [read, Table.get?_eq_some.mpr ⟨hrow, rfl⟩]; rfl⟩

end Disk

end BareAnalysis
