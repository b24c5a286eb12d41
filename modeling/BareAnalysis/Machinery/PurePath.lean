import BareAnalysis.Machinery.Joined
import Mathlib.Data.List.Induction
import Mathlib.Data.List.Infix
import Mathlib.Data.List.TakeWhile

/-!
# Machinery/PurePath — paths as texts, the way pathlib reads and joins them

    "/srv/runs" ⊕ ["a", "b"] = "/srv/runs/a/b"          POSIX
    "C:\\runs"  ⊕ ["a", "b"] = "C:\\runs\\a\\b"          Windows: drives, roots and two separators

Nothing is looked up: a pure path is its drive, its root and the parts after them.
-/

namespace BareAnalysis

/-- A component a resolved path can have. -/
def IsComponent (part : String) : Prop := part ≠ "" ∧ part ≠ "." ∧ part ≠ ".." ∧ '/' ∉ part.toList

instance (part : String) : Decidable (IsComponent part) := inferInstanceAs (Decidable (_ ∧ _))

abbrev Component := { part : String // IsComponent part }

/-- An absolute path without links or climbs, from the root down. -/
abbrev ResolvedPath := List Component

/-- `str(path)` of a resolved path. -/
def ResolvedPath.str (p : ResolvedPath) : String := "/" ++ "/".intercalate (p.map Subtype.val)

/-- A pure path, parsed. -/
structure PurePath where
  drive : String := ""
  root : String := ""
  tail : List String := []
  deriving DecidableEq, Repr

namespace PurePath

/-- The parts of a text: pathlib drops empty ones and `.`. -/
def segments (sep : Char) (text : List Char) : List String :=
  ((text.splitOn sep).map String.ofList).filter fun part => part ≠ "" ∧ part ≠ "."

/-- The text of a path. -/
def str (sep : String) (p : PurePath) : String :=
  let text := p.drive ++ p.root ++ sep.intercalate p.tail
  if text = "" then "." else text

/-! ## POSIX -/

/-- `PurePosixPath(text)`: two slashes ahead are a root of their own, more are one. -/
def posix (text : String) : PurePath where
  root :=
    match (text.toList.takeWhile (· = '/')).length with
    | 0 => ""
    | 2 => "//"
    | _ => "/"
  tail := segments '/' text.toList

/-- `posixpath.join(path, *paths)`. -/
def posixJoin (path : String) (paths : List String) : String :=
  paths.foldl (fun path p =>
    if p.toList.head? = some '/' then p
    else if path = "" ∨ path.toList.getLast? = some '/' then path ++ p
    else path ++ "/" ++ p) path

/-- `str(PurePosixPath(root).joinpath(*parts))`. -/
def posixChild (root : String) (parts : List String) : String :=
  (posix (posixJoin root parts)).str "/"

/-! ## Windows -/

/-- Either separator of Windows, as the first of them. -/
def backslashed (text : List Char) : List Char := text.map fun c => if c = '/' then '\\' else c

/-- `text.find(c, start)`. -/
def findFrom (c : Char) (start : ℕ) (text : List Char) : Option ℕ :=
  ((text.drop start).findIdx? (· = c)).map (· + start)

/-- `ntpath.splitroot`. -/
def splitRoot (p : List Char) : List Char × List Char × List Char :=
  let norm := backslashed p
  match norm with
  | '\\' :: '\\' :: _ =>
    let start := if (norm.take 8).map Char.toUpper = "\\\\?\\UNC\\".toList then 8 else 2
    match findFrom '\\' start norm with
    | none => (p, [], [])
    | some i =>
      match findFrom '\\' (i + 1) norm with
      | none => (p, [], [])
      | some j => (p.take j, (p.drop j).take 1, p.drop (j + 1))
  | '\\' :: _ => ([], p.take 1, p.drop 1)
  | _ :: ':' :: '\\' :: _ => (p.take 2, (p.drop 2).take 1, p.drop 3)
  | _ :: ':' :: _ => (p.take 2, [], p.drop 2)
  | _ => ([], [], p)

/-- One turn of the loop of `ntpath.join`: drive, root and path so far, and the next segment. -/
def windowsJoinStep (so : List Char × List Char × List Char) (p : List Char) :
    List Char × List Char × List Char :=
  let (drive, root, path) := so
  let (pDrive, pRoot, pPath) := splitRoot p
  let relative (drive : List Char) : List Char × List Char × List Char :=
    (drive, root, (if path ≠ [] ∧ ¬(path.getLast? = some '\\' ∨ path.getLast? = some '/')
      then path ++ ['\\'] else path) ++ pPath)
  if pRoot ≠ [] then (if pDrive ≠ [] ∨ drive = [] then pDrive else drive, pRoot, pPath)
  else if pDrive ≠ [] ∧ pDrive ≠ drive then
    if pDrive.map Char.toLower ≠ drive.map Char.toLower then (pDrive, pRoot, pPath)
    else relative pDrive
  else relative drive

/-- `ntpath.join(path, *paths)`. -/
def windowsJoin (path : String) (paths : List String) : List Char :=
  let (drive, root, path) := (paths.map String.toList).foldl windowsJoinStep (splitRoot path.toList)
  if path ≠ [] ∧ root = [] ∧ drive ≠ [] ∧
      ¬(drive.getLast? = some ':' ∨ drive.getLast? = some '\\' ∨ drive.getLast? = some '/') then
    drive ++ ['\\'] ++ path
  else drive ++ root ++ path

/-- `PureWindowsPath(text)`: a share without a path has the root nonetheless. -/
def windows (text : List Char) : PurePath :=
  let (drive, root, rel) := splitRoot (backslashed text)
  let driveParts := drive.splitOn '\\'
  let isShare := root = [] ∧ drive.head? = some '\\' ∧ drive.getLast? ≠ some '\\' ∧
    (driveParts.length = 4 ∧ ¬(driveParts.getD 2 []) <:+: "?.".toList ∨ driveParts.length = 6)
  { drive := String.ofList drive
    root := if isShare then "\\" else String.ofList root
    tail := segments '\\' rel }

/-- `str(PureWindowsPath(…))`: a part that reads like a drive does not come first. -/
def windowsStr (p : PurePath) : String :=
  if p.drive = "" ∧ p.root = "" ∧ p.tail.head?.any fun part => (splitRoot part.toList).1 ≠ [] then
    { p with tail := "." :: p.tail }.str "\\"
  else p.str "\\"

/-- `str(PureWindowsPath(root).joinpath(*parts))`. -/
def windowsChild (root : String) (parts : List String) : String :=
  (windows (windowsJoin root parts)).windowsStr

example : windowsChild "C:\\bare\\runs" ["run-1", "results"] = "C:\\bare\\runs\\run-1\\results" := by
  decide

example : posixChild "/srv/bare/runs" ["run-1", "staging"] = "/srv/bare/runs/run-1/staging" := by
  decide

end PurePath

/-! ## Reading a joined path back -/

theorem intercalate_slash_ne_empty {parts : List String} (hne : parts ≠ [])
    (h : ∀ part ∈ parts, part ≠ "") : "/".intercalate parts ≠ "" := by
  obtain ⟨part, rest, rfl⟩ := List.exists_cons_of_ne_nil hne
  intro heq
  have hpart : part.toList ≠ [] := fun hnil =>
    h part List.mem_cons_self (String.toList_eq_nil_iff.mp hnil)
  have hchars := congrArg String.toList heq
  rw [String.toList_intercalate] at hchars
  cases rest <;> simp_all

/-- **Nonempty parts without a slash can be read back from their join.** -/
theorem intercalate_slash_inj {a b : List String} (ha : ∀ part ∈ a, part ≠ "" ∧ '/' ∉ part.toList)
    (hb : ∀ part ∈ b, part ≠ "" ∧ '/' ∉ part.toList)
    (h : "/".intercalate a = "/".intercalate b) : a = b := by
  by_cases hna : a = []
  · by_contra hne
    rw [hna] at h hne
    exact intercalate_slash_ne_empty (Ne.symm hne) (fun part hpart => (hb part hpart).1) h.symm
  by_cases hnb : b = []
  · rw [hnb] at h
    exact absurd h (intercalate_slash_ne_empty hna fun part hpart => (ha part hpart).1)
  · exact string_intercalate_inj hna hnb (fun part hpart => (ha part hpart).2)
      (fun part hpart => (hb part hpart).2) h

theorem ResolvedPath.str_injective : Function.Injective ResolvedPath.str := fun p q h => by
  have hpart : ∀ p : ResolvedPath, ∀ part ∈ p.map Subtype.val, part ≠ "" ∧ '/' ∉ part.toList :=
    fun p part hmem => by
      obtain ⟨c, -, rfl⟩ := List.mem_map.mp hmem
      exact ⟨c.2.1, c.2.2.2.2⟩
  have htexts : "/".intercalate (p.map Subtype.val) = "/".intercalate (q.map Subtype.val) := by
    simpa [ResolvedPath.str] using h
  exact Subtype.val_injective.list_map (intercalate_slash_inj (hpart p) (hpart q) htexts)

namespace PurePath

/-- The segments on both sides of a separator. -/
theorem segments_append_cons (sep : Char) (a b : List Char) :
    segments sep (a ++ sep :: b) = segments sep a ++ segments sep b := by
  rw [segments, List.splitOn_append_cons_self, List.map_append, List.filter_append]
  rfl

theorem segments_of_component {part : String} (h : IsComponent part) :
    segments '/' part.toList = [part] := by
  rw [segments, List.splitOn_eq_singleton h.2.2.2]
  simp [h.1, h.2.1]

/-- No part has the separator. -/
theorem not_mem_of_mem_splitOn {sep : Char} {text part : List Char} (h : part ∈ text.splitOn sep) :
    sep ∉ part := by
  by_cases hsep : sep ∈ text
  · obtain ⟨a, b, htext, ha⟩ := List.eq_append_cons_of_mem hsep
    rw [htext, List.splitOn_append_cons_self] at h
    obtain h | h := List.mem_append.mp h
    · rw [List.splitOn_eq_singleton ha] at h
      rwa [List.mem_singleton.mp h]
    · have hlt : b.length < text.length := by
        rw [htext, List.length_append, List.length_cons]
        omega
      exact not_mem_of_mem_splitOn h
  · rw [List.splitOn_eq_singleton hsep] at h
    rwa [List.mem_singleton.mp h]
termination_by text.length

theorem of_mem_segments {sep : Char} {text : List Char} {part : String}
    (h : part ∈ segments sep text) : part ≠ "" ∧ part ≠ "." ∧ sep ∉ part.toList := by
  obtain ⟨hmem, hpart⟩ := List.mem_filter.mp h
  obtain ⟨chars, hchars, rfl⟩ := List.mem_map.mp hmem
  rw [String.toList_ofList]
  obtain ⟨hempty, hdot⟩ := of_decide_eq_true hpart
  exact ⟨hempty, hdot, not_mem_of_mem_splitOn hchars⟩

/-- The slashes ahead of a text are those of its first part, unless that is all slashes and more
follow. -/
theorem takeWhile_append_of {α : Type} {p : α → Bool} {a b : List α}
    (h : a.takeWhile p = a → b.takeWhile p = []) :
    (a ++ b).takeWhile p = a.takeWhile p := by
  rw [List.takeWhile_append]
  split
  · rename_i hlen
    have hall : a.takeWhile p = a := (List.takeWhile_prefix p).eq_of_length hlen
    rw [h hall, List.append_nil, hall]
  · rfl

theorem posix_eq {text text' : String} {parts : List String}
    (hroot : text'.toList.takeWhile (· = '/') = text.toList.takeWhile (· = '/'))
    (htail : segments '/' text'.toList = segments '/' text.toList ++ parts) :
    posix text' = { posix text with tail := (posix text).tail ++ parts } := by
  rw [posix, posix, hroot, htail]

/-- **A component that is joined goes to the end**; the rest of the path stays. -/
theorem posix_join {path part : String} (h : IsComponent part) :
    posix (posixJoin path [part]) = { posix path with tail := (posix path).tail ++ [part] } := by
  have hhead : part.toList.takeWhile (· = '/') = [] := by
    cases hchars : part.toList with
    | nil => rfl
    | cons c rest =>
      have hc : c ≠ '/' := fun hc => h.2.2.2 (by rw [hchars, hc]; exact List.mem_cons_self)
      exact List.takeWhile_cons_of_neg (by simpa using hc)
  have hjoin : posixJoin path [part] = if path = "" ∨ path.toList.getLast? = some '/'
      then path ++ part else path ++ "/" ++ part := by
    refine if_neg fun hslash => ?_
    exact h.2.2.2 (List.mem_of_head? hslash)
  rw [hjoin]
  split
  · rename_i hends
    refine posix_eq ?_ ?_ <;> rw [String.toList_append]
    · exact takeWhile_append_of fun _ => hhead
    · obtain rfl | hlast := hends
      · exact segments_of_component h
      · obtain ⟨front, hfront⟩ := List.getLast?_eq_some_iff.mp hlast
        rw [hfront, List.append_assoc, List.singleton_append, segments_append_cons,
          segments_append_cons, segments_of_component h,
          show segments '/' [] = [] by decide, List.append_nil]
  · rename_i hends
    push Not at hends
    refine posix_eq ?_ ?_ <;>
      rw [String.toList_append, String.toList_append, List.append_assoc]
    · refine takeWhile_append_of fun hall => absurd ?_ hends.2
      have hne : path.toList ≠ [] := fun hnil => hends.1 (String.toList_eq_nil_iff.mp hnil)
      have hlast := List.takeWhile_eq_self_iff.mp hall _ (List.getLast_mem hne)
      rw [List.getLast?_eq_some_getLast hne, of_decide_eq_true hlast]
    · rw [show "/".toList = ['/'] from rfl, List.singleton_append, segments_append_cons,
        segments_of_component h]

theorem posixJoin_append (path : String) (parts : List String) (part : String) :
    posixJoin path (parts ++ [part]) = posixJoin (posixJoin path parts) [part] := by
  rw [posixJoin, List.foldl_append]
  rfl

/-- **Joining components appends them.** -/
theorem posix_joins {path : String} {parts : List String} (h : ∀ part ∈ parts, IsComponent part) :
    posix (posixJoin path parts) = { posix path with tail := (posix path).tail ++ parts } := by
  induction parts using List.reverseRecOn with
  | nil => simp [posixJoin]
  | append_singleton parts part ih =>
    rw [posixJoin_append, posix_join (h part (by simp)),
      ih fun part' hpart' => h part' (List.mem_append_left _ hpart'), List.append_assoc]

/-- A text of parts is no dot, and a path without one is empty. -/
theorem eq_nil_of_str {before : String} {c : List String}
    (hc : ∀ part ∈ c, part ≠ "" ∧ part ≠ "." ∧ '/' ∉ part.toList) (hbefore : before = "")
    (h : before ++ "/".intercalate c = "" ∨ before ++ "/".intercalate c = ".") : c = [] := by
  have hread : ∀ {d : List String}, (∀ part ∈ d, part ≠ "" ∧ '/' ∉ part.toList) →
      "/".intercalate c = "/".intercalate d → c = d := fun hd =>
    intercalate_slash_inj (fun part hpart => ⟨(hc part hpart).1, (hc part hpart).2.2⟩) hd
  rw [hbefore, String.empty_append] at h
  obtain h | h := h
  · exact hread (fun part hpart => (nomatch hpart)) h
  · have hone : c = ["."] := hread (by simp) h
    exact absurd rfl (hc "." (by rw [hone]; exact List.mem_cons_self)).2.1

/-- **The parts of a path can be read off its text**, what is ahead of them being known. -/
theorem str_tail_inj {p : PurePath} {a b : List String}
    (ha : ∀ part ∈ a, part ≠ "" ∧ part ≠ "." ∧ '/' ∉ part.toList)
    (hb : ∀ part ∈ b, part ≠ "" ∧ part ≠ "." ∧ '/' ∉ part.toList)
    (h : { p with tail := a }.str "/" = { p with tail := b }.str "/") : a = b := by
  have hempty : ∀ {s t : String}, s ++ t = "" → s = "" := fun h =>
    (String.append_eq_empty_iff.mp h).1
  simp only [str] at h
  split at h <;> split at h
  · rename_i hatext hbtext
    rw [eq_nil_of_str ha (hempty hatext) (Or.inl hatext),
      eq_nil_of_str hb (hempty hbtext) (Or.inl hbtext)]
  · rename_i hatext hbtext
    rw [eq_nil_of_str ha (hempty hatext) (Or.inl hatext),
      eq_nil_of_str hb (hempty hatext) (Or.inr h.symm)]
  · rename_i hatext hbtext
    rw [eq_nil_of_str ha (hempty hbtext) (Or.inr h),
      eq_nil_of_str hb (hempty hbtext) (Or.inl hbtext)]
  · exact intercalate_slash_inj (fun part hpart => ⟨(ha part hpart).1, (ha part hpart).2.2⟩)
      (fun part hpart => ⟨(hb part hpart).1, (hb part hpart).2.2⟩) (String.append_right_inj _ |>.mp h)

/-- **What is joined to one path can be read back.** -/
theorem posixChild_inj {root : String} {a b : List String} (ha : ∀ part ∈ a, IsComponent part)
    (hb : ∀ part ∈ b, IsComponent part) (h : posixChild root a = posixChild root b) : a = b := by
  rw [posixChild, posixChild, posix_joins ha, posix_joins hb] at h
  have hparts : ∀ {c : List String}, (∀ part ∈ c, IsComponent part) →
      ∀ part ∈ (posix root).tail ++ c, part ≠ "" ∧ part ≠ "." ∧ '/' ∉ part.toList :=
    fun hc part hpart => by
      obtain hpart | hpart := List.mem_append.mp hpart
      · exact of_mem_segments hpart
      · exact ⟨(hc part hpart).1, (hc part hpart).2.1, (hc part hpart).2.2.2⟩
  exact List.append_cancel_left (str_tail_inj (hparts ha) (hparts hb) h)

end PurePath

end BareAnalysis
