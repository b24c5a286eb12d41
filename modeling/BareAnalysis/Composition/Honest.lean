import BareAnalysis.Composition.Detect
import BareAnalysis.Machinery.Fallible

/-!
# Composition/Honest — what an inventory says of itself

    f₁ … fₙ ──until the cap is reached──▸ f₁ … fₘ ──first of a key──▸ components

The cap is looked at between two files and the files are counted before the loop, so an inventory is
honest exactly if it never comes to the cap with a file to go (`isHonest_iff`), and if no manifest
declares a blank.
-/

namespace BareAnalysis.Composition

section Honest

variable (p : Reading)

/-- What a file declares. -/
def declared (file : StagedFile) : List Component := (detectInFile p file).toOption.getD []

/-- …and what some files declare. -/
def declaredBy (files : List StagedFile) : List Component := files.flatMap (declared p)

/-- **An inventory that is honest about its limits.** -/
structure Honest (files : List StagedFile) (maxComponents : ℤ) (inventory : ComponentInventory)
    (examined : List StagedFile) : Prop where
  bounded : (inventory.components.length : ℤ) ≤ maxComponents
  distinct : (inventory.components.map Component.key).Nodup
  named : ∀ c ∈ inventory.components, c.name ≠ "" ∧ c.version ≠ ""
  complete : ∀ file ∈ examined, ∀ c ∈ declared p file,
    ∃ c' ∈ inventory.components, c'.key = c.key
  truncated : inventory.truncated = true ↔ examined.length < files.length ∨
    ∃ file ∈ files, ∃ c ∈ declared p file, ∀ c' ∈ inventory.components, c'.key ≠ c.key
  counted : inventory.filesExamined = examined.length

/-- There is an inventory, and it is honest. -/
def IsHonest (files : List StagedFile) (maxComponents : ℤ) : Prop :=
  ∃ result examined, inventory p files maxComponents = .ok (result, examined) ∧
    Honest p files maxComponents result examined

/-- The number of components that files declare, up to their keys. -/
def keyCount (files : List StagedFile) : ℕ :=
  ((declaredBy p files).map Component.key).toFinset.card

/-- **The cap is kept, and reached by no file but the last.** -/
def Fits (files : List StagedFile) (maxComponents : ℤ) : Prop :=
  (keyCount p files : ℤ) ≤ maxComponents ∧
    (files ≠ [] → (keyCount p files.dropLast : ℤ) < maxComponents)

/-- How a file is searched, if it is a manifest that is no JSON. -/
def searchesOf (file : StagedFile) : Option Searches :=
  let name := lowerText p file.name
  if name = "package.json".toList then none
  else if name = "metadata".toList then
    if !((lowerText p file.pathInTree).tails.any ".dist-info".toList.isPrefixOf) then none
    else some metadataSearches
  else if ".nuspec".toList.isSuffixOf name then some nuspecSearches
  else none

/-- A manifest that states a name and a version, one of which is cleaned away. -/
def DeclaresBlank (file : StagedFile) : Prop :=
  ∃ searches ∈ searchesOf p file, ∃ text ∈ file.manifestText,
    ∃ name ∈ searches.name.group1 text, ∃ version ∈ searches.version.group1 text,
      cleanText p name = "" ∨ cleanText p version = ""

/-- A `package.json` that is nested too deep. -/
def TooDeep (file : StagedFile) : Prop :=
  lowerText p file.name = "package.json".toList ∧
    ∃ text ∈ file.manifestText, p.loads text = .error .recursion

end Honest

/-! ## What one file declares -/

section File

variable {p : Reading} {file : StagedFile} {c : Component}

/-- A component with a name and a version. -/
def IsNamed (c : Component) : Prop := c.name ≠ "" ∧ c.version ≠ ""

theorem fromPackageJson_cases (file : StagedFile) :
    (fromPackageJson p file = .error .recursion ∧
        ∃ text ∈ file.manifestText, p.loads text = .error .recursion) ∨
      (¬(∃ text ∈ file.manifestText, p.loads text = .error .recursion) ∧
        ∃ found, fromPackageJson p file = .ok found ∧ ∀ c ∈ found, IsNamed c) := by
  unfold fromPackageJson
  cases file.manifestText with
  | none =>
    refine Or.inr ⟨?_, none, rfl, fun c hc => nomatch hc⟩
    rintro ⟨text, htext, -⟩
    cases htext
  | some text =>
    have hnot : p.loads text ≠ .error .recursion →
        ¬∃ text' ∈ some text, p.loads text' = .error .recursion := by
      rintro hne ⟨text', htext', h⟩
      obtain rfl := Option.some.inj htext'
      exact hne h
    dsimp only
    rcases hloads : p.loads text with e | v
    · cases e with
      | recursion => exact Or.inl ⟨rfl, text, rfl, hloads⟩
      | decode => exact Or.inr ⟨hnot (by rw [hloads]; nofun), none, rfl, fun c hc => nomatch hc⟩
      | value m => exact Or.inr ⟨hnot (by rw [hloads]; nofun), none, rfl, fun c hc => nomatch hc⟩
    · refine Or.inr ⟨hnot (by rw [hloads]; nofun), ?_⟩
      cases v with
      | obj document =>
        dsimp only
        split
        · exact ⟨none, rfl, fun c hc => nomatch hc⟩
        · rename_i hnamed
          rw [not_or] at hnamed
          refine ⟨_, rfl, fun c hc => ?_⟩
          obtain rfl := Option.some.inj hc
          exact hnamed
      | _ => exact ⟨none, rfl, fun c hc => nomatch hc⟩

theorem forall_fromSearches_iff {searches : Searches} :
    (∀ c ∈ fromSearches p searches file, IsNamed c) ↔
      ¬∃ text ∈ file.manifestText, ∃ name ∈ searches.name.group1 text,
        ∃ version ∈ searches.version.group1 text, cleanText p name = "" ∨ cleanText p version = "" := by
  unfold fromSearches
  cases file.manifestText with
  | none => simp
  | some text =>
    cases hname : searches.name.group1 text with
    | none => simp [hname]
    | some name =>
      cases hversion : searches.version.group1 text with
      | none => simp [hname, hversion]
      | some version => simp [hname, hversion, IsNamed]

/-- A Go module has a name of three characters at least, and a version that begins with a `v`. -/
theorem ne_nil_of_goDepAt {data : Bytes} {dep : Bytes × Bytes × ℕ} (h : goDepAt data = some dep) :
    dep.1 ≠ [] ∧ dep.2.1 ≠ [] := by
  unfold goDepAt at h
  split at h
  · dsimp only at h
    split at h
    · split at h
      · rename_i hlength
        obtain rfl := Option.some.inj h
        have hpos : 0 < ((data.drop 4).takeWhile isGoNameByte).length :=
          lt_of_lt_of_le (by decide) hlength.1
        exact ⟨List.ne_nil_of_length_pos hpos, List.cons_ne_nil _ _⟩
      · cases h
    · cases h
  · cases h

theorem ne_nil_of_mem_goDeps {skip : ℕ} {data : Bytes} {dep : Bytes × Bytes}
    (h : dep ∈ goDeps skip data) : dep.1 ≠ [] ∧ dep.2 ≠ [] := by
  induction data generalizing skip with
  | nil => cases skip <;> cases h
  | cons b data ih =>
    cases skip with
    | succ skip => exact ih h
    | zero =>
      rw [goDeps] at h
      split at h
      · rename_i name version length hdep
        obtain rfl | h := List.mem_cons.mp h
        · exact ne_nil_of_goDepAt hdep
        · exact ih h
      · exact ih h

theorem isNamed_of_mem_fromGoBinary (hc : c ∈ fromGoBinary file) : IsNamed c := by
  unfold fromGoBinary at hc
  split at hc
  · cases hc
  · split at hc
    · cases hc
    · obtain ⟨dep, hdep, rfl⟩ := List.mem_map.mp hc
      obtain ⟨hname, hversion⟩ :=
        ne_nil_of_mem_goDeps (List.mem_filter.mp (mem_of_mem_keepFirst hdep)).1
      have htext : ∀ data : Bytes, data ≠ [] → textOf data ≠ "" := fun data hne hempty => by
        have hlist := congrArg String.toList hempty
        rw [textOf, String.toList_ofList] at hlist
        exact hne (List.map_eq_nil_iff.mp hlist)
      exact ⟨htext _ hname, htext _ hversion⟩

/-- A file that is read without an exception. -/
theorem detectInFile_of_ok {found : List Component} (h : detectInFile p file = .ok found)
    (hdeep : ¬TooDeep p file) (hnamed : (∀ c ∈ found, IsNamed c) ↔ ¬DeclaresBlank p file) :
    ¬TooDeep p file ∧ (∃ found, detectInFile p file = .ok found) ∧
      ((∀ c ∈ declared p file, IsNamed c) ↔ ¬DeclaresBlank p file) := by
  refine ⟨hdeep, ⟨found, h⟩, ?_⟩
  rw [declared, h]
  exact hnamed

/-- A file that is no manifest to search declares no blank. -/
theorem not_declaresBlank (h : searchesOf p file = none) : ¬DeclaresBlank p file := by
  rintro ⟨searches, hsearches, -⟩
  rw [h] at hsearches
  cases hsearches

/-- A manifest that is searched declares what its searches find. -/
theorem forall_fromSearches_iff_declaresBlank {searches : Searches}
    (h : searchesOf p file = some searches) :
    (∀ c ∈ (fromSearches p searches file).toList, IsNamed c) ↔ ¬DeclaresBlank p file := by
  have hfound : (∀ c ∈ (fromSearches p searches file).toList, IsNamed c) ↔
      ∀ c ∈ fromSearches p searches file, IsNamed c :=
    forall_congr' fun c => by rw [Option.mem_toList, Option.mem_def]
  rw [hfound, forall_fromSearches_iff, DeclaresBlank, h]
  exact not_congr ⟨fun hblank => ⟨searches, rfl, hblank⟩, fun ⟨_, hsame, hblank⟩ =>
    Option.some.inj hsame ▸ hblank⟩

/-- **A file declares what has a name and a version**, unless it declares a blank; and it is read,
unless it is nested too deep. -/
theorem detectInFile_cases (p : Reading) (file : StagedFile) :
    (TooDeep p file ∧ ¬∃ found, detectInFile p file = .ok found) ∨
      (¬TooDeep p file ∧ (∃ found, detectInFile p file = .ok found) ∧
        ((∀ c ∈ declared p file, IsNamed c) ↔ ¬DeclaresBlank p file)) := by
  by_cases hjson : lowerText p file.name = "package.json".toList
  · have hsearches : searchesOf p file = none := if_pos hjson
    obtain ⟨herror, htext⟩ | ⟨hread, found, hfound, hnamed⟩ := fromPackageJson_cases (p := p) file
    · have hdetect : detectInFile p file = .error .recursion := by
        rw [detectInFile, if_pos hjson, herror]
        rfl
      refine Or.inl ⟨⟨hjson, htext⟩, ?_⟩
      rintro ⟨found, hfound⟩
      rw [hdetect] at hfound
      cases hfound
    · have hdetect : detectInFile p file = .ok found.toList := by
        rw [detectInFile, if_pos hjson, hfound]
        rfl
      refine Or.inr (detectInFile_of_ok hdetect (fun hdeep => hread hdeep.2) ?_)
      exact iff_of_true (fun c hc => hnamed c (Option.mem_toList.mp hc))
        (not_declaresBlank hsearches)
  · have hdeep : ¬TooDeep p file := fun hdeep => hjson hdeep.1
    refine Or.inr ?_
    by_cases hmetadata : lowerText p file.name = "metadata".toList
    · cases hinfo : !((lowerText p file.pathInTree).tails.any ".dist-info".toList.isPrefixOf) with
      | true =>
        have hsearches : searchesOf p file = none := by
          rw [searchesOf, if_neg hjson, if_pos hmetadata, if_pos hinfo]
        have hdetect : detectInFile p file = .ok [] := by
          rw [detectInFile, if_neg hjson, if_pos hmetadata, if_pos hinfo]
        exact detectInFile_of_ok hdetect hdeep
          (iff_of_true (fun c hc => nomatch hc) (not_declaresBlank hsearches))
      | false =>
        have hinfo' := Bool.eq_false_iff.mp hinfo
        have hsearches : searchesOf p file = some metadataSearches := by
          rw [searchesOf, if_neg hjson, if_pos hmetadata, if_neg hinfo']
        have hdetect : detectInFile p file = .ok (fromPythonMetadata p file).toList := by
          rw [detectInFile, if_neg hjson, if_pos hmetadata, if_neg hinfo']
        exact detectInFile_of_ok hdetect hdeep (forall_fromSearches_iff_declaresBlank hsearches)
    · by_cases hnuspec : ".nuspec".toList.isSuffixOf (lowerText p file.name) = true
      · have hsearches : searchesOf p file = some nuspecSearches := by
          rw [searchesOf, if_neg hjson, if_neg hmetadata, if_pos hnuspec]
        have hdetect : detectInFile p file = .ok (fromNuspec p file).toList := by
          rw [detectInFile, if_neg hjson, if_neg hmetadata, if_pos hnuspec]
        exact detectInFile_of_ok hdetect hdeep (forall_fromSearches_iff_declaresBlank hsearches)
      · have hsearches : searchesOf p file = none := by
          rw [searchesOf, if_neg hjson, if_neg hmetadata, if_neg hnuspec]
        have hgo : ∃ found, detectInFile p file = .ok found ∧ ∀ c ∈ found, IsNamed c := by
          rw [detectInFile, if_neg hjson, if_neg hmetadata, if_neg hnuspec]
          repeat' split
          · exact ⟨[], rfl, fun c hc => nomatch hc⟩
          · exact ⟨[], rfl, fun c hc => nomatch hc⟩
          · exact ⟨_, rfl, fun c hc => isNamed_of_mem_fromGoBinary hc⟩
          · exact ⟨[], rfl, fun c hc => nomatch hc⟩
          · exact ⟨[], rfl, fun c hc => nomatch hc⟩
        obtain ⟨found, hfound, hnamed⟩ := hgo
        exact detectInFile_of_ok hfound hdeep (iff_of_true hnamed (not_declaresBlank hsearches))

end File

/-! ## The loop -/

section Loop

variable {p : Reading} {maxComponents : ℤ} {w w' : Walk} {files pre : List StagedFile}

/-- The loop after some files. -/
def Walk.after (p : Reading) (w : Walk) (files : List StagedFile) : Walk :=
  { w with
    seen := (declaredBy p files).foldl (fun seen c => seen.setDefault c.key c) w.seen
    examined := w.examined ++ files }

theorem Walk.after_cons (w : Walk) (file : StagedFile) (files : List StagedFile) :
    w.after p (file :: files) = (w.after p [file]).after p files := by
  rw [after, after, after, declaredBy, List.flatMap_cons, List.foldl_append, List.append_assoc]
  rw [declaredBy, List.flatMap_singleton]
  rfl

/-- One turn of the loop. -/
theorem walk_cons {file : StagedFile} {found : List Component}
    (hroom : ¬maxComponents ≤ w.seen.length) (hfound : detectInFile p file = .ok found) :
    walk p maxComponents (file :: files) w = walk p maxComponents files (w.after p [file]) := by
  have hdeclared : declaredBy p [file] = found := by
    rw [declaredBy, List.flatMap_singleton, declared, hfound]
    rfl
  rw [walk, if_neg hroom, hfound, Walk.after, hdeclared]
  rfl

/-- **What the loop came through**: files that can be read, each with room ahead of it. -/
theorem exists_of_walk (h : walk p maxComponents files w = .ok w') :
    ∃ done rest, files = done ++ rest ∧ w'.examined = w.examined ++ done ∧
      w'.seen = (w.after p done).seen ∧
      (∀ file ∈ done, ∃ found, detectInFile p file = .ok found) ∧
      ∀ pre file, pre ++ [file] <+: done → ((w.after p pre).seen.length : ℤ) < maxComponents := by
  induction files generalizing w with
  | nil =>
    obtain rfl := Except.ok.inj h
    refine ⟨[], [], rfl, (List.append_nil _).symm, rfl, fun _ hf => (nomatch hf), fun pre f hpre => ?_⟩
    exact absurd (List.prefix_nil.mp hpre) (List.append_ne_nil_of_right_ne_nil _ (List.cons_ne_nil _ _))
  | cons file files ih =>
    by_cases hroom : maxComponents ≤ w.seen.length
    · rw [walk, if_pos hroom] at h
      obtain rfl := Except.ok.inj h
      refine ⟨[], file :: files, rfl, (List.append_nil _).symm, rfl, fun _ hf => (nomatch hf),
        fun pre f hpre => ?_⟩
      exact absurd (List.prefix_nil.mp hpre)
        (List.append_ne_nil_of_right_ne_nil _ (List.cons_ne_nil _ _))
    · cases hfound : detectInFile p file with
      | error e =>
        rw [walk, if_neg hroom, hfound] at h
        cases h
      | ok found =>
        rw [walk_cons hroom hfound] at h
        obtain ⟨done, rest, rfl, hexamined, hseen, hok, hrooms⟩ := ih h
        refine ⟨file :: done, rest, rfl, ?_, ?_, ?_, ?_⟩
        · rw [hexamined, Walk.after, List.append_assoc]
          rfl
        · rw [hseen, ← Walk.after_cons]
        · rw [List.forall_mem_cons]
          exact ⟨⟨found, hfound⟩, hok⟩
        · intro pre f hpre
          cases pre with
          | nil => exact not_le.mp hroom
          | cons g pre =>
            obtain ⟨rfl, htail⟩ := List.cons_prefix_cons.mp hpre
            rw [Walk.after_cons]
            exact hrooms pre f htail

/-- **The loop comes through**, if there is room ahead of each file. -/
theorem walk_eq_ok (hok : ∀ file ∈ files, ∃ found, detectInFile p file = .ok found)
    (hrooms : ∀ pre file, pre ++ [file] <+: files →
      ((w.after p pre).seen.length : ℤ) < maxComponents) :
    walk p maxComponents files w = .ok (w.after p files) := by
  induction files generalizing w with
  | nil => exact congrArg Except.ok (by rw [Walk.after, List.append_nil]; rfl)
  | cons file files ih =>
    obtain ⟨⟨found, hfound⟩, hok⟩ := List.forall_mem_cons.mp hok
    have hroom : (w.seen.length : ℤ) < maxComponents :=
      hrooms [] file (List.cons_prefix_cons.mpr ⟨rfl, List.nil_prefix⟩)
    rw [walk_cons (not_le.mpr hroom) hfound, w.after_cons file files]
    refine ih hok fun pre f hpre => ?_
    rw [← Walk.after_cons]
    exact hrooms (file :: pre) f (List.cons_prefix_cons.mpr ⟨rfl, hpre⟩)

/-- The components that are kept of some files. -/
def kept (p : Reading) (files : List StagedFile) : List Component :=
  keepFirst Component.key (declaredBy p files)

theorem seen_after (files : List StagedFile) :
    (({} : Walk).after p files).seen = (kept p files).map fun c => (c.key, c) :=
  foldl_setDefault Component.key (declaredBy p files)

/-- **As many are kept as there are keys.** -/
theorem length_kept (files : List StagedFile) : (kept p files).length = keyCount p files := by
  have hnodup : ((kept p files).map Component.key).Nodup := nodup_keys_keepFirst _ _
  rw [keyCount, ← List.length_map Component.key, ← List.toFinset_card_of_nodup hnodup]
  congr 1
  ext key
  rw [List.mem_toFinset, List.mem_toFinset, List.mem_map, List.mem_map]
  constructor
  · rintro ⟨c, hc, rfl⟩
    exact ⟨c, mem_of_mem_keepFirst hc, rfl⟩
  · rintro ⟨c, hc, rfl⟩
    exact exists_mem_keepFirst hc

theorem length_seen_after (files : List StagedFile) :
    (({} : Walk).after p files).seen.length = keyCount p files := by
  rw [seen_after, List.length_map, length_kept]

theorem keyCount_mono (h : pre <+: files) : keyCount p pre ≤ keyCount p files := by
  refine Finset.card_le_card fun key hkey => ?_
  rw [List.mem_toFinset] at hkey ⊢
  refine List.map_subset _ (fun c hc => ?_) hkey
  obtain ⟨file, hfile, hc⟩ := List.mem_flatMap.mp hc
  exact List.mem_flatMap.mpr ⟨file, h.subset hfile, hc⟩

/-- There is room ahead of each file if there is ahead of the last. -/
theorem rooms_iff : (∀ pre file, pre ++ [file] <+: files →
      (keyCount p pre : ℤ) < maxComponents) ↔
    (files ≠ [] → (keyCount p files.dropLast : ℤ) < maxComponents) := by
  constructor
  · intro h hne
    refine h files.dropLast (files.getLast hne) ?_
    rw [List.dropLast_append_getLast hne]
  · intro h pre file hpre
    have hne : files ≠ [] := by
      rintro rfl
      exact absurd (List.prefix_nil.mp hpre)
        (List.append_ne_nil_of_right_ne_nil _ (List.cons_ne_nil _ _))
    refine lt_of_le_of_lt ?_ (h hne)
    obtain ⟨rest, rfl⟩ := hpre
    refine Int.ofNat_le.mpr (keyCount_mono ?_)
    rw [List.append_assoc, List.singleton_append,
      List.dropLast_append_of_ne_nil (List.cons_ne_nil file rest)]
    exact List.prefix_append _ _

end Loop

/-! ## When it is honest -/

section Main

variable {p : Reading} {maxComponents : ℤ} {files : List StagedFile}

/-- The components of the inventory, in their order. -/
def listed (p : Reading) (files : List StagedFile) : List Component :=
  sortBy (sortKey p) (kept p files)

theorem map_snd_seen_after (files : List StagedFile) :
    (({} : Walk).after p files).seen.map Prod.snd = kept p files := by
  rw [seen_after, List.map_map]
  exact List.map_id _

/-- Every key that is declared is listed. -/
theorem exists_listed {file : StagedFile} {c : Component} (hfile : file ∈ files)
    (hc : c ∈ declared p file) : ∃ c' ∈ listed p files, c'.key = c.key := by
  have hmem : c ∈ declaredBy p files := List.mem_flatMap.mpr ⟨file, hfile, hc⟩
  obtain ⟨c', hc', hkey⟩ : ∃ c' ∈ kept p files, c'.key = c.key := exists_mem_keepFirst hmem
  exact ⟨c', mem_sortBy.mpr hc', hkey⟩

theorem forall_listed_iff : (∀ c ∈ listed p files, IsNamed c) ↔
    ∀ file ∈ files, ∀ c ∈ declared p file, IsNamed c := by
  have hsame : ∀ {c c' : Component}, c.key = c'.key → (IsNamed c ↔ IsNamed c') := fun h => by
    obtain ⟨-, hname, hversion⟩ := Component.key_inj.mp h
    rw [IsNamed, IsNamed, hname, hversion]
  constructor
  · intro h file hfile c hc
    obtain ⟨c', hc', hkey⟩ := exists_listed hfile hc
    exact (hsame hkey).mp (h c' hc')
  · intro h c hc
    obtain ⟨file, hfile, hc⟩ := List.mem_flatMap.mp (mem_of_mem_keepFirst (mem_sortBy.mp hc))
    exact h file hfile c hc

/-- An inventory that comes through. -/
theorem inventory_eq_ok (hok : ∀ file ∈ files, ∃ found, detectInFile p file = .ok found)
    (hrooms : ∀ pre file, pre ++ [file] <+: files → (keyCount p pre : ℤ) < maxComponents) :
    inventory p files maxComponents = .ok
      ({ components := listed p files, filesExamined := files.length }, files) := by
  have hwalk : walk p maxComponents files {} = .ok (({} : Walk).after p files) := by
    refine walk_eq_ok hok fun pre file hpre => ?_
    rw [length_seen_after]
    exact hrooms pre file hpre
  rw [inventory, hwalk, listed, ← map_snd_seen_after]
  rfl

/-- …is honest if it keeps the cap, and all that is declared has a name and a version. -/
theorem honest_iff : Honest p files maxComponents
      { components := listed p files, filesExamined := files.length } files ↔
    (keyCount p files : ℤ) ≤ maxComponents ∧
      ∀ file ∈ files, ∀ c ∈ declared p file, IsNamed c := by
  have hlength : (listed p files).length = keyCount p files :=
    (length_sortBy _ _).trans (length_kept files)
  rw [← forall_listed_iff, ← hlength]
  constructor
  · exact fun h => ⟨h.bounded, h.named⟩
  · rintro ⟨hbounded, hnamed⟩
    refine ⟨hbounded, ?_, hnamed, fun file hfile c hc => exists_listed hfile hc, ?_, rfl⟩
    · refine ((sortBy_perm (sortKey p) _).map Component.key).nodup_iff.mpr ?_
      exact nodup_keys_keepFirst _ _
    · refine iff_of_false Bool.false_ne_true ?_
      rintro (hlt | ⟨file, hfile, c, hc, hnone⟩)
      · exact lt_irrefl _ hlt
      · obtain ⟨c', hc', hkey⟩ := exists_listed hfile hc
        exact hnone c' hc' hkey

/-- **When an inventory is honest about its limits**: it keeps the cap, which no file but the last
reaches, and no manifest declares a blank or is nested too deep. -/
theorem isHonest_iff (p : Reading) (files : List StagedFile) (maxComponents : ℤ) :
    IsHonest p files maxComponents ↔
      Fits p files maxComponents ∧ ∀ file ∈ files, ¬DeclaresBlank p file ∧ ¬TooDeep p file := by
  constructor
  · rintro ⟨result, examined, hrun, hhonest⟩
    obtain ⟨w, hwalk, hresult⟩ := bind_eq_ok.mp hrun
    obtain ⟨done, rest, rfl, hexamined, -, hok, hrooms⟩ := exists_of_walk hwalk
    -- The files are counted before the loop, so all of them were examined.
    obtain rfl : rest = [] := by
      obtain ⟨rfl, rfl⟩ := Prod.mk.inj (Except.ok.inj hresult)
      have hcounted := hhonest.counted
      rw [hexamined, List.length_append] at hcounted
      exact List.eq_nil_of_length_eq_zero (Nat.add_eq_left.mp hcounted)
    simp only [length_seen_after] at hrooms
    rw [List.append_nil] at hhonest hrun ⊢
    rw [inventory_eq_ok hok hrooms] at hrun
    obtain ⟨rfl, rfl⟩ := Prod.mk.inj (Except.ok.inj hrun)
    obtain ⟨hbounded, hnamed⟩ := honest_iff.mp hhonest
    refine ⟨⟨hbounded, rooms_iff.mp hrooms⟩, fun file hfile => ?_⟩
    obtain ⟨-, hnone⟩ | ⟨hdeep, -, hiff⟩ := detectInFile_cases p file
    · exact absurd (hok file hfile) hnone
    · exact ⟨hiff.mp (hnamed file hfile), hdeep⟩
  · rintro ⟨⟨hbounded, hroom⟩, hfiles⟩
    have hread : ∀ file ∈ files, (∃ found, detectInFile p file = .ok found) ∧
        ∀ c ∈ declared p file, IsNamed c := fun file hfile => by
      obtain ⟨hdeep, -⟩ | ⟨-, hok, hiff⟩ := detectInFile_cases p file
      · exact absurd hdeep (hfiles file hfile).2
      · exact ⟨hok, hiff.mpr (hfiles file hfile).1⟩
    exact ⟨_, _, inventory_eq_ok (fun file hfile => (hread file hfile).1) (rooms_iff.mpr hroom),
      honest_iff.mpr ⟨hbounded, fun file hfile => (hread file hfile).2⟩⟩

end Main

/-- An interpreter with the tables of ASCII. -/
def asciiReading : Reading where
  unicode := .ascii
  str _ := ""
  loads := Decoder.plain.loads

/-- The metadata of a package that was built without a version. -/
def unversioned : StagedFile where
  name := "METADATA"
  pathInTree := "app.whl → demo.dist-info/METADATA"
  size := some 28
  content := some (ascii "Name: demo\nVersion: UNKNOWN\n")

/-- **A component without a version**: `UNKNOWN` is cleaned away after it was found. -/
theorem unversioned_not_isHonest : ¬IsHonest asciiReading [unversioned] 50000 := by
  rintro ⟨result, examined, hrun, hhonest⟩
  have hversions : (inventory asciiReading [unversioned] 50000).map
      (fun run => run.1.components.map Component.version) = .ok [""] := by decide +kernel
  rw [hrun] at hversions
  obtain ⟨c, hc, hversion⟩ : ∃ c ∈ result.components, c.version = "" := by
    have hlist : result.components.map Component.version = [""] := Except.ok.inj hversions
    exact List.mem_map.mp (hlist ▸ List.mem_singleton_self "")
  exact (hhonest.named c hc).2 hversion

end BareAnalysis.Composition
