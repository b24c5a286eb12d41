import BareAnalysis.Reporting.Cyclonedx
import BareAnalysis.Reporting.SbomDiff
import Mathlib.Data.List.TakeWhile

/-!
# Reporting/Upgrades — what the SBOM differ reads in what the exporter wrote

    component ──entry──▸ pkg:type/name@version ──identity──▸ (pkg:type/name, version)

The differ cuts a purl at its last slash, and the exporter leaves the slashes of a version as they
are.
-/

namespace BareAnalysis.SbomDiff

open BareAnalysis.Composition BareAnalysis.Cyclonedx

variable (printable : Char → Bool)

/-! ## Blanks -/

theorem isSpace_percent : isSpace '%' = false := by decide

/-- Blanks are quoted in a purl. -/
theorem purlSafe_of_isSpace {c : Char} (h : isSpace c = true) : purlSafe c = false := by
  have hcodes : ∀ n ∈ List.range' 9 5 ++ List.range' 28 5 ++ List.range' 0x2000 11 ++
      [0x85, 0xa0, 0x1680, 0x2028, 0x2029, 0x202f, 0x205f, 0x3000],
      purlSafe (Char.ofNat n) = false := by decide +kernel
  rw [← Char.ofNat_toNat c]
  refine hcodes c.toNat ?_
  simp only [isSpace, List.contains_iff_mem, List.mem_cons, List.not_mem_nil, or_false,
    Bool.or_eq_true, decide_eq_true_eq] at h
  simp only [List.mem_append, List.mem_range'_1, List.mem_cons, List.not_mem_nil, or_false]
  omega

/-- Only a text of blanks strips to nothing. -/
theorem isSpace_of_stripped_eq_empty {text : String} (h : stripped text = "") :
    ∀ c ∈ text.toList, isSpace c = true := by
  have hnil : strip isSpace text.toList = [] := by
    rw [← String.toList_ofList (l := strip isSpace text.toList)]
    exact congrArg String.toList h
  rw [strip, List.reverse_eq_nil_iff, List.dropWhile_eq_nil_iff] at hnil
  have hdrop : text.toList.dropWhile isSpace = [] := by
    by_contra hne
    obtain ⟨c, rest, heq⟩ := List.exists_cons_of_ne_nil hne
    have hc : isSpace c = true := hnil c (by simp [heq])
    have hhead := List.head_dropWhile_not isSpace hne
    simp [heq, hc] at hhead
  exact List.dropWhile_eq_nil_iff.mp hdrop

/-! ## What is read of an entry -/

section Entry

variable (c : Composition.Component)

/-- The identity the differ gives a component. -/
def identityKey : String :=
  String.ofList (c.purlBase ++ if '/' ∈ c.version.toList then '@' :: purlQuote c.version.toList
    else [])

/-- …and the version it reads. -/
def readVersion : String :=
  if stripped c.version ≠ "" ∨ '/' ∈ c.version.toList then stripped c.version
  else String.ofList (purlQuote c.version.toList)

variable {c}

/-- What stands in a purl besides its separators is safe. -/
theorem not_mem_purl {sep : Char} (hsep : sep ∉ "pkg:/@%".toList) (hquoted : purlSafe sep = false)
    (heco : sep ∉ c.ecosystem.value.toList) : sep ∉ c.purl.toList := by
  have hquote : ∀ s, sep ∉ purlQuote s := fun s =>
    not_mem_purlQuote hquoted fun h => hsep (h ▸ by decide)
  rw [Composition.Component.toList_purl, Composition.Component.purlBase, Composition.Component.purlBack]
  intro h
  have hp : sep ∉ "pkg:".toList := fun h' => hsep (List.mem_append_left "/@%".toList h')
  have hslash : sep ≠ '/' := fun h' => hsep (h' ▸ by decide)
  have hat : sep ≠ '@' := fun h' => hsep (h' ▸ by decide)
  split at h <;> simp_all

/-- **A purl comes apart at its last slash**: in the version, if there is one in it. -/
theorem purlIdentity_purl (version : String) :
    purlIdentity c.purl.toList version = (identityKey c,
      if version ≠ "" ∨ '/' ∈ c.version.toList then version
      else String.ofList (purlQuote c.version.toList)) := by
  have hhash : '#' ∉ c.purl.toList :=
    not_mem_purl (by decide) (by decide) (by cases c.ecosystem <;> decide)
  have hquery : '?' ∉ c.purl.toList :=
    not_mem_purl (by decide) (by decide) (by cases c.ecosystem <;> decide)
  rw [purlIdentity, partition_of_not_mem hhash, partition_of_not_mem hquery, Composition.Component.toList_purl,
    identityKey]
  by_cases hslash : '/' ∈ c.version.toList
  · obtain ⟨front, rest, hversion, hrest⟩ := eq_append_cons_of_mem_last hslash
    have hne : c.version ≠ "" := fun h => by simp [h] at hslash
    have hat : '@' ∉ purlQuote rest := not_mem_purlQuote (by decide) (by decide)
    have hcut : c.purlBase ++ c.purlBack
        = (c.purlBase ++ '@' :: purlQuote front) ++ '/' :: purlQuote rest := by
      rw [Composition.Component.purlBack, if_neg hne, hversion, purlQuote_append_slash]
      simp
    rw [hcut, rpartition_append_cons _ (mt slash_mem_purlQuote.mp hrest)]
    simp only [partition_of_not_mem hat, hslash, if_true, or_true]
    rw [hversion, purlQuote_append_slash]
    simp [Composition.Component.purlBase]
  · have hmem : '/' ∈ c.purlBase := by simp [Composition.Component.purlBase]
    obtain ⟨front, last, hbase, hlast⟩ := eq_append_cons_of_mem_last hmem
    have hfront : ∃ d front', front = d :: front' := by
      cases front with
      | nil => simp [Composition.Component.purlBase] at hbase
      | cons d front => exact ⟨d, front, rfl⟩
    obtain ⟨d, front, rfl⟩ := hfront
    have hat : '@' ∉ last := fun h => c.at_not_mem_purlBase (hbase ▸ by simp [h])
    have hback : '/' ∉ last ++ c.purlBack := by
      rw [Composition.Component.purlBack]
      split
      · simpa using hlast
      · simpa [hlast] using mt slash_mem_purlQuote.mp hslash
    have hcut : c.purlBase ++ c.purlBack = (d :: front) ++ '/' :: (last ++ c.purlBack) := by
      simp [hbase]
    rw [hcut, rpartition_append_cons _ hback, hbase]
    simp only [hslash, if_false, List.append_nil, or_false]
    rw [Composition.Component.purlBack]
    by_cases hv : c.version = ""
    · have hempty : purlQuote c.version.toList = [] := by rw [hv]; rfl
      rw [if_pos hv, List.append_nil, partition_of_not_mem hat, hempty]
      by_cases hversion : version = "" <;> simp [hversion]
    · rw [if_neg hv, partition_append_cons _ hat]

/-- **What the differ reads in the entry of a component.** -/
theorem identity_entry : identity printable (entry c) = .ok (identityKey c, readVersion c) := by
  have hpkg : "pkg:".toList <+: c.purl.toList := by
    rw [Composition.Component.toList_purl, Composition.Component.purlBase, List.append_assoc, List.append_assoc]
    exact List.prefix_append _ _
  have hname : Dict.get? (entryFields c) "name" = some (.str c.name) := rfl
  have hversion : Dict.get? (entryFields c) "version" = some (.str c.version) := rfl
  have hpurl : Dict.get? (entryFields c) "purl" = some (.str c.purl) := rfl
  have hversionText : ((Json.str c.version).orElse (.str "")).text printable = c.version := by
    by_cases hv : c.version = "" <;> simp [Json.orElse, Json.truthy, Json.text, hv]
  simp only [identity, Json.getOrNull, Json.getD, get?_entry c (by decide : "name" ≠ "licenses"),
    get?_entry c (by decide : "version" ≠ "licenses"),
    get?_entry c (by decide : "purl" ≠ "licenses"), hname, hversion, hpurl, bind, Except.bind,
    pure, Except.pure, Option.getD_some, hversionText, if_pos hpkg, purlIdentity_purl, readVersion]

/-- **The version is read as it was written iff no blanks surround it.** -/
theorem readVersion_eq_iff : readVersion c = c.version ↔ stripped c.version = c.version := by
  rw [readVersion]
  by_cases hempty : stripped c.version = ""
  · by_cases hslash : '/' ∈ c.version.toList
    · rw [if_pos (Or.inr hslash)]
    · rw [if_neg (not_or.mpr ⟨not_not.mpr hempty, hslash⟩), hempty]
      have hblank := isSpace_of_stripped_eq_empty hempty
      rw [eq_comm (a := ""), ← String.toList_inj, String.toList_ofList, ← String.toList_eq_nil_iff]
      cases hv : c.version.toList with
      | nil => simp [purlQuote]
      | cons d rest =>
        have hd : isSpace d = true := hblank d (by simp [hv])
        rw [purlQuote, percentQuote_cons_quoted (purlSafe_of_isSpace hd)]
        refine ⟨fun h => ?_, fun h => ?_⟩
        · rw [← (List.cons.inj h).1, isSpace_percent] at hd
          cases hd
        · cases h
  · rw [if_pos (Or.inl hempty)]

/-- **Two components have one identity** iff their names are written alike and no version has a
slash, or the versions are written alike, too. -/
theorem identityKey_inj {d : Composition.Component} :
    identityKey c = identityKey d ↔ c.ecosystem = d.ecosystem ∧
      PurlAlike c.spelledName d.spelledName ∧
      (('/' ∉ c.version.toList ∧ '/' ∉ d.version.toList) ∨
        PurlAlike c.version.toList d.version.toList) := by
  have hslash : PurlAlike c.version.toList d.version.toList →
      ('/' ∈ c.version.toList ↔ '/' ∈ d.version.toList) := fun h => by
    rw [← slash_mem_purlQuote, purlQuote_eq_iff.mpr h, slash_mem_purlQuote]
  rw [identityKey, identityKey, String.ofList_inj, ← and_assoc,
    ← Composition.Component.purlBase_inj]
  by_cases hc : '/' ∈ c.version.toList <;> by_cases hd : '/' ∈ d.version.toList
  · rw [if_pos hc, if_pos hd, ← purlQuote_eq_iff]
    constructor
    · intro h
      have hparts := congrArg (partition '@') h
      rw [partition_append_cons _ c.at_not_mem_purlBase,
        partition_append_cons _ d.at_not_mem_purlBase] at hparts
      obtain ⟨hbase, hversion⟩ := Prod.mk.inj hparts
      exact ⟨hbase, Or.inr (Option.some.inj hversion)⟩
    · rintro ⟨hbase, ⟨hnot, -⟩ | hversion⟩
      · exact absurd hc hnot
      · rw [hbase, hversion]
  · rw [if_pos hc, if_neg hd, List.append_nil]
    refine ⟨fun h => absurd ?_ d.at_not_mem_purlBase, ?_⟩
    · rw [← h]
      simp
    · rintro ⟨-, ⟨hnot, -⟩ | halike⟩
      · exact absurd hc hnot
      · exact absurd ((hslash halike).mp hc) hd
  · rw [if_neg hc, if_pos hd, List.append_nil]
    refine ⟨fun h => absurd ?_ c.at_not_mem_purlBase, ?_⟩
    · rw [h]
      simp
    · rintro ⟨-, ⟨-, hnot⟩ | halike⟩
      · exact absurd hd hnot
      · exact absurd ((hslash halike).mpr hd) hc
  · simp [hc, hd]

variable (c) in
/-- The licences the differ reads. -/
def readLicences : Finset String := if c.licence ≠ "" then {stripped c.licence} else ∅

theorem licencesOf_entry : licencesOf (entry c) = .ok (readLicences c) := by
  rw [licencesOf, readLicences, entry, Json.getOrNull, Json.getD]
  by_cases hl : c.licence = ""
  · rw [if_neg (not_not.mpr hl), if_neg (not_not.mpr hl), List.append_nil]
    rfl
  · rw [if_pos hl, if_pos hl, Json.get?_obj, Dict.get?_concat, if_pos rfl]
    rfl

variable (c) in
/-- Everything it reads. -/
def readEntry : Reading where
  key := identityKey c
  name := if c.name ≠ "" then c.name else identityKey c
  version := readVersion c
  licences := readLicences c

theorem readComponent_entry (which : String) (i : ℕ) :
    readComponent printable which (entry c, i) = .ok (readEntry c) := by
  have hname : Dict.get? (entryFields c) "name" = some (.str c.name) := rfl
  have hget : (entry c).getD "name" (.str "") = .ok (.str c.name) := by
    rw [Json.getD, get?_entry c (by decide), hname]
    rfl
  obtain ⟨fields, hfields⟩ : ∃ fields, entry c = .obj fields := ⟨_, rfl⟩
  have hidentity := @identity_entry printable c
  have hlicences := @licencesOf_entry c
  rw [hfields] at hget hidentity hlicences ⊢
  simp only [readComponent, hidentity, hget, hlicences, bind, Except.bind, pure, Except.pure,
    Json.text, readEntry]
  rfl

end Entry

/-! ## Two exported documents compared -/

section Documents

variable (inventory : ComponentInventory) (subject : SbomSubject)

theorem mapM_readComponent (which : String) (components : List Composition.Component) (i : ℕ) :
    ((components.map entry).zipIdx i).mapM (readComponent printable which)
      = .ok (components.map readEntry) := by
  induction components generalizing i with
  | nil => rfl
  | cons c components ih =>
    rw [List.map_cons, List.zipIdx_cons, List.mapM_cons, readComponent_entry, ih]
    rfl

/-- The groups of an exported document. -/
theorem groupsOf_buildSbom (which : String) :
    groupsOf printable (buildSbom inventory subject) which
      = .ok ((inventory.components.map readEntry).foldl addReading []) := by
  have hread := mapM_readComponent printable which inventory.components 0
  show ((((inventory.components.map entry).zipIdx).mapM (readComponent printable which)) >>= _) = _
  rw [hread]
  rfl

/-- An exported document has a label… -/
theorem exists_labelOr (label fallback : String) :
    ∃ l, labelOr printable label (buildSbom inventory subject) fallback = .ok l := by
  by_cases h : label = ""
  · exact ⟨_, if_neg (not_not.mpr h)⟩
  · exact ⟨label, if_pos h⟩

/-- …and says whether its inventory is complete. -/
theorem inventoryComplete_buildSbom :
    inventoryComplete printable (buildSbom inventory subject) = .ok (!inventory.truncated) := by
  obtain ⟨components, filesExamined, truncated⟩ := inventory
  cases truncated <;> rfl

variable (before after : ComponentInventory) (subject subject' : SbomSubject)
  (label label' : String)

/-- **Two exported documents are compared by the groups of their components.** -/
theorem diffSboms_buildSbom :
    ∃ diff, diffSboms printable (buildSbom before subject) (buildSbom after subject') label label'
      = .ok (compareGroups ((before.components.map readEntry).foldl addReading [])
        ((after.components.map readEntry).foldl addReading []) diff) ∧
      diff.added = [] ∧ diff.removed = [] ∧ diff.versionChanged = [] := by
  obtain ⟨l, hl⟩ := exists_labelOr printable before subject label "before"
  obtain ⟨l', hl'⟩ := exists_labelOr printable after subject' label' "after"
  rw [diffSboms, groupsOf_buildSbom, groupsOf_buildSbom]
  simp only [bind, Except.bind, hl, hl', incompleteLabels, List.mapM_cons, List.mapM_nil,
    inventoryComplete_buildSbom, pure, Except.pure]
  exact ⟨_, rfl, rfl, rfl, rfl⟩

variable {before}

/-- The versions in the group of a key. -/
theorem versions_of_group {key : String} {g : Versions}
    (h : ((before.components.map readEntry).foldl addReading []).get? key = some g) :
    g.versions
      = ((before.components.filter fun c => identityKey c = key).map readVersion).toFinset := by
  rw [versions_of_get?_groups h, List.filter_map, List.map_map]
  have hversion : Reading.version ∘ readEntry = readVersion := by
    funext c
    rw [Function.comp_apply, readEntry]
  have hkey : ((fun r => decide (r.key = key)) ∘ readEntry)
      = fun c => decide (identityKey c = key) := by
    funext c
    rw [Function.comp_apply, readEntry]
  rw [hversion, hkey]

theorem get?_group_ne_none {c : Composition.Component} (hc : c ∈ before.components) :
    ((before.components.map readEntry).foldl addReading []).get? (identityKey c) ≠ none :=
  fun h => get?_groups_eq_none.mp h (readEntry c) (List.mem_map_of_mem hc) rfl

end Documents

/-! ## Understanding -/

/-- The versions of one library in an inventory. -/
def versionsOf (inventory : ComponentInventory) (ecosystem : Ecosystem) (name : String) :
    Finset String :=
  ((inventory.components.filter fun c => c.ecosystem = ecosystem ∧ c.name = name).map
    Composition.Component.version).toFinset

/-- The references of a document to its components. -/
def bomRefs (document : Json) : Except PyError (List Json) := do
  (← (← document.index "components").iter).mapM fun component => component.index "bom-ref"

/-- The differ understands two documents of the exporter. -/
structure Understands (before after : ComponentInventory) (subject subject' : SbomSubject)
    (label label' : String) : Prop where
  purl_iff : ∀ c ∈ before.components ++ after.components,
    ∀ d ∈ before.components ++ after.components, c.purl = d.purl ↔ c.key = d.key
  refs : ∀ document ∈ [(before, subject), (after, subject')],
    (document.1.components.map Composition.Component.key).Nodup →
      ∃ refs, bomRefs (buildSbom document.1 document.2) = .ok refs ∧ refs.Nodup
  identity_iff : ∀ c ∈ before.components ++ after.components,
    ∀ d ∈ before.components ++ after.components, ∃ k v k' v',
      identity printable (entry c) = .ok (k, v) ∧ identity printable (entry d) = .ok (k', v') ∧
        (k = k' ↔ c.ecosystem = d.ecosystem ∧ c.name = d.name)
  version : ∀ c ∈ before.components ++ after.components,
    ∃ k, identity printable (entry c) = .ok (k, c.version)
  /-- A library in both documents, with other versions, has changed its versions. -/
  upgrades : ∃ diff, diffSboms printable (buildSbom before subject) (buildSbom after subject')
      label label' = .ok diff ∧
    ∀ c ∈ before.components, ∀ d ∈ after.components, c.ecosystem = d.ecosystem → c.name = d.name →
      versionsOf before c.ecosystem c.name ≠ versionsOf after c.ecosystem c.name →
        (∃ change ∈ diff.versionChanged, (∃ v, identity printable (entry c) = .ok (change.key, v)) ∧
          change.before = sortedSet (versionsOf before c.ecosystem c.name) ∧
          change.after = sortedSet (versionsOf after c.ecosystem c.name)) ∧
        ∀ change ∈ diff.added ++ diff.removed, ∀ v, identity printable (entry c) ≠ .ok (change.key, v)
          ∧ identity printable (entry d) ≠ .ok (change.key, v)

/-- Components that purls tell apart. -/
structure ToldApart (components : List Composition.Component) : Prop where
  /-- No version starts or ends with a blank. -/
  trimmed : ∀ c ∈ components, stripped c.version = c.version
  /-- Names written alike are the same, if the versions have no slash or are written alike… -/
  name : ∀ c ∈ components, ∀ d ∈ components, c.ecosystem = d.ecosystem →
    PurlAlike c.spelledName d.spelledName →
      (('/' ∉ c.version.toList ∧ '/' ∉ d.version.toList) ∨
        PurlAlike c.version.toList d.version.toList) → c.name = d.name
  /-- …two versions of a library have no slash… -/
  slash : ∀ c ∈ components, ∀ d ∈ components, c.ecosystem = d.ecosystem → c.name = d.name →
    ('/' ∉ c.version.toList ∧ '/' ∉ d.version.toList) ∨ c.version = d.version
  /-- …and are not written alike. -/
  version : ∀ c ∈ components, ∀ d ∈ components, c.ecosystem = d.ecosystem → c.name = d.name →
    PurlAlike c.version.toList d.version.toList → c.version = d.version

variable {printable}

theorem purlAlike_refl (s : List Char) : PurlAlike s s := purlQuote_eq_iff.mp rfl

theorem spelledName_congr {c d : Composition.Component} (heco : c.ecosystem = d.ecosystem)
    (hname : c.name = d.name) : c.spelledName = d.spelledName := by
  rw [Composition.Component.spelledName, Composition.Component.spelledName, heco, hname]

namespace ToldApart

variable {components : List Composition.Component} (h : ToldApart components)

include h

theorem identityKey_iff {c d : Composition.Component} (hc : c ∈ components)
    (hd : d ∈ components) :
    identityKey c = identityKey d ↔ c.ecosystem = d.ecosystem ∧ c.name = d.name := by
  rw [identityKey_inj]
  constructor
  · rintro ⟨heco, halike, hversion⟩
    exact ⟨heco, h.name c hc d hd heco halike hversion⟩
  · rintro ⟨heco, hname⟩
    refine ⟨heco, spelledName_congr heco hname ▸ purlAlike_refl _, ?_⟩
    obtain hslash | hversion := h.slash c hc d hd heco hname
    · exact Or.inl hslash
    · exact Or.inr (hversion ▸ purlAlike_refl _)

theorem purl_iff {c d : Composition.Component} (hc : c ∈ components) (hd : d ∈ components) :
    c.purl = d.purl ↔ c.key = d.key := by
  rw [Composition.Component.purl_inj, Composition.Component.key_inj]
  constructor
  · rintro ⟨heco, halike, hversion⟩
    have hname := h.name c hc d hd heco halike (Or.inr hversion)
    exact ⟨heco, hname, h.version c hc d hd heco hname hversion⟩
  · rintro ⟨heco, hname, hversion⟩
    exact ⟨heco, spelledName_congr heco hname ▸ purlAlike_refl _, hversion ▸ purlAlike_refl _⟩

/-- The group of a library has the versions of the library. -/
theorem versions_eq {inventory : ComponentInventory} {c : Composition.Component} {g : Versions}
    (hsub : ∀ d ∈ inventory.components, d ∈ components) (hc : c ∈ components)
    (hg : ((inventory.components.map readEntry).foldl addReading []).get? (identityKey c) = some g) :
    g.versions = versionsOf inventory c.ecosystem c.name := by
  rw [versions_of_group hg, versionsOf]
  refine congrArg List.toFinset ?_
  have hfilter : (inventory.components.filter fun d => identityKey d = identityKey c)
      = inventory.components.filter fun d => d.ecosystem = c.ecosystem ∧ d.name = c.name :=
    List.filter_congr fun d hd => by
      rw [decide_eq_decide]
      exact h.identityKey_iff (hsub d hd) hc
  rw [hfilter]
  refine List.map_congr_left fun d hd => ?_
  exact readVersion_eq_iff.mpr (h.trimmed d (hsub d (List.mem_of_mem_filter hd)))

end ToldApart

theorem index_entry (c : Composition.Component) :
    (entry c).index "bom-ref" = .ok (.str c.purl) := by
  have hget := get?_entry c (by decide : "bom-ref" ≠ "licenses")
  have href : Dict.get? (entryFields c) "bom-ref" = some (.str c.purl) := rfl
  obtain ⟨fields, hfields⟩ : ∃ fields, entry c = .obj fields := ⟨_, rfl⟩
  rw [hfields, Json.get?_obj, href] at hget
  rw [hfields, Json.index, Except.ok.inj hget]

theorem bomRefs_buildSbom (inventory : ComponentInventory) (subject : SbomSubject) :
    bomRefs (buildSbom inventory subject)
      = .ok (inventory.components.map fun c => .str c.purl) := by
  have hmap : (inventory.components.map entry).mapM (fun component => component.index "bom-ref")
      = .ok ((inventory.components.map entry).map fun component =>
        match component.index "bom-ref" with
        | .ok ref => ref
        | .error _ => .null) := mapM_eq_ok_of_forall fun component hcomponent => by
    obtain ⟨c, -, rfl⟩ := List.mem_map.mp hcomponent
    simp only [index_entry]
  show (inventory.components.map entry).mapM (fun component => component.index "bom-ref") = _
  rw [hmap, List.map_map]
  simp only [Function.comp_def, index_entry]

/-- **The differ understands two documents of the exporter iff purls tell their components apart.** -/
theorem understands_iff (before after : ComponentInventory) (subject subject' : SbomSubject)
    (label label' : String) :
    Understands printable before after subject subject' label label' ↔
      ToldApart (before.components ++ after.components) := by
  constructor
  · intro h
    have hkeys : ∀ c ∈ before.components ++ after.components,
        ∀ d ∈ before.components ++ after.components,
        (identityKey c = identityKey d ↔ c.ecosystem = d.ecosystem ∧ c.name = d.name) := by
      intro c hc d hd
      obtain ⟨k, v, k', v', hk, hk', hiff⟩ := h.identity_iff c hc d hd
      rw [identity_entry] at hk hk'
      obtain ⟨rfl, -⟩ := Prod.mk.inj (Except.ok.inj hk)
      obtain ⟨rfl, -⟩ := Prod.mk.inj (Except.ok.inj hk')
      exact hiff
    have hversion : ∀ c ∈ before.components ++ after.components,
        ∀ d ∈ before.components ++ after.components, c.ecosystem = d.ecosystem → c.name = d.name →
        PurlAlike c.version.toList d.version.toList → c.version = d.version := by
      intro c hc d hd heco hname halike
      have hpurl : c.purl = d.purl := Composition.Component.purl_inj.mpr
        ⟨heco, spelledName_congr heco hname ▸ purlAlike_refl _, halike⟩
      exact (Composition.Component.key_inj.mp ((h.purl_iff c hc d hd).mp hpurl)).2.2
    refine ⟨fun c hc => ?_, fun c hc d hd heco halike hslash => ?_, fun c hc d hd heco hname => ?_,
      hversion⟩
    · obtain ⟨k, hk⟩ := h.version c hc
      rw [identity_entry] at hk
      exact readVersion_eq_iff.mp (Prod.mk.inj (Except.ok.inj hk)).2
    · exact ((hkeys c hc d hd).mp (identityKey_inj.mpr ⟨heco, halike, hslash⟩)).2
    · obtain ⟨-, -, hslash | halike⟩ := identityKey_inj.mp ((hkeys c hc d hd).mpr ⟨heco, hname⟩)
      · exact Or.inl hslash
      · exact Or.inr (hversion c hc d hd heco hname halike)
  · intro h
    have hbefore : ∀ c ∈ before.components, c ∈ before.components ++ after.components :=
      fun c hc => List.mem_append_left _ hc
    have hafter : ∀ c ∈ after.components, c ∈ before.components ++ after.components :=
      fun c hc => List.mem_append_right _ hc
    refine ⟨fun c hc d hd => h.purl_iff hc hd, ?_, fun c hc d hd => ?_, fun c hc => ?_, ?_⟩
    · intro document hdocument hnodup
      refine ⟨_, bomRefs_buildSbom _ _, ?_⟩
      have hsub : ∀ c ∈ document.1.components, c ∈ before.components ++ after.components := by
        obtain rfl | hdocument := List.mem_cons.mp hdocument
        · exact hbefore
        · obtain rfl := List.mem_singleton.mp hdocument
          exact hafter
      refine (List.nodup_map_iff_inj_on hnodup.of_map).mpr fun c hc d hd href => ?_
      have hkey := (h.purl_iff (hsub c hc) (hsub d hd)).mp (Json.str.inj href)
      exact List.inj_on_of_nodup_map hnodup hc hd hkey
    · exact ⟨_, _, _, _, identity_entry printable, identity_entry printable,
        h.identityKey_iff hc hd⟩
    · exact ⟨identityKey c, by
        rw [identity_entry, readVersion_eq_iff.mpr (h.trimmed c hc)]⟩
    · obtain ⟨diff, hdiff, hadded, hremoved, hchanged⟩ :=
        diffSboms_buildSbom printable before after subject subject' label label'
      refine ⟨_, hdiff, fun c hc d hd heco hname hversions => ?_⟩
      have hkey : identityKey c = identityKey d :=
        (h.identityKey_iff (hbefore c hc) (hafter d hd)).mpr ⟨heco, hname⟩
      have hnew := get?_group_ne_none hd
      rw [← hkey] at hnew
      obtain ⟨a, ha⟩ := Option.ne_none_iff_exists'.mp (get?_group_ne_none hc)
      obtain ⟨b, hb⟩ := Option.ne_none_iff_exists'.mp hnew
      have hva := h.versions_eq hbefore (hbefore c hc) ha
      have hvb := h.versions_eq hafter (hbefore c hc) hb
      constructor
      · refine ⟨⟨identityKey c, b.name, sortedSet a.versions, sortedSet b.versions⟩,
          mem_versionChanged ha hb ?_ (by rwa [hva, hvb]), ⟨_, identity_entry printable⟩,
          by rw [hva], by rw [hvb]⟩
        exact mem_keysOf_groups.mpr ⟨readEntry c, List.mem_map_of_mem hc, rfl⟩
      · intro change hchange v
        have hne : change.key ≠ identityKey c := fun heq => by
          obtain hchange | hchange := List.mem_append.mp hchange
          · exact get?_group_ne_none hc (heq ▸ get?_of_mem_added hadded hchange)
          · exact hnew (heq ▸ get?_of_mem_removed hremoved hchange)
        refine ⟨fun hk => ?_, fun hk => ?_⟩
        · rw [identity_entry] at hk
          exact hne (Prod.mk.inj (Except.ok.inj hk)).1.symm
        · rw [identity_entry, ← hkey] at hk
          exact hne (Prod.mk.inj (Except.ok.inj hk)).1.symm

/-- Two releases with one Go module each, whose tags have a slash in them. -/
def taggedRelease (tag : String) : ComponentInventory where
  components := [⟨"example.org/lib", tag, .golang, .declared, "app", "", "Go buildinfo"⟩]

/-- **An upgrade shown as one component added and one removed.** -/
theorem upgrade_split : ¬Understands (fun _ => true) (taggedRelease "lib/v1") (taggedRelease "lib/v2")
    ⟨"run-1", "app", "", 0, "1.0"⟩ ⟨"run-2", "app", "", 0, "1.0"⟩ "" "" := by
  intro h
  obtain ⟨diff, hdiff, hupgrades⟩ := h.upgrades
  have hnone : (diffSboms (fun _ => true)
      (buildSbom (taggedRelease "lib/v1") ⟨"run-1", "app", "", 0, "1.0"⟩)
      (buildSbom (taggedRelease "lib/v2") ⟨"run-2", "app", "", 0, "1.0"⟩) "" "").toOption.map
        (fun diff => (diff.versionChanged, diff.added.map (·.key), diff.removed.map (·.key)))
      = some ([], ["pkg:golang/example.org/lib@lib/v2"], ["pkg:golang/example.org/lib@lib/v1"]) := by
    decide +kernel
  rw [hdiff] at hnone
  obtain ⟨change, hchange, -⟩ := (hupgrades _ (List.mem_singleton_self _) _
    (List.mem_singleton_self _) rfl rfl (by decide +kernel)).1
  rw [(Prod.mk.inj (Option.some.inj hnone)).1] at hchange
  cases hchange

end BareAnalysis.SbomDiff
