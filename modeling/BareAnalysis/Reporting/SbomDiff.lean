import BareAnalysis.Machinery.Fallible
import BareAnalysis.Machinery.Json
import BareAnalysis.Machinery.Sorting
import BareAnalysis.Machinery.Text
import Mathlib.Data.Finset.Basic
import Mathlib.Data.Finset.Lattice.Lemmas

/-!
# Reporting/SbomDiff — what changed between two builds, as told by their SBOMs

    document ──_groups──▸ identity ↦ (name, versions, licences)
    two of them ──diff_sboms──▸ added | removed | version changed | licence changed | unchanged

Components are matched by identity, not by version: the purl up to its version.
-/

namespace BareAnalysis.SbomDiff

/-- What happened to one component. -/
structure ComponentChange where
  /-- Package identity: the purl without version, or `name:<name>`. -/
  key : String
  name : String
  before : List String := []
  after : List String := []
  deriving DecidableEq, Repr

/-- `SbomDiff`. -/
structure Diff where
  beforeLabel : String
  afterLabel : String
  added : List ComponentChange := []
  removed : List ComponentChange := []
  versionChanged : List ComponentChange := []
  licenceChanged : List ComponentChange := []
  unchanged : ℕ := 0
  /-- Labels of documents built from a truncated walk. -/
  incomplete : List String := []
  deriving DecidableEq, Repr

/-- `_Group`: the components of one identity. -/
structure Versions where
  name : String
  versions : Finset String := ∅
  licences : Finset String := ∅
  deriving DecidableEq

/-- `text.strip()`. -/
def stripped (text : String) : String := String.ofList (strip isSpace text.toList)

section Documents

variable (printable : Char → Bool)

/-- The identity a purl stands for, and the version at its end. -/
def purlIdentity (purl : List Char) (version : String) : String × String :=
  let base := (partition '?' (partition '#' purl).1).1
  let (head, tail) := rpartition '/' base
  let joined (tail : List Char) : String :=
    String.ofList (match head with
      | some (c :: head) => c :: head ++ '/' :: tail
      | _ => tail)
  match partition '@' tail with
  | (tail, some purlVersion) =>
    (joined tail, if version ≠ "" then version else String.ofList purlVersion)
  | (tail, none) => (joined tail, version)

/-- `identity`: the key and the version of one component. -/
def identity (component : Json) : Except PyError (String × String) := do
  let name := stripped ((← component.getD "name" (.str "")).text printable)
  let version := stripped (((← component.getOrNull "version").orElse (.str "")).text printable)
  let unnamed : Except PyError (String × String) := do
    let group := stripped ((← component.getD "group" (.str "")).text printable)
    if name = "" then throw (.valueError "a component has neither a purl nor a name")
    return (if group ≠ "" then "name:" ++ group ++ "/" ++ name else "name:" ++ name, version)
  match ← component.getOrNull "purl" with
  | .str purl =>
    if "pkg:".toList <+: purl.toList then return purlIdentity purl.toList version else unnamed
  | _ => unnamed

/-- `value.strip()` of a text, nothing of anything else. -/
def strippedText : Json → Option String
  | .str s => some (stripped s)
  | _ => none

/-- The licences one entry of `licenses` names. -/
def entryLicences (entry : Json) : Except PyError (List String) :=
  match entry with
  | .obj fields => do
    let expression := ((Dict.get? fields "expression").bind strippedText).toList
    match Dict.get? fields "license" with
    | some (.obj licence) =>
      let value := ((Dict.get? licence "id").getD .null).orElse
        ((Dict.get? licence "name").getD .null)
      return expression ++ (strippedText value).toList
    | _ => return expression
  | _ => return []

/-- `_licences`. -/
def licencesOf (component : Json) : Except PyError (Finset String) := do
  let entries ← ((← component.getOrNull "licenses").orElse (.arr [])).iter
  return ((← entries.mapM entryLicences).flatten).toFinset

/-- What the loop of `_groups` reads of one component. -/
structure Reading where
  key : String
  /-- The name a group starts with. -/
  name : String
  version : String
  licences : Finset String

/-- One component read, with its place in the document. -/
def readComponent (which : String) (item : Json × ℕ) : Except PyError Reading := do
  let (component, index) := item
  let .obj _ := component
    | throw (.valueError ("the " ++ which ++ " document's components[" ++ toString index
        ++ "] is not an object"))
  let (key, version) ← identity printable component
  let name := (← component.getD "name" (.str "")).text printable
  return ⟨key, if name ≠ "" then name else key, version, ← licencesOf component⟩

/-- `groups.setdefault(…)`, and what the component adds to its group. -/
def addReading (groups : Dict String Versions) (r : Reading) : Dict String Versions :=
  let group := (groups.get? r.key).getD { name := r.name }
  groups ++ [(r.key, { group with
    versions := insert r.version group.versions, licences := group.licences ∪ r.licences })]

/-- `_groups`; no component is read with an eye to the groups, so all are read first. -/
def groupsOf (document : Json) (which : String) : Except PyError (Dict String Versions) := do
  let notSbom : PyError := .valueError ("the " ++ which ++ " document is not a CycloneDX SBOM")
  let .obj fields := document | throw notSbom
  if !((Dict.get? fields "bomFormat").getD .null).isText "CycloneDX" then throw notSbom
  let components ← match (Dict.get? fields "components").getD (.arr []) with
    | .null => pure []
    | .arr items => pure items
    | _ => throw (.valueError ("the " ++ which ++ " document's 'components' is not a list"))
  return (← components.zipIdx.mapM (readComponent printable which)).foldl addReading []

/-- `_metadata_component`. -/
def metadataOf (document : Json) : Except PyError Json := do
  match ← document.getOrNull "metadata" with
  | .obj metadata =>
    match Dict.get? metadata "component" with
    | some (.obj component) => return .obj component
    | _ => return .obj []
  | _ => return .obj []

/-- `_property`. -/
def propertyOf (document : Json) (name : String) : Except PyError (Option String) := do
  let properties ← ((← (← metadataOf document).getOrNull "properties").orElse (.arr [])).iter
  let found := properties.find? fun prop =>
    match prop with
    | .obj fields => ((Dict.get? fields "name").getD .null).isText name
    | _ => false
  match found with
  | some prop => return some ((← prop.getD "value" (.str "")).text printable)
  | none => return none

/-- `_inventory_complete`: only an explicit "false" is evidence of a truncated walk. -/
def inventoryComplete (document : Json) : Except PyError Bool :=
  return (← propertyOf printable document "bare:inventory_complete") != some "false"

/-- `_label`. -/
def labelOf (document : Json) (fallback : String) : Except PyError String := do
  let name := stripped ((← (← metadataOf document).getD "name" (.str "")).text printable)
  let run := (← propertyOf printable document "bare:run").getD ""
  return if name ≠ "" ∧ run ≠ "" then name ++ " (run " ++ run ++ ")"
    else if name ≠ "" then name
    else if run ≠ "" then "run " ++ run else fallback

/-- `before_label or _label(before, "before")`. -/
def labelOr (label : String) (document : Json) (fallback : String) : Except PyError String :=
  if label ≠ "" then .ok label else labelOf printable document fallback

/-- The labels of documents built from a truncated walk. -/
def incompleteLabels (labels : List (String × Json)) : Except PyError (List String) := do
  let marked ← labels.mapM fun labelled => do
    return (labelled.1, ← inventoryComplete printable labelled.2)
  return (marked.filter fun labelled => !labelled.2).map Prod.fst

end Documents

/-! ## The comparison -/

/-- One identity compared. -/
def compareKey (old new : Dict String Versions) (diff : Diff) (key : String) : Diff :=
  match old.get? key, new.get? key with
  | none, some b =>
    { diff with added := diff.added ++ [⟨key, b.name, [], sortedSet b.versions⟩] }
  | some a, none =>
    { diff with removed := diff.removed ++ [⟨key, a.name, sortedSet a.versions, []⟩] }
  | some a, some b =>
    { diff with
      versionChanged := diff.versionChanged ++
        if a.versions ≠ b.versions then
          [⟨key, b.name, sortedSet a.versions, sortedSet b.versions⟩] else []
      licenceChanged := diff.licenceChanged ++
        if a.licences ≠ b.licences then
          [⟨key, b.name, sortedSet a.licences, sortedSet b.licences⟩] else []
      unchanged := diff.unchanged +
        if a.versions = b.versions ∧ a.licences = b.licences then 1 else 0 }
  -- no key is in neither
  | none, none => diff

/-- The identities of a document. -/
def keysOf (groups : Dict String Versions) : Finset String := (groups.map Prod.fst).toFinset

/-- The loop of `diff_sboms` over the identities of either document. -/
def compareGroups (old new : Dict String Versions) (diff : Diff) : Diff :=
  (sortedSet (keysOf old ∪ keysOf new)).foldl (compareKey old new) diff

/-- `diff_sboms`. -/
def diffSboms (printable : Char → Bool) (before after : Json) (beforeLabel afterLabel : String) :
    Except PyError Diff := do
  let old ← groupsOf printable before "before"
  let new ← groupsOf printable after "after"
  let beforeLabel ← labelOr printable beforeLabel before "before"
  let afterLabel ← labelOr printable afterLabel after "after"
  let incomplete ← incompleteLabels printable [(beforeLabel, before), (afterLabel, after)]
  return compareGroups old new
    { beforeLabel := beforeLabel, afterLabel := afterLabel, incomplete := incomplete }

/-! ## Groups -/

section Groups

variable {rs : List Reading} {key : String}

/-- One more reading changes the group of its key. -/
theorem get?_addReading (groups : Dict String Versions) (r : Reading) (key : String) :
    (addReading groups r).get? key = if r.key = key then
      some { (groups.get? key).getD { name := r.name } with
        versions := insert r.version ((groups.get? key).getD { name := r.name }).versions,
        licences := ((groups.get? key).getD { name := r.name }).licences ∪ r.licences }
    else groups.get? key := by
  rw [addReading, Dict.get?_concat]
  split
  · subst key
    rfl
  · rfl

/-- **There is a group for every key that was read**… -/
theorem get?_groups_eq_none :
    (rs.foldl addReading []).get? key = none ↔ ∀ r ∈ rs, r.key ≠ key := by
  induction rs using List.reverseRecOn with
  | nil => simp
  | append_singleton rs r ih =>
    rw [List.foldl_append, List.foldl_cons, List.foldl_nil, get?_addReading]
    by_cases hkey : r.key = key
    · rw [if_pos hkey]
      refine ⟨fun h => ?_, fun h => absurd hkey (h r (by simp))⟩
      cases h
    · rw [if_neg hkey, ih, List.forall_mem_append]
      exact ⟨fun h => ⟨h, by simpa using hkey⟩, fun h => h.1⟩

/-- …and it has the versions read with that key. -/
theorem versions_of_get?_groups {g : Versions} (h : (rs.foldl addReading []).get? key = some g) :
    g.versions = ((rs.filter fun r => r.key = key).map Reading.version).toFinset := by
  induction rs using List.reverseRecOn generalizing g with
  | nil => cases h
  | append_singleton rs r ih =>
    rw [List.foldl_append, List.foldl_cons, List.foldl_nil, get?_addReading] at h
    rw [List.filter_append, List.map_append, List.toFinset_append]
    by_cases hkey : r.key = key
    · rw [if_pos hkey] at h
      obtain rfl := Option.some.inj h
      rw [List.filter_cons_of_pos (by simpa using hkey)]
      cases hg : (rs.foldl addReading []).get? key with
      | none =>
        have hfilter : (rs.filter fun r => r.key = key) = [] :=
          List.filter_eq_nil_iff.mpr fun r hr => by simpa using get?_groups_eq_none.mp hg r hr
        simp [hfilter]
      | some g => simp [ih hg, Finset.union_comm]
    · rw [if_neg hkey] at h
      rw [List.filter_cons_of_neg (by simpa using hkey), ih h]
      simp

theorem mem_keysOf_groups : key ∈ keysOf (rs.foldl addReading []) ↔ ∃ r ∈ rs, r.key = key := by
  induction rs using List.reverseRecOn with
  | nil => simp [keysOf]
  | append_singleton rs r ih =>
    rw [keysOf, List.mem_toFinset] at ih ⊢
    rw [List.foldl_append, List.foldl_cons, List.foldl_nil, addReading, List.map_append,
      List.mem_append, ih]
    simp [or_and_right, exists_or, eq_comm]

end Groups

/-! ## Changes -/

section Changes

variable (old new : Dict String Versions)

/-- What the comparison of one identity adds. -/
def addedAt (key : String) : Option ComponentChange :=
  match old.get? key, new.get? key with
  | none, some b => some ⟨key, b.name, [], sortedSet b.versions⟩
  | _, _ => none

/-- …what it removes… -/
def removedAt (key : String) : Option ComponentChange :=
  match old.get? key, new.get? key with
  | some a, none => some ⟨key, a.name, sortedSet a.versions, []⟩
  | _, _ => none

/-- …a change of versions… -/
def versionChangedAt (key : String) : Option ComponentChange :=
  match old.get? key, new.get? key with
  | some a, some b =>
    if a.versions ≠ b.versions then some ⟨key, b.name, sortedSet a.versions, sortedSet b.versions⟩
    else none
  | _, _ => none

/-- …a change of licences… -/
def licenceChangedAt (key : String) : Option ComponentChange :=
  match old.get? key, new.get? key with
  | some a, some b =>
    if a.licences ≠ b.licences then some ⟨key, b.name, sortedSet a.licences, sortedSet b.licences⟩
    else none
  | _, _ => none

/-- …or neither. -/
def unchangedAt (key : String) : Bool :=
  match old.get? key, new.get? key with
  | some a, some b => decide (a.versions = b.versions ∧ a.licences = b.licences)
  | _, _ => false

theorem compareKey_eq (diff : Diff) (key : String) :
    compareKey old new diff key = { diff with
      added := diff.added ++ (addedAt old new key).toList
      removed := diff.removed ++ (removedAt old new key).toList
      versionChanged := diff.versionChanged ++ (versionChangedAt old new key).toList
      licenceChanged := diff.licenceChanged ++ (licenceChangedAt old new key).toList
      unchanged := diff.unchanged + if unchangedAt old new key then 1 else 0 } := by
  rw [compareKey, addedAt, removedAt, versionChangedAt, licenceChangedAt, unchangedAt]
  rcases old.get? key with - | a <;> rcases new.get? key with - | b
  · simp
  · simp
  · simp
  · by_cases hv : a.versions = b.versions <;> by_cases hl : a.licences = b.licences <;>
      simp [hv, hl]

/-- **The comparison lists what each identity contributes, in order.** -/
theorem foldl_compareKey (keys : List String) (diff : Diff) :
    keys.foldl (compareKey old new) diff = { diff with
      added := diff.added ++ keys.filterMap (addedAt old new)
      removed := diff.removed ++ keys.filterMap (removedAt old new)
      versionChanged := diff.versionChanged ++ keys.filterMap (versionChangedAt old new)
      licenceChanged := diff.licenceChanged ++ keys.filterMap (licenceChangedAt old new)
      unchanged := diff.unchanged + keys.countP (unchangedAt old new) } := by
  induction keys generalizing diff with
  | nil => simp
  | cons key keys ih =>
    have hfilter : ∀ f : String → Option ComponentChange,
        (key :: keys).filterMap f = (f key).toList ++ keys.filterMap f := fun f => by
      rw [List.filterMap_cons]
      cases f key <;> rfl
    have hcount : (key :: keys).countP (unchangedAt old new)
        = (if unchangedAt old new key then 1 else 0) + keys.countP (unchangedAt old new) := by
      rw [List.countP_cons, Nat.add_comm]
    rw [List.foldl_cons, ih, compareKey_eq]
    simp only [hfilter, hcount, List.append_assoc, Nat.add_assoc]

variable {old new} {diff : Diff} {change : ComponentChange}

/-- A component in both documents with other versions is listed under the version changes… -/
theorem mem_versionChanged {key : String} {a b : Versions} (ha : old.get? key = some a)
    (hb : new.get? key = some b) (hkey : key ∈ keysOf old) (hne : a.versions ≠ b.versions) :
    ⟨key, b.name, sortedSet a.versions, sortedSet b.versions⟩
      ∈ (compareGroups old new diff).versionChanged := by
  rw [compareGroups, foldl_compareKey]
  refine List.mem_append_right _ (List.mem_filterMap.mpr ⟨key, ?_, ?_⟩)
  · exact mem_sortedSet.mpr (Finset.mem_union_left _ hkey)
  · simp only [versionChangedAt, ha, hb]
    exact if_pos hne

/-- …what is added was in no component of the old document… -/
theorem get?_of_mem_added (hdiff : diff.added = [])
    (h : change ∈ (compareGroups old new diff).added) : old.get? change.key = none := by
  rw [compareGroups, foldl_compareKey, hdiff, List.nil_append] at h
  obtain ⟨key, -, hkey⟩ := List.mem_filterMap.mp h
  rw [addedAt] at hkey
  split at hkey
  · obtain rfl := Option.some.inj hkey
    assumption
  · cases hkey

/-- …and what is removed is in no component of the new one. -/
theorem get?_of_mem_removed (hdiff : diff.removed = [])
    (h : change ∈ (compareGroups old new diff).removed) : new.get? change.key = none := by
  rw [compareGroups, foldl_compareKey, hdiff, List.nil_append] at h
  obtain ⟨key, -, hkey⟩ := List.mem_filterMap.mp h
  rw [removedAt] at hkey
  split at hkey
  · obtain rfl := Option.some.inj hkey
    assumption
  · cases hkey

end Changes

end BareAnalysis.SbomDiff
