import BareAnalysis.Reporting.SbomDiff

/-!
# Reporting/DiffLaws — the SBOM diff as a comparison of sets

    components ──read──▸ (identity, version, licences)*  ──forget order, repetition──▸ sets
    two of them ──diff──▸ new \ old | old \ new | old ∩ new, by what the sets say

`accounts_compareGroups` reads the diff off the sets; the laws follow.  All that keeps them from a
document whose components were accepted is its metadata.
-/

namespace BareAnalysis.SbomDiff

/-! ## What the components say -/

section Says

variable (rs : List Reading)

/-- The identities of the components read. -/
def identitiesIn : Finset String := (rs.map Reading.key).toFinset

/-- The versions read of an identity… -/
def versionsIn (key : String) : Finset String :=
  ((rs.filter fun r => r.key = key).map Reading.version).toFinset

/-- …and its licences. -/
def licencesIn (key : String) : Finset String :=
  (rs.filter fun r => r.key = key).foldr (fun r found => r.licences ∪ found) ∅

variable {rs} {rs' : List Reading} {key : String}

theorem mem_identitiesIn : key ∈ identitiesIn rs ↔ ∃ r ∈ rs, r.key = key := by
  rw [identitiesIn, List.mem_toFinset, List.mem_map]

theorem mem_versionsIn {version : String} :
    version ∈ versionsIn rs key ↔ ∃ r ∈ rs, r.key = key ∧ r.version = version := by
  rw [versionsIn, List.mem_toFinset, List.mem_map]
  simp only [List.mem_filter, decide_eq_true_eq, and_assoc]

theorem mem_licencesIn {licence : String} :
    licence ∈ licencesIn rs key ↔ ∃ r ∈ rs, r.key = key ∧ licence ∈ r.licences := by
  rw [licencesIn]
  induction rs with
  | nil => simp
  | cons r rs ih =>
    by_cases hkey : r.key = key
    · rw [List.filter_cons_of_pos (by simpa using hkey), List.foldr_cons, Finset.mem_union, ih]
      simp [hkey]
    · rw [List.filter_cons_of_neg (by simpa using hkey), ih]
      simp [hkey]

/-- **Order and repetition say nothing.** -/
theorem says_congr (h : ∀ r, r ∈ rs ↔ r ∈ rs') : identitiesIn rs = identitiesIn rs' ∧
    versionsIn rs = versionsIn rs' ∧ licencesIn rs = licencesIn rs' := by
  refine ⟨?_, ?_, ?_⟩
  · ext key
    simp only [mem_identitiesIn, h]
  · ext key version
    simp only [mem_versionsIn, h]
  · ext key licence
    simp only [mem_licencesIn, h]

/-- A group holds what was read of its identity. -/
theorem get?_groups (rs : List Reading) (key : String) :
    (key ∉ identitiesIn rs ∧ (rs.foldl addReading []).get? key = none) ∨
      (key ∈ identitiesIn rs ∧ ∃ name, (rs.foldl addReading []).get? key
        = some ⟨name, versionsIn rs key, licencesIn rs key⟩) := by
  induction rs using List.reverseRecOn with
  | nil => exact Or.inl ⟨by simp [identitiesIn], rfl⟩
  | append_singleton rs r ih =>
    have hversions : versionsIn (rs ++ [r]) key
        = if r.key = key then insert r.version (versionsIn rs key) else versionsIn rs key := by
      ext version
      split
      · rename_i hkey
        simp [mem_versionsIn, or_and_right, exists_or, hkey, eq_comm, or_comm]
      · rename_i hkey
        simp [mem_versionsIn, or_and_right, exists_or, hkey]
    have hlicences : licencesIn (rs ++ [r]) key
        = if r.key = key then licencesIn rs key ∪ r.licences else licencesIn rs key := by
      ext licence
      split
      · rename_i hkey
        simp [mem_licencesIn, or_and_right, exists_or, hkey]
      · rename_i hkey
        simp [mem_licencesIn, or_and_right, exists_or, hkey]
    have hidentities : key ∈ identitiesIn (rs ++ [r]) ↔ key ∈ identitiesIn rs ∨ r.key = key := by
      simp [mem_identitiesIn, or_and_right, exists_or]
    rw [List.foldl_append, List.foldl_cons, List.foldl_nil, get?_addReading, hversions, hlicences,
      hidentities]
    by_cases hkey : r.key = key
    · rw [if_pos hkey, if_pos hkey, if_pos hkey]
      refine Or.inr ⟨Or.inr hkey, ?_⟩
      obtain ⟨hnot, hnone⟩ | ⟨-, name, hsome⟩ := ih
      · have hnone' : versionsIn rs key = ∅ ∧ licencesIn rs key = ∅ := by
          refine ⟨Finset.eq_empty_of_forall_notMem fun v hv => ?_,
            Finset.eq_empty_of_forall_notMem fun l hl => ?_⟩
          · obtain ⟨r', hr', hr'key, -⟩ := mem_versionsIn.mp hv
            exact hnot (mem_identitiesIn.mpr ⟨r', hr', hr'key⟩)
          · obtain ⟨r', hr', hr'key, -⟩ := mem_licencesIn.mp hl
            exact hnot (mem_identitiesIn.mpr ⟨r', hr', hr'key⟩)
        rw [hnone, hnone'.1, hnone'.2]
        exact ⟨_, rfl⟩
      · rw [hsome]
        exact ⟨_, rfl⟩
    · rw [if_neg hkey, if_neg hkey, if_neg hkey]
      simpa [hkey] using ih

end Says

/-! ## What the diff has to say of them -/

/-- All of a change but its display name. -/
def ComponentChange.unnamed (c : ComponentChange) : ComponentChange := { c with name := "" }

/-- The change the other way. -/
def ComponentChange.swapped (c : ComponentChange) : ComponentChange :=
  { c with before := c.after, after := c.before }

/-- `has_changes`. -/
def Diff.hasChanges (diff : Diff) : Bool :=
  !diff.added.isEmpty || !diff.removed.isEmpty || !diff.versionChanged.isEmpty
    || !diff.licenceChanged.isEmpty

/-- All of a diff but its display names. -/
def Diff.unnamed (diff : Diff) : Diff :=
  { diff with
    added := diff.added.map .unnamed
    removed := diff.removed.map .unnamed
    versionChanged := diff.versionChanged.map .unnamed
    licenceChanged := diff.licenceChanged.map .unnamed }

section Expected

variable (rs rs' : List Reading)

/-- The identities of the second document alone, with their versions. -/
def newIdentities : List ComponentChange :=
  (sortedSet (identitiesIn rs' \ identitiesIn rs)).map fun key =>
    ⟨key, "", [], sortedSet (versionsIn rs' key)⟩

/-- The identities of the first document alone. -/
def lostIdentities : List ComponentChange :=
  (sortedSet (identitiesIn rs \ identitiesIn rs')).map fun key =>
    ⟨key, "", sortedSet (versionsIn rs key), []⟩

/-- The common identities of which the documents say different things. -/
def changedIdentities (what : List Reading → String → Finset String) : List ComponentChange :=
  (sortedSet ((identitiesIn rs ∩ identitiesIn rs').filter fun key =>
    what rs key ≠ what rs' key)).map fun key =>
      ⟨key, "", sortedSet (what rs key), sortedSet (what rs' key)⟩

/-- The common identities of which they say the same. -/
def sameIdentities : Finset String :=
  (identitiesIn rs ∩ identitiesIn rs').filter fun key =>
    versionsIn rs key = versionsIn rs' key ∧ licencesIn rs key = licencesIn rs' key

/-- **Every identity is accounted for once**, by what the documents say of it. -/
structure Accounts (diff : Diff) : Prop where
  added : diff.added.map .unnamed = newIdentities rs rs'
  removed : diff.removed.map .unnamed = lostIdentities rs rs'
  versionChanged : diff.versionChanged.map .unnamed = changedIdentities rs rs' versionsIn
  licenceChanged : diff.licenceChanged.map .unnamed = changedIdentities rs rs' licencesIn
  unchanged : diff.unchanged = (sameIdentities rs rs').card

end Expected

/-- What is listed of a larger set is what is listed of the smaller one. -/
theorem map_filterMap_sortedSet {α β : Type} {S T : Finset String} (hsub : S ⊆ T)
    {f : String → Option α} {u : α → β} {g : String → β}
    (h : ∀ key, (f key).map u = if key ∈ S then some (g key) else none) :
    ((sortedSet T).filterMap f).map u = (sortedSet S).map g := by
  have hfilter : (sortedSet T).filter (· ∈ S) = sortedSet S := by
    rw [filter_sortedSet]
    congr 1
    ext key
    simpa using fun hkey => hsub hkey
  rw [List.map_filterMap, ← hfilter, ← List.filterMap_eq_map, List.filterMap_filter]
  refine List.filterMap_congr fun key _ => ?_
  rw [h]
  simp

theorem keysOf_groups (rs : List Reading) : keysOf (rs.foldl addReading []) = identitiesIn rs := by
  ext key
  rw [mem_keysOf_groups, mem_identitiesIn]

/-- **The comparison of the groups accounts for every identity.** -/
theorem accounts_compareGroups (rs rs' : List Reading) (label label' : String)
    (incomplete : List String) :
    Accounts rs rs' (compareGroups (rs.foldl addReading []) (rs'.foldl addReading [])
      { beforeLabel := label, afterLabel := label', incomplete := incomplete }) := by
  rw [compareGroups, foldl_compareKey, keysOf_groups, keysOf_groups]
  refine ⟨?_, ?_, ?_, ?_, ?_⟩
  · refine map_filterMap_sortedSet ?_ fun key => ?_
    · exact Finset.sdiff_subset.trans Finset.subset_union_right
    · rw [addedAt]
      obtain ⟨hk, hget⟩ | ⟨hk, n, hget⟩ := get?_groups rs key <;>
        obtain ⟨hk', hget'⟩ | ⟨hk', n', hget'⟩ := get?_groups rs' key <;>
        simp [hk, hk', hget, hget', ComponentChange.unnamed]
  · refine map_filterMap_sortedSet ?_ fun key => ?_
    · exact Finset.sdiff_subset.trans Finset.subset_union_left
    · rw [removedAt]
      obtain ⟨hk, hget⟩ | ⟨hk, n, hget⟩ := get?_groups rs key <;>
        obtain ⟨hk', hget'⟩ | ⟨hk', n', hget'⟩ := get?_groups rs' key <;>
        simp [hk, hk', hget, hget', ComponentChange.unnamed]
  · refine map_filterMap_sortedSet ?_ fun key => ?_
    · exact (Finset.filter_subset _ _).trans (Finset.inter_subset_left.trans
        Finset.subset_union_left)
    · rw [versionChangedAt]
      obtain ⟨hk, hget⟩ | ⟨hk, n, hget⟩ := get?_groups rs key <;>
        obtain ⟨hk', hget'⟩ | ⟨hk', n', hget'⟩ := get?_groups rs' key
      · simp [hk, hget]
      · simp [hk, hget]
      · simp [hk', hget, hget']
      · by_cases heq : versionsIn rs key = versionsIn rs' key <;>
          simp [hk, hk', hget, hget', heq, ComponentChange.unnamed]
  · refine map_filterMap_sortedSet ?_ fun key => ?_
    · exact (Finset.filter_subset _ _).trans (Finset.inter_subset_left.trans
        Finset.subset_union_left)
    · rw [licenceChangedAt]
      obtain ⟨hk, hget⟩ | ⟨hk, n, hget⟩ := get?_groups rs key <;>
        obtain ⟨hk', hget'⟩ | ⟨hk', n', hget'⟩ := get?_groups rs' key
      · simp [hk, hget]
      · simp [hk, hget]
      · simp [hk', hget, hget']
      · by_cases heq : licencesIn rs key = licencesIn rs' key <;>
          simp [hk, hk', hget, hget', heq, ComponentChange.unnamed]
  · have hsame : ∀ key, unchangedAt (rs.foldl addReading []) (rs'.foldl addReading []) key
        = decide (key ∈ sameIdentities rs rs') := by
      intro key
      rw [unchangedAt, sameIdentities]
      obtain ⟨hk, hget⟩ | ⟨hk, n, hget⟩ := get?_groups rs key <;>
        obtain ⟨hk', hget'⟩ | ⟨hk', n', hget'⟩ := get?_groups rs' key <;>
        simp [hk, hk', hget, hget']
    have hsub : sameIdentities rs rs' ⊆ identitiesIn rs ∪ identitiesIn rs' :=
      (Finset.filter_subset _ _).trans (Finset.inter_subset_left.trans Finset.subset_union_left)
    dsimp only
    rw [Nat.zero_add, List.countP_eq_length_filter, List.filter_congr fun key _ => hsame key,
      filter_sortedSet, length_sortedSet]
    congr 1
    ext key
    simpa using fun hkey => Finset.mem_union.mp (hsub hkey)

/-! ## The laws of accounts -/

section Laws

variable {rs rs' : List Reading} {diff diff' : Diff}

/-- A document compared with itself has no changes. -/
theorem Accounts.hasChanges_eq_false (h : Accounts rs rs diff) : diff.hasChanges = false := by
  have hadded : diff.added = [] := by
    simpa [newIdentities, sortedSet_empty] using h.added
  have hremoved : diff.removed = [] := by
    simpa [lostIdentities, sortedSet_empty] using h.removed
  have hversions : diff.versionChanged = [] := by
    simpa [changedIdentities, sortedSet_empty] using h.versionChanged
  have hlicences : diff.licenceChanged = [] := by
    simpa [changedIdentities, sortedSet_empty] using h.licenceChanged
  rw [Diff.hasChanges, hadded, hremoved, hversions, hlicences]
  rfl

/-- The diff the other way: what was added is removed, and every change goes from its end to its
start. -/
structure Mirrors (diff diff' : Diff) : Prop where
  added : diff'.unnamed.added = diff.unnamed.removed.map .swapped
  removed : diff'.unnamed.removed = diff.unnamed.added.map .swapped
  versionChanged : diff'.unnamed.versionChanged = diff.unnamed.versionChanged.map .swapped
  licenceChanged : diff'.unnamed.licenceChanged = diff.unnamed.licenceChanged.map .swapped
  unchanged : diff'.unchanged = diff.unchanged

theorem changedIdentities_swapped (what : List Reading → String → Finset String) :
    changedIdentities rs' rs what = (changedIdentities rs rs' what).map .swapped := by
  rw [changedIdentities, changedIdentities, List.map_map, Finset.inter_comm]
  simp only [ne_comm]
  rfl

theorem Accounts.mirrors (h : Accounts rs rs' diff) (h' : Accounts rs' rs diff') :
    Mirrors diff diff' where
  added := by
    rw [Diff.unnamed, Diff.unnamed, h'.added, h.removed, newIdentities, lostIdentities,
      List.map_map]
    rfl
  removed := by
    rw [Diff.unnamed, Diff.unnamed, h'.removed, h.added, newIdentities, lostIdentities,
      List.map_map]
    rfl
  versionChanged := by
    rw [Diff.unnamed, Diff.unnamed, h'.versionChanged, h.versionChanged,
      changedIdentities_swapped]
  licenceChanged := by
    rw [Diff.unnamed, Diff.unnamed, h'.licenceChanged, h.licenceChanged,
      changedIdentities_swapped]
  unchanged := by
    rw [h'.unchanged, h.unchanged, sameIdentities, sameIdentities, Finset.inter_comm]
    congr 1
    refine Finset.filter_congr fun key _ => ?_
    rw [eq_comm, @eq_comm _ (licencesIn rs' key)]

/-- Accounts are of what is read, in whatever order. -/
theorem Accounts.congr {qs qs' : List Reading} (h : Accounts qs qs' diff)
    (hq : ∀ r, r ∈ qs ↔ r ∈ rs) (hq' : ∀ r, r ∈ qs' ↔ r ∈ rs') : Accounts rs rs' diff := by
  obtain ⟨hids, hversions, hlicences⟩ := says_congr hq
  obtain ⟨hids', hversions', hlicences'⟩ := says_congr hq'
  obtain ⟨hadded, hremoved, hversion, hlicence, hunchanged⟩ := h
  rw [newIdentities, hids, hids', hversions'] at hadded
  rw [lostIdentities, hids, hids', hversions] at hremoved
  rw [changedIdentities, hids, hids', hversions, hversions'] at hversion
  rw [changedIdentities, hids, hids', hlicences, hlicences'] at hlicence
  rw [sameIdentities, hids, hids', hversions, hversions', hlicences, hlicences'] at hunchanged
  exact ⟨hadded, hremoved, hversion, hlicence, hunchanged⟩

/-- Two accounts of the same are the same, up to names. -/
theorem Accounts.unnamed_eq (h : Accounts rs rs' diff) (h' : Accounts rs rs' diff')
    (hbefore : diff'.beforeLabel = diff.beforeLabel) (hafter : diff'.afterLabel = diff.afterLabel)
    (hincomplete : diff'.incomplete = diff.incomplete) : diff'.unnamed = diff.unnamed := by
  rw [Diff.unnamed, Diff.unnamed, h'.added, h'.removed, h'.versionChanged, h'.licenceChanged,
    h'.unchanged, h.added, h.removed, h.versionChanged, h.licenceChanged, h.unchanged, hbefore,
    hafter, hincomplete]

end Laws

/-! ## The documents -/

section Documents

variable (printable : Char → Bool)

/-- The entries of `components`. -/
def componentsOf (fields : List (String × Json)) : List Json :=
  match Dict.get? fields "components" with
  | some (.arr items) => items
  | _ => []

/-- The components of a document, if it has any, are a list. -/
def ListsComponents (fields : List (String × Json)) : Prop :=
  ∀ v, Dict.get? fields "components" = some v → v = .null ∨ ∃ items, v = .arr items

/-- `_groups`, as far as the components are read. -/
def readingsOf (document : Json) (which : String) : Except PyError (List Reading) := do
  let notSbom : PyError := .valueError ("the " ++ which ++ " document is not a CycloneDX SBOM")
  let .obj fields := document | throw notSbom
  if !((Dict.get? fields "bomFormat").getD .null).isText "CycloneDX" then throw notSbom
  let components ← match (Dict.get? fields "components").getD (.arr []) with
    | .null => pure []
    | .arr items => pure items
    | _ => throw (.valueError ("the " ++ which ++ " document's 'components' is not a list"))
  components.zipIdx.mapM (readComponent printable which)

theorem groupsOf_eq (document : Json) (which : String) :
    groupsOf printable document which
      = (readingsOf printable document which).map fun rs => rs.foldl addReading [] := by
  cases document with
  | obj fields =>
    rw [groupsOf, readingsOf]
    dsimp only
    split
    · rfl
    · rcases (Dict.get? fields "components").getD (.arr []) with
        - | b | n | ⟨q, text⟩ | text | s | items | fields
      case null => rfl
      case arr =>
        change (items.zipIdx.mapM (readComponent printable which) >>= fun rs =>
          pure (rs.foldl addReading [])) = Except.map _ (items.zipIdx.mapM _)
        cases items.zipIdx.mapM (readComponent printable which) with
        | error e => rfl
        | ok rs => rfl
      all_goals rfl
  | _ => rfl

/-- One component read, wherever it stands. -/
def Reads (component : Json) (r : Reading) : Prop :=
  ∀ which i, readComponent printable which (component, i) = .ok r

variable {printable}

/-- Only an error says where a component stands. -/
theorem reads_of_readComponent {which : String} {item : Json × ℕ} {r : Reading}
    (h : readComponent printable which item = .ok r) : Reads printable item.1 r := by
  obtain ⟨component, i⟩ := item
  cases component with
  | obj fields => exact fun _ _ => h
  | _ => cases h

/-- **What is read of a document**: it is a mapping of this format, and every entry of its list is
read. -/
theorem readingsOf_eq_ok {fields : List (String × Json)} {which : String} {rs : List Reading} :
    readingsOf printable (.obj fields) which = .ok rs ↔
      ((Dict.get? fields "bomFormat").getD .null).isText "CycloneDX" = true ∧
        ListsComponents fields ∧
          (componentsOf fields).zipIdx.mapM (readComponent printable which) = .ok rs := by
  rw [readingsOf, componentsOf]
  dsimp only
  rcases hformat : ((Dict.get? fields "bomFormat").getD .null).isText "CycloneDX" with - | -
  · exact iff_of_false (fun h => by cases h) (fun h => by cases h.1)
  rcases hcomponents : Dict.get? fields "components" with - | v
  · refine ⟨fun h => ⟨rfl, fun v hv => ?_, h⟩, fun h => h.2.2⟩
    rw [hcomponents] at hv
    cases hv
  · rw [ListsComponents, hcomponents]
    rcases v with - | b | n | ⟨q, text⟩ | text | s | items | fields
    case null => exact ⟨fun h => ⟨rfl, fun v hv => Or.inl (Option.some.inj hv).symm, h⟩,
      fun h => h.2.2⟩
    case arr => exact ⟨fun h => ⟨rfl, fun v hv => Or.inr ⟨items, (Option.some.inj hv).symm⟩, h⟩,
      fun h => h.2.2⟩
    all_goals
      refine iff_of_false (fun h => by cases h) fun h => ?_
      obtain h | ⟨items, h⟩ := h.2.1 _ rfl <;> cases h

theorem obj_of_readingsOf {document : Json} {which : String} {rs : List Reading}
    (h : readingsOf printable document which = .ok rs) : ∃ fields, document = .obj fields := by
  cases document with
  | obj fields => exact ⟨fields, rfl⟩
  | _ => cases h

/-- A reading is one of a component. -/
theorem mem_readings {fields : List (String × Json)} {which : String} {rs : List Reading}
    (h : readingsOf printable (.obj fields) which = .ok rs) {r : Reading} :
    r ∈ rs ↔ ∃ c ∈ componentsOf fields, Reads printable c r := by
  obtain ⟨-, -, h⟩ := readingsOf_eq_ok.mp h
  constructor
  · intro hr
    obtain ⟨item, hitem, hread⟩ := mem_of_mapM_eq_ok h hr
    exact ⟨item.1, List.fst_mem_of_mem_zipIdx hitem, reads_of_readComponent hread⟩
  · rintro ⟨c, hc, hread⟩
    obtain ⟨i, hi⟩ := List.mem_iff_getElem?.mp hc
    obtain ⟨r', hr', hread'⟩ := exists_mem_of_mapM_eq_ok h (List.mk_mem_zipIdx_iff_getElem?.mpr hi)
    rwa [Except.ok.inj ((hread which i).symm.trans hread')]

/-- The fields of the component in the metadata. -/
def metadataFields (document : Json) : List (String × Json) :=
  match document with
  | .obj fields =>
    match Dict.get? fields "metadata" with
    | some (.obj metadata) =>
      match Dict.get? metadata "component" with
      | some (.obj component) => component
      | _ => []
    | _ => []
  | _ => []

/-- The `properties` of the metadata component are nothing, or something one can go through. -/
def PropertiesIterable (document : Json) : Prop :=
  ∀ properties, Dict.get? (metadataFields document) "properties" = some properties →
    properties.truthy = true → properties.iter.isOk = true

theorem metadataOf_obj (fields : List (String × Json)) :
    metadataOf (.obj fields) = .ok (.obj (metadataFields (.obj fields))) := by
  rw [metadataOf, Json.getOrNull, Json.getD, Json.get?_obj, metadataFields]
  rcases Dict.get? fields "metadata" with - | - | b | n | ⟨q, text⟩ | text | s | items | metadata
  case some.obj =>
    change (match Dict.get? metadata "component" with
      | some (.obj component) => (Except.ok (Json.obj component) : Except PyError Json)
      | _ => Except.ok (Json.obj [])) = _
    dsimp only
    rcases Dict.get? metadata "component" with
      - | - | b | n | ⟨q, text⟩ | text | s | items | component <;> rfl
  all_goals rfl

/-- **A property can be looked up exactly when the properties can be gone through.** -/
theorem isOk_propertyOf (printable : Char → Bool) (fields : List (String × Json)) (name : String) :
    (propertyOf printable (.obj fields) name).isOk = true ↔ PropertiesIterable (.obj fields) := by
  have hiter : PropertiesIterable (.obj fields) ↔
      (((Dict.get? (metadataFields (.obj fields)) "properties").getD .null).orElse
        (.arr [])).iter.isOk = true := by
    rw [PropertiesIterable]
    rcases Dict.get? (metadataFields (.obj fields)) "properties" with - | v
    · exact iff_of_true (fun v hv => by cases hv) rfl
    · rw [Option.getD_some]
      rcases htruthy : v.truthy with - | -
      · rw [Json.orElse_of_not_truthy htruthy]
        refine iff_of_true (fun w hw htrue => ?_) rfl
        rw [← Option.some.inj hw, htruthy] at htrue
        cases htrue
      · rw [Json.truthy_orElse_left htruthy]
        exact ⟨fun h => h v rfl htruthy, fun h w hw _ => by rwa [← Option.some.inj hw]⟩
  rw [propertyOf, metadataOf_obj, hiter, ok_bind, Json.getOrNull, Json.getD, Json.get?_obj, ok_bind,
    pure_bind]
  refine (isOk_bind_of_forall fun items => ?_)
  dsimp only
  split
  · rename_i prop hfound
    have hobj := List.find?_some hfound
    cases prop with
    | obj entry => rfl
    | _ => cases hobj
  · rfl

/-- Nothing else in a label raises. -/
theorem isOk_labelOf (fields : List (String × Json)) (fallback : String)
    (h : PropertiesIterable (.obj fields)) :
    (labelOf printable (.obj fields) fallback).isOk = true := by
  obtain ⟨run, hrun⟩ := exists_eq_ok ((isOk_propertyOf printable fields
    "bare:run").mpr h)
  rw [labelOf, metadataOf_obj, ok_bind, Json.getD, Json.get?_obj, ok_bind, pure_bind, hrun]
  rfl

/-- **Two documents whose components are read are compared exactly when their metadata can be
read.** -/
theorem diffSboms_eq {before after : Json} {rs rs' : List Reading}
    (hbefore : readingsOf printable before "before" = .ok rs)
    (hafter : readingsOf printable after "after" = .ok rs') (label label' : String) :
    (PropertiesIterable before ∧ PropertiesIterable after → ∃ l l' incomplete,
      labelOr printable label before "before" = .ok l ∧
      labelOr printable label' after "after" = .ok l' ∧
      incompleteLabels printable [(l, before), (l', after)] = .ok incomplete ∧
      diffSboms printable before after label label'
        = .ok (compareGroups (rs.foldl addReading []) (rs'.foldl addReading [])
          { beforeLabel := l, afterLabel := l', incomplete := incomplete })) ∧
    ((diffSboms printable before after label label').isOk = true →
      PropertiesIterable before ∧ PropertiesIterable after) := by
  obtain ⟨fields, rfl⟩ := obj_of_readingsOf hbefore
  obtain ⟨fields', rfl⟩ := obj_of_readingsOf hafter
  have hcomplete : ∀ fields, (inventoryComplete printable (.obj fields)).isOk = true ↔
      PropertiesIterable (.obj fields) := fun fields => by
    rw [← isOk_propertyOf printable fields "bare:inventory_complete",
      inventoryComplete]
    exact isOk_bind_of_forall fun _ => rfl
  have hlabel : ∀ fields label fallback, PropertiesIterable (.obj fields) →
      (labelOr printable label (.obj fields) fallback).isOk = true := by
    intro fields label fallback h
    rw [labelOr]
    split
    · rfl
    · exact isOk_labelOf fields fallback h
  have hincomplete : ∀ l l', (incompleteLabels printable [(l, .obj fields), (l', .obj fields')]).isOk
      = true ↔ PropertiesIterable (.obj fields) ∧ PropertiesIterable (.obj fields') := by
    intro l l'
    rw [incompleteLabels, isOk_bind_of_forall fun _ => rfl, isOk_mapM, List.forall_mem_cons,
      List.forall_mem_singleton, isOk_bind_of_forall fun _ => rfl,
      isOk_bind_of_forall fun _ => rfl, hcomplete, hcomplete]
  have hgroups : groupsOf printable (.obj fields) "before" = .ok (rs.foldl addReading []) := by
    rw [groupsOf_eq, hbefore]
    rfl
  have hgroups' : groupsOf printable (.obj fields') "after" = .ok (rs'.foldl addReading []) := by
    rw [groupsOf_eq, hafter]
    rfl
  rw [diffSboms, hgroups, ok_bind, hgroups', ok_bind]
  refine ⟨fun ⟨h, h'⟩ => ?_, fun h => ?_⟩
  · obtain ⟨l, hl⟩ := exists_eq_ok (hlabel fields label "before" h)
    obtain ⟨l', hl'⟩ := exists_eq_ok (hlabel fields' label' "after" h')
    obtain ⟨incomplete, hi⟩ := exists_eq_ok ((hincomplete l l').mpr ⟨h, h'⟩)
    refine ⟨l, l', incomplete, hl, hl', hi, ?_⟩
    rw [hl, ok_bind, hl', ok_bind, hi]
    rfl
  · obtain ⟨l, -, h⟩ := isOk_bind.mp h
    obtain ⟨l', -, h⟩ := isOk_bind.mp h
    obtain ⟨incomplete, hi, -⟩ := isOk_bind.mp h
    exact (hincomplete l l').mp (isOk_iff.mpr ⟨incomplete, hi⟩)

/-- The same document, but for the order and the repetition of its components. -/
def Rearranged (document document' : Json) : Prop :=
  ∃ fields fields', document = .obj fields ∧ document' = .obj fields' ∧
    (∀ key ≠ "components", Dict.get? fields' key = Dict.get? fields key) ∧
    ListsComponents fields' ∧ ∀ c, c ∈ componentsOf fields' ↔ c ∈ componentsOf fields

theorem rearranged_self {document : Json} {which : String} {rs : List Reading}
    (h : readingsOf printable document which = .ok rs) : Rearranged document document := by
  obtain ⟨fields, rfl⟩ := obj_of_readingsOf h
  exact ⟨fields, fields, rfl, rfl, fun _ _ => rfl, (readingsOf_eq_ok.mp h).2.1, fun _ => Iff.rfl⟩

/-- **The same is read of it**, whichever document of the two it is. -/
theorem exists_readings_of_rearranged {document document' : Json} {which : String}
    {rs : List Reading} (which' : String) (h : readingsOf printable document which = .ok rs)
    (hsame : Rearranged document document') :
    ∃ rs', readingsOf printable document' which' = .ok rs' ∧ ∀ r, r ∈ rs' ↔ r ∈ rs := by
  obtain ⟨fields, fields', rfl, rfl, hkeys, hlist, hmem⟩ := hsame
  obtain ⟨hformat, -, hread⟩ := readingsOf_eq_ok.mp h
  have hall : ∀ c ∈ componentsOf fields', ∃ r, Reads printable c r := by
    intro c hc
    obtain ⟨i, hi⟩ := List.mem_iff_getElem?.mp ((hmem c).mp hc)
    obtain ⟨r, -, hr⟩ := exists_mem_of_mapM_eq_ok hread (List.mk_mem_zipIdx_iff_getElem?.mpr hi)
    exact ⟨r, reads_of_readComponent hr⟩
  have hok : ((componentsOf fields').zipIdx.mapM (readComponent printable which')).isOk = true := by
    refine isOk_mapM.mpr fun item hitem => ?_
    obtain ⟨r, hr⟩ := hall item.1 (List.fst_mem_of_mem_zipIdx hitem)
    exact isOk_iff.mpr ⟨r, hr which' item.2⟩
  obtain ⟨rs', hrs'⟩ := exists_eq_ok hok
  have h' : readingsOf printable (.obj fields') which' = .ok rs' :=
    readingsOf_eq_ok.mpr ⟨by rwa [hkeys _ (by decide)], hlist, hrs'⟩
  refine ⟨rs', h', fun r => ?_⟩
  rw [mem_readings h, mem_readings h']
  exact exists_congr fun c => and_congr_left' (hmem c)

theorem metadataFields_of_rearranged {document document' : Json}
    (h : Rearranged document document') : metadataFields document' = metadataFields document := by
  obtain ⟨fields, fields', rfl, rfl, hkeys, -, -⟩ := h
  rw [metadataFields, metadataFields, hkeys _ (by decide)]

/-- …and so are its label and what it says of its completeness. -/
theorem metadata_of_rearranged (printable : Char → Bool) {document document' : Json}
    (h : Rearranged document document') :
    (∀ label fallback, labelOr printable label document' fallback
      = labelOr printable label document fallback) ∧
    inventoryComplete printable document' = inventoryComplete printable document := by
  have hfields := metadataFields_of_rearranged h
  obtain ⟨fields, fields', rfl, rfl, -⟩ := h
  have hmetadata : metadataOf (.obj fields') = metadataOf (.obj fields) := by
    rw [metadataOf_obj, metadataOf_obj, hfields]
  have hproperty : ∀ name, propertyOf printable (.obj fields') name
      = propertyOf printable (.obj fields) name := fun name => by
    rw [propertyOf, propertyOf, hmetadata]
  refine ⟨fun label fallback => ?_, ?_⟩
  · rw [labelOr, labelOr, labelOf, labelOf, hmetadata, hproperty]
  · rw [inventoryComplete, inventoryComplete, hproperty]

theorem propertiesIterable_of_rearranged {document document' : Json}
    (h : Rearranged document document') :
    PropertiesIterable document' ↔ PropertiesIterable document := by
  rw [PropertiesIterable, PropertiesIterable, metadataFields_of_rearranged h]

end Documents

/-! ## The laws of the diff -/

/-- What the comparison of two documents promises. -/
structure DiffLaws (printable : Char → Bool) (before after : Json) : Prop where
  /-- Every identity is accounted for once… -/
  accounts : ∃ rs rs', readingsOf printable before "before" = .ok rs ∧
    readingsOf printable after "after" = .ok rs' ∧ ∀ label label', ∃ diff,
      diffSboms printable before after label label' = .ok diff ∧ Accounts rs rs' diff
  /-- …nothing is a change of itself… -/
  itself : ∀ document ∈ [before, after], ∀ label label', ∃ diff,
    diffSboms printable document document label label' = .ok diff ∧ diff.hasChanges = false
  /-- …the diff the other way is the diff turned around… -/
  mirrored : ∀ label label', ∃ diff diff', diffSboms printable before after label label' = .ok diff ∧
    diffSboms printable after before label' label = .ok diff' ∧ Mirrors diff diff'
  /-- …and neither order nor repetition of components matters but to the names. -/
  rearranged : ∀ before' after', Rearranged before before' → Rearranged after after' →
    ∀ label label', ∃ diff diff', diffSboms printable before after label label' = .ok diff ∧
      diffSboms printable before' after' label label' = .ok diff' ∧ diff'.unnamed = diff.unnamed

section Law

variable {printable : Char → Bool} {before after : Json} {rs rs' : List Reading}

/-- Documents that are read and whose metadata can be read are compared. -/
theorem exists_diff (hbefore : readingsOf printable before "before" = .ok rs)
    (hafter : readingsOf printable after "after" = .ok rs') (h : PropertiesIterable before)
    (h' : PropertiesIterable after) (label label' : String) : ∃ diff,
      diffSboms printable before after label label' = .ok diff ∧ Accounts rs rs' diff := by
  obtain ⟨l, l', incomplete, -, -, -, hdiff⟩ :=
    (diffSboms_eq hbefore hafter label label').1 ⟨h, h'⟩
  exact ⟨_, hdiff, accounts_compareGroups rs rs' l l' incomplete⟩

/-- …and one that was read on either side is compared with itself. -/
theorem exists_diff_self {document : Json} {which : String}
    (hread : readingsOf printable document which = .ok rs) (h : PropertiesIterable document)
    (label label' : String) : ∃ diff,
      diffSboms printable document document label label' = .ok diff ∧ diff.hasChanges = false := by
  obtain ⟨qs, hqs, -⟩ := exists_readings_of_rearranged "before" hread
    (rearranged_self hread)
  obtain ⟨qs', hqs', hsame⟩ := exists_readings_of_rearranged "after" hqs
    (rearranged_self hqs)
  obtain ⟨diff, hdiff, haccounts⟩ := exists_diff hqs hqs' h h label label'
  exact ⟨diff, hdiff, (haccounts.congr (fun _ => Iff.rfl) hsame).hasChanges_eq_false⟩

/-- **The laws hold of two documents whose components are read exactly when the properties of
their metadata, where they have any, can be gone through.** -/
theorem diffLaws_iff {groups groups' : Dict String Versions}
    (hbefore : groupsOf printable before "before" = .ok groups)
    (hafter : groupsOf printable after "after" = .ok groups') :
    DiffLaws printable before after ↔ PropertiesIterable before ∧ PropertiesIterable after := by
  rw [groupsOf_eq] at hbefore hafter
  obtain ⟨rs, hrs, -⟩ := map_eq_ok.mp hbefore
  obtain ⟨rs', hrs', -⟩ := map_eq_ok.mp hafter
  constructor
  · intro h
    obtain ⟨qs, qs', -, -, hdiff⟩ := h.accounts
    obtain ⟨diff, hdiff, -⟩ := hdiff "" ""
    exact (diffSboms_eq hrs hrs' "" "").2 (isOk_iff.mpr ⟨diff, hdiff⟩)
  · rintro ⟨h, h'⟩
    refine ⟨⟨rs, rs', hrs, hrs', exists_diff hrs hrs' h h'⟩, ?_, ?_, ?_⟩
    · rw [List.forall_mem_cons, List.forall_mem_singleton]
      exact ⟨exists_diff_self hrs h, exists_diff_self hrs' h'⟩
    · intro label label'
      obtain ⟨qs, hqs, hsame⟩ := exists_readings_of_rearranged "after" hrs
        (rearranged_self hrs)
      obtain ⟨qs', hqs', hsame'⟩ := exists_readings_of_rearranged "before" hrs'
        (rearranged_self hrs')
      obtain ⟨diff, hdiff, haccounts⟩ := exists_diff hrs hrs' h h' label label'
      obtain ⟨diff', hdiff', haccounts'⟩ := exists_diff hqs' hqs h' h label' label
      exact ⟨diff, diff', hdiff, hdiff', haccounts.mirrors (haccounts'.congr hsame' hsame)⟩
    · intro before' after' hre hre' label label'
      obtain ⟨qs, hqs, hsame⟩ := exists_readings_of_rearranged "before" hrs hre
      obtain ⟨qs', hqs', hsame'⟩ := exists_readings_of_rearranged "after" hrs' hre'
      obtain ⟨l, l', incomplete, hl, hl', hincomplete, hdiff⟩ :=
        (diffSboms_eq hrs hrs' label label').1 ⟨h, h'⟩
      obtain ⟨m, m', incomplete', hm, hm', hincomplete', hdiff'⟩ :=
        (diffSboms_eq hqs hqs' label label').1
          ⟨(propertiesIterable_of_rearranged hre).mpr h,
            (propertiesIterable_of_rearranged hre').mpr h'⟩
      obtain ⟨hlabel, hcomplete⟩ := metadata_of_rearranged printable hre
      obtain ⟨hlabel', hcomplete'⟩ := metadata_of_rearranged printable hre'
      obtain rfl : l = m := Except.ok.inj (hl.symm.trans ((hlabel _ _).symm.trans hm))
      obtain rfl : l' = m' := Except.ok.inj (hl'.symm.trans ((hlabel' _ _).symm.trans hm'))
      have hstates : incompleteLabels printable [(l, before'), (l', after')]
          = incompleteLabels printable [(l, before), (l', after)] := by
        rw [incompleteLabels, incompleteLabels]
        simp only [List.mapM_cons, hcomplete, hcomplete']
      refine ⟨_, _, hdiff, hdiff', ?_⟩
      refine (accounts_compareGroups rs rs' l l' incomplete).unnamed_eq
        ((accounts_compareGroups qs qs' l l' incomplete').congr hsame hsame') ?_ ?_ ?_
      all_goals simp only [compareGroups, foldl_compareKey]
      exact Except.ok.inj (hincomplete'.symm.trans (hstates.trans hincomplete))

end Law

/-- A document of one component, whose metadata component has the given properties. -/
def oneComponent (name version : String) (properties : Json) : Json :=
  .obj [("bomFormat", .str "CycloneDX"),
    ("components", .arr [.obj [("name", .str name), ("version", .str version)]]),
    ("metadata", .obj [("component", .obj [("properties", properties)])])]

/-- The group of its component. -/
def oneGroup (name version : String) : Dict String Versions :=
  [("name:" ++ name, ⟨name, {version}, ∅⟩)]

/-- Two builds of one library. -/
theorem diffLaws_upgrade : DiffLaws (fun _ => true)
    (oneComponent "zlib" "1.2.11" (.arr [])) (oneComponent "zlib" "1.2.13" .null) := by
  have hbefore : groupsOf (fun _ => true) (oneComponent "zlib" "1.2.11" (.arr [])) "before"
      = .ok (oneGroup "zlib" "1.2.11") := by decide +kernel
  have hafter : groupsOf (fun _ => true) (oneComponent "zlib" "1.2.13" .null) "after"
      = .ok (oneGroup "zlib" "1.2.13") := by decide +kernel
  refine (diffLaws_iff hbefore hafter).mpr ⟨fun properties h _ => ?_, fun properties h htrue => ?_⟩
  · obtain rfl := Option.some.inj h
    rfl
  · obtain rfl := Option.some.inj h
    cases htrue

/-- **Two inventories that are read, and no diff of them.** -/
theorem groups_without_diff : ∃ before after groups groups',
    groupsOf (fun _ => true) before "before" = .ok groups ∧
    groupsOf (fun _ => true) after "after" = .ok groups' ∧
    diffSboms (fun _ => true) before after "" "" = .error (.typeError "'int' object is not iterable")
    ∧ ¬DiffLaws (fun _ => true) before after := by
  have hraises : diffSboms (fun _ => true) (oneComponent "zlib" "1.2.11" (.int 5))
      (oneComponent "zlib" "1.2.13" .null) "" ""
        = .error (.typeError "'int' object is not iterable") := by decide +kernel
  refine ⟨oneComponent "zlib" "1.2.11" (.int 5), oneComponent "zlib" "1.2.13" .null,
    oneGroup "zlib" "1.2.11", oneGroup "zlib" "1.2.13", by decide +kernel, by decide +kernel,
    hraises, fun h => ?_⟩
  obtain ⟨rs, rs', -, -, hdiff⟩ := h.accounts
  obtain ⟨diff, hdiff, -⟩ := hdiff "" ""
  rw [hraises] at hdiff
  cases hdiff

end BareAnalysis.SbomDiff
