import BareAnalysis.Enrichment.Deliveries
import BareAnalysis.Enrichment.Isolation
import BareAnalysis.Enrichment.RoundTrip
import Mathlib.Data.List.ReduceOption

/-!
# Enrichment/Exchange — what the host asks for, and what it writes of the answer

    findings ──select_targets──▸ targets.json ──▸ work_order ──main──▸ result.json ──▸ apply_xrefs
                    (artifact id, offsets)        one binary for each             one function for each

`core/pipeline/ghidra.py` on both ends of `sandbox/images/ghidra/analyzer.py`.  The targets are what
the findings point to, the best first (`selectTargets_isBest`); the container gives a binary for each
of them and for nothing else (`binaries_of_exchange`); a location gets the function that was resolved
at its offset in its artifact, and no other (`locations_applyDocument`).
-/

namespace BareAnalysis

open GhidraAnalyzer

/-! ## The order -/

/-- An entry of the order. -/
def targetEntry (target : BinaryTarget) : Json :=
  .obj [("path", .str target.stagedPath), ("offsets", .arr (target.offsets.map .int))]

/-- The order `_run_analyzer` writes. -/
def orderToJson (targets : List BinaryTarget) : Json :=
  .obj [("binaries", .arr (targets.map targetEntry))]

/-- `targets.json`. -/
def orderText (targets : List BinaryTarget) : List Char :=
  ({ sorted := true } : Style).dumps (orderToJson targets)

/-- What the analyzer makes of a target: no offset is negative. -/
def BinaryTarget.entry (target : BinaryTarget) : String × List ℤ :=
  (target.stagedPath, target.offsets.filter fun offset => 0 ≤ offset)

section Order

variable {tables : Tables} {d : Decoder} {targets : List BinaryTarget}

theorem filterMap_offsetOf (offsets : List ℤ) :
    (offsets.map Json.int).filterMap offsetOf = offsets.filter fun offset => 0 ≤ offset := by
  rw [List.filterMap_map, ← List.filterMap_eq_filter]
  refine List.filterMap_congr fun offset _ => ?_
  by_cases h : 0 ≤ offset
  · simp [offsetOf, Option.guard, h]
  · simp [offsetOf, Option.guard, h]

/-- A set is listed from its least member on. -/
theorem pairwise_sortedSet {κ : Type*} [LinearOrder κ] (values : Finset κ) :
    (sortedSet values).Pairwise (· < ·) := by
  have hle : (sortedSet values).Pairwise (· ≤ ·) := by
    obtain ⟨s, hs⟩ := values
    induction s using Quotient.inductionOn with
    | h l => exact pairwise_sortBy id l
  exact (hle.and (nodup_sortedSet values)).imp fun h => lt_of_le_of_ne h.1 h.2

theorem sortedSet_toFinset {l : List ℤ} (h : l.Pairwise (· < ·)) : sortedSet l.toFinset = l :=
  eq_of_pairwise_key_lt (pairwise_sortedSet _) h fun a => by
    rw [mem_sortedSet, List.mem_toFinset]

/-- **An entry is read as it was meant.** -/
theorem readEntry_targetEntry {target : BinaryTarget} (h : target.offsets.Pairwise (· < ·)) :
    readEntry tables (targetEntry target).sortKeys
      = .ok (if Unusable target.stagedPath then none else some target.entry) := by
  obtain ⟨fields, hfields⟩ : ∃ fields, (targetEntry target).sortKeys = .obj fields := ⟨_, rfl⟩
  have hget : ∀ key, (targetEntry target).sortKeys.field key
      = ((targetEntry target).field key).sortKeys := Json.field_sortKeys (by simp)
  have hpath : GhidraAnalyzer.pathOf tables (targetEntry target).sortKeys = target.stagedPath := by
    rw [GhidraAnalyzer.pathOf, hget]
    exact (textOr_str _ _).trans (orText_empty _)
  have hitems : ∀ offsets : List ℤ, Json.sortItems (offsets.map .int) = offsets.map .int := by
    intro offsets
    rw [Json.sortItems_eq_map, List.map_map]
    rfl
  have hoffsets : rawOffsets (targetEntry target).sortKeys = .ok (target.offsets.map .int) := by
    have hfield : (targetEntry target).field "offsets" = .arr (target.offsets.map .int) := rfl
    rw [rawOffsets, hget, hfield, Json.sortKeys, hitems]
    cases target.offsets <;> rfl
  rw [hfields] at hpath hoffsets ⊢
  rw [readEntry, hpath, hoffsets]
  split
  · rfl
  · rw [ok_bind, filterMap_offsetOf, sortedSet_toFinset (h.filter _)]
    rfl

theorem mapM_readEntry (h : ∀ t ∈ targets, t.offsets.Pairwise (· < ·)) :
    (targets.map fun t => (targetEntry t).sortKeys).mapM (readEntry tables)
      = .ok (targets.map fun t => if Unusable t.stagedPath then none else some t.entry) := by
  induction targets with
  | nil => rfl
  | cons t targets ih =>
    rw [List.map_cons, List.mapM_cons, readEntry_targetEntry (h t List.mem_cons_self), ok_bind,
      ih fun u hu => h u (List.mem_cons_of_mem _ hu)]
    rfl

theorem reduceOption_entries (targets : List BinaryTarget) :
    (targets.map fun t => if Unusable t.stagedPath then none else some t.entry).reduceOption
      = (targets.filter fun t => ¬Unusable t.stagedPath).map BinaryTarget.entry := by
  induction targets with
  | nil => rfl
  | cons t targets ih =>
    by_cases ht : Unusable t.stagedPath
    · rw [List.map_cons, if_pos ht, List.reduceOption_cons_of_none, ih,
        List.filter_cons_of_neg (by simpa using ht)]
    · rw [List.map_cons, if_neg ht, List.reduceOption_cons_of_some, ih,
        List.filter_cons_of_pos (by simpa using ht), List.map_cons]

/-- …and the order, as the usable targets in the order of their paths. -/
theorem workOrder_orderToJson (h : ∀ t ∈ targets, t.offsets.Pairwise (· < ·)) :
    workOrder tables (orderToJson targets).sortKeys
      = .ok (sortBy (fun entry => toLex (entry.1, entry.2))
          ((targets.filter fun t => ¬Unusable t.stagedPath).map BinaryTarget.entry)) := by
  have hbinaries : (orderToJson targets).sortKeys.field "binaries"
      = .arr (targets.map fun t => (targetEntry t).sortKeys) := by
    have hsorted : (orderToJson targets).sortKeys.field "binaries"
        = (Json.arr (targets.map targetEntry)).sortKeys := rfl
    rw [hsorted, Json.sortKeys, Json.sortItems_eq_map, List.map_map]
    rfl
  rw [workOrder, hbinaries, Json.listed, mapM_readEntry h, ok_bind, reduceOption_entries]
  rfl

end Order

/-! ## The targets -/

/-- The offsets that findings point to in an artifact. -/
def offsetsAt (db : Db) (runId artifactId : String) : List ℤ :=
  sortedSet (((db.locationsOf runId).filter fun l => l.artifactId == artifactId).filterMap
    FindingLocation.offset).toFinset

/-- An executable of the run with a finding at an offset. -/
structure Targetable (db : Db) (runId : String) (a : Artifact) : Prop where
  mem : a ∈ db.artifactsOf runId
  isExecutable : a.isExecutable = true
  offsets : offsetsAt db runId a.id ≠ []

/-- What such an executable makes, if its bytes were kept. -/
def IsTarget (db : Db) (runId : String) (t : BinaryTarget) : Prop :=
  ∃ a, Targetable db runId a ∧ a.storedAt? = some t.storageKey ∧ t.artifactId = a.id ∧
    t.pathInTree = a.pathInTree ∧ t.offsets = (offsetsAt db runId a.id).take maxOffsetsPerBinary

/-- Most offsets first, then path. -/
def BinaryTarget.rank (t : BinaryTarget) : ℤ ×ₗ String :=
  toLex (-(t.offsets.length : ℤ), t.pathInTree)

/-- The best targets were taken, and a note says what was not. -/
structure SelectsBest (db : Db) (runId : String) (targets : List BinaryTarget)
    (notes : List String) : Prop where
  isTarget : ∀ t ∈ targets, IsTarget db runId t
  nodup : (targets.map BinaryTarget.artifactId).Nodup
  ordered : targets.Pairwise fun t u => t.rank ≤ u.rank
  bounded : targets.length ≤ maxBinaries
  /-- What was left out is not better than what was taken, and there was no room for it. -/
  best : ∀ u, IsTarget db runId u → u ∉ targets →
    targets.length = maxBinaries ∧ ∀ t ∈ targets, t.rank ≤ u.rank
  /-- Every executable is a target, or a note says why it is not. -/
  accounted : ∀ a, Targetable db runId a → (∃ t ∈ targets, t.artifactId = a.id) ∨
    a.pathInTree ++ ": bytes not retained, so not analysed" ∈ notes ∨
    a.pathInTree ++ ": over the " ++ toString maxBinaries ++ "-binary cap" ∈ notes
  /-- Offsets that were left out are noted. -/
  cut : ∀ a, Targetable db runId a → a.storedAt?.isSome →
    maxOffsetsPerBinary < (offsetsAt db runId a.id).length →
      a.pathInTree ++ ": only the first " ++ toString maxOffsetsPerBinary
        ++ " offsets were analysed" ∈ notes

section Targets

variable {db : Db} {runId : String}

theorem mem_offsetsAt {artifactId : String} {offset : ℤ} : offset ∈ offsetsAt db runId artifactId ↔
    ∃ l ∈ db.locationsOf runId, l.artifactId = artifactId ∧ l.offset = some offset := by
  simp [offsetsAt, and_assoc]

theorem targetable_iff {a : Artifact} :
    Targetable db runId a ↔ a ∈ (targetRows db runId).map Prod.fst := by
  constructor
  · rintro ⟨hmem, hexec, hoffsets⟩
    obtain ⟨offset, hoffset⟩ := List.exists_mem_of_ne_nil _ hoffsets
    obtain ⟨l, hl, hid, hlo⟩ := mem_offsetsAt.mp hoffset
    exact List.mem_map.mpr ⟨(a, offset), mem_targetRows.mpr ⟨l, hl, hlo, hmem, hid, hexec⟩, rfl⟩
  · intro h
    obtain ⟨⟨b, offset⟩, hrow, rfl⟩ := List.mem_map.mp h
    obtain ⟨l, hl, hlo, hmem, hid, hexec⟩ := mem_targetRows.mp hrow
    exact ⟨hmem, hexec, List.ne_nil_of_mem (mem_offsetsAt.mpr ⟨l, hl, hid, hlo⟩)⟩

/-- The executables, each once. -/
theorem mem_described {a : Artifact} :
    a ∈ keepFirst Artifact.id ((targetRows db runId).map Prod.fst) ↔ Targetable db runId a := by
  refine ⟨fun h => targetable_iff.mpr (mem_of_mem_keepFirst h), fun h => ?_⟩
  obtain ⟨b, hb, hba⟩ := @exists_mem_keepFirst _ _ _ Artifact.id _ _ (targetable_iff.mp h)
  have hb' := targetable_iff.mpr (mem_of_mem_keepFirst hb)
  obtain rfl : b = a := db.artifacts.eq_of_key_eq (Table.mem_select.mp hb'.mem).1
    (Table.mem_select.mp h.mem).1 hba
  exact hb

theorem offsetsIn_eq {a : Artifact} (h : Targetable db runId a) :
    offsetsIn (targetRows db runId) a.id = offsetsAt db runId a.id := by
  refine eq_of_pairwise_key_lt (pairwise_sortedSet _) (pairwise_sortedSet _) fun offset => ?_
  rw [mem_offsetsAt, offsetsIn, mem_sortedSet, List.mem_toFinset, List.mem_map]
  constructor
  · rintro ⟨⟨b, offset⟩, hrow, rfl⟩
    obtain ⟨hrow, hid⟩ := List.mem_filter.mp hrow
    obtain ⟨l, hl, hlo, -, hlb, -⟩ := mem_targetRows.mp hrow
    exact ⟨l, hl, hlb.trans (by simpa using hid), hlo⟩
  · rintro ⟨l, hl, hid, hlo⟩
    refine ⟨(a, offset), List.mem_filter.mpr ⟨?_, beq_self_eq_true a.id⟩, rfl⟩
    exact mem_targetRows.mpr ⟨l, hl, hlo, h.mem, hid, h.isExecutable⟩

/-- The candidates, before the best of them are taken. -/
def candidates (db : Db) (runId : String) : List BinaryTarget :=
  sortBy BinaryTarget.rank ((keepFirst Artifact.id ((targetRows db runId).map Prod.fst)).filterMap
    (targetOf (targetRows db runId)))

theorem mem_candidates {t : BinaryTarget} : t ∈ candidates db runId ↔ IsTarget db runId t := by
  rw [candidates, mem_sortBy, List.mem_filterMap]
  constructor
  · rintro ⟨a, ha, ht⟩
    have htarget := mem_described.mp ha
    obtain ⟨storageKey, hkey, rfl⟩ := Option.map_eq_some_iff.mp ht
    exact ⟨a, htarget, hkey, rfl, rfl, by rw [offsetsIn_eq htarget]⟩
  · rintro ⟨a, htarget, hkey, hid, hpath, hoffsets⟩
    refine ⟨a, mem_described.mpr htarget, ?_⟩
    rw [targetOf, hkey, Option.map_some, offsetsIn_eq htarget, ← hoffsets, ← hid, ← hpath]

/-- What some of a list make has keys among those of the list. -/
theorem map_filterMap_sublist {α β κ : Type} {f : α → Option β} {key : α → κ} {key' : β → κ}
    (h : ∀ a b, f a = some b → key' b = key a) (l : List α) :
    ((l.filterMap f).map key').Sublist (l.map key) := by
  induction l with
  | nil => exact List.Sublist.slnil
  | cons a l ih =>
    cases hb : f a with
    | none =>
      rw [List.filterMap_cons_none hb]
      exact ih.cons _
    | some b =>
      rw [List.filterMap_cons_some hb, List.map_cons, List.map_cons, h a b hb]
      exact ih.cons_cons _

theorem nodup_candidates : ((candidates db runId).map BinaryTarget.artifactId).Nodup := by
  refine ((sortBy_perm _ _).map _).nodup_iff.mpr ?_
  refine List.Nodup.sublist (map_filterMap_sublist (fun a t ht => ?_) _)
    (nodup_keys_keepFirst Artifact.id ((targetRows db runId).map Prod.fst))
  obtain ⟨storageKey, -, rfl⟩ := Option.map_eq_some_iff.mp ht
  rfl

theorem selectTargets_eq : (selectTargets db runId).1 = (candidates db runId).take maxBinaries :=
  rfl

theorem isTarget_of_mem {t : BinaryTarget} (ht : t ∈ (selectTargets db runId).1) :
    IsTarget db runId t := mem_candidates.mp (List.mem_of_mem_take ht)

theorem nodup_selectTargets : ((selectTargets db runId).1.map BinaryTarget.artifactId).Nodup :=
  nodup_candidates.sublist ((List.take_sublist _ _).map _)

theorem pairwise_offsets {t : BinaryTarget} (ht : t ∈ (selectTargets db runId).1) :
    t.offsets.Pairwise (· < ·) := by
  obtain ⟨a, -, -, -, -, hoffsets⟩ := isTarget_of_mem ht
  rw [hoffsets]
  exact (pairwise_sortedSet _).sublist (List.take_sublist _ _)

/-- What is not among the first stands after them. -/
theorem rank_le_of_not_mem_take {t u : BinaryTarget} (hu : u ∈ candidates db runId)
    (hnot : u ∉ (candidates db runId).take maxBinaries)
    (ht : t ∈ (candidates db runId).take maxBinaries) : t.rank ≤ u.rank := by
  have hsorted := pairwise_sortBy BinaryTarget.rank ((keepFirst Artifact.id
    ((targetRows db runId).map Prod.fst)).filterMap (targetOf (targetRows db runId)))
  rw [← candidates, ← List.take_append_drop maxBinaries (candidates db runId)] at hsorted
  rw [← List.take_append_drop maxBinaries (candidates db runId)] at hu
  obtain hu | hu := List.mem_append.mp hu
  · exact absurd hu hnot
  · exact (List.pairwise_append.mp hsorted).2.2 t ht u hu

theorem mem_notes_of_offsetNote {a : Artifact} {note : String} (h : Targetable db runId a)
    (hnote : offsetNote (targetRows db runId) a = some note) :
    note ∈ (selectTargets db runId).2 := by
  refine mem_sortBy.mpr (List.mem_append_left _ (List.mem_filterMap.mpr ⟨a, ?_, hnote⟩))
  exact mem_described.mpr h

theorem mem_notes_of_dropped {t : BinaryTarget} (ht : t ∈ candidates db runId)
    (hnot : t ∉ (selectTargets db runId).1) :
    t.pathInTree ++ ": over the " ++ toString maxBinaries ++ "-binary cap"
      ∈ (selectTargets db runId).2 := by
  refine mem_sortBy.mpr (List.mem_append_right _ (List.mem_map.mpr ⟨t, ?_, rfl⟩))
  rw [← List.take_append_drop maxBinaries (candidates db runId)] at ht
  exact (List.mem_append.mp ht).resolve_left hnot

end Targets

/-! ## The answer -/

section Answer

variable {db : Db} {runId : String} {d : Decoder} {tables : Tables}

theorem printable_orderToJson (levels : ℕ) {targets : List BinaryTarget}
    (h : ∀ t ∈ targets, ∀ offset ∈ t.offsets,
      (Nat.toDigits 10 offset.natAbs).length ≤ d.maxDigits) :
    d.Printable (levels + 4) (orderToJson targets) := by
  refine .obj fun field hfield => ?_
  obtain rfl := List.mem_singleton.mp hfield
  refine .arr fun v hv => ?_
  obtain ⟨t, ht, rfl⟩ := List.mem_map.mp hv
  refine .obj fun field hfield => ?_
  simp only [List.mem_cons, List.not_mem_nil, or_false] at hfield
  obtain rfl | rfl := hfield
  · exact .str _
  · refine .arr fun v hv => ?_
    obtain ⟨offset, hoffset, rfl⟩ := List.mem_map.mp hv
    exact .int (h t ht offset hoffset)

/-- The container parses what the host wrote. -/
theorem loads_orderText (hlevels : 4 ≤ d.levels) {targets : List BinaryTarget}
    (h : ∀ t ∈ targets, ∀ offset ∈ t.offsets,
      (Nat.toDigits 10 offset.natAbs).length ≤ d.maxDigits) :
    d.loads (orderText targets) = .ok (orderToJson targets).sortKeys := by
  obtain ⟨levels, hlevels⟩ : ∃ n, d.levels = n + 4 := ⟨d.levels - 4, by omega⟩
  exact d.loads_dumps_self { sorted := true } (hlevels ▸ printable_orderToJson levels h)

/-- The paths of the entries of the order, each once. -/
theorem paths_workOrder {entries : List (String × List ℤ)}
    (h : workOrder tables (orderToJson (selectTargets db runId).1).sortKeys = .ok entries) :
    (entries.map Prod.fst).Pairwise (· < ·) ∧ ∀ path, path ∈ entries.map Prod.fst ↔
      ∃ t ∈ (selectTargets db runId).1, t.artifactId = path ∧ ¬Unusable path := by
  have hle := pairwise_workOrder h
  rw [workOrder_orderToJson fun t ht => pairwise_offsets ht] at h
  have hperm : entries.Perm (((selectTargets db runId).1.filter
      fun t => ¬Unusable t.stagedPath).map BinaryTarget.entry) := by
    rw [← Except.ok.inj h]
    exact sortBy_perm _ _
  have hpaths := hperm.map Prod.fst
  rw [List.map_map] at hpaths
  constructor
  · have hnd : (entries.map Prod.fst).Nodup := by
      refine hpaths.nodup_iff.mpr ?_
      exact nodup_selectTargets.sublist (List.filter_sublist.map _)
    exact ((List.pairwise_map.mpr hle).and hnd).imp fun h => lt_of_le_of_ne h.1 h.2
  · intro path
    rw [hpaths.mem_iff, List.mem_map]
    constructor
    · rintro ⟨t, ht, rfl⟩
      obtain ⟨ht, husable⟩ := List.mem_filter.mp ht
      exact ⟨t, ht, rfl, of_decide_eq_true husable⟩
    · rintro ⟨t, ht, rfl, husable⟩
      exact ⟨t, List.mem_filter.mpr ⟨ht, decide_eq_true husable⟩, rfl⟩

/-- A run in which Ghidra gives no result in time. -/
def timesOut : Surroundings where
  start := 0
  now _ := 0
  isFile _ := .ok true
  outcome _ := { exitCode := none, output := "", timedOut := true }
  output _ := .missing
  durationS _ := 3 / 2

/-- …and what it gives for the broker. -/
def brokerInTime : BinaryResult where
  path := "root"
  status := "timeout"
  reason := some "no result within 2s"
  durationS := some (3 / 2)

end Answer

/-! ## What is written of it -/

/-- The function a location is to get: the one resolved at its offset in its artifact, if the artifact
was asked for, as it is stored. -/
def arrivingAt (lib : Enricher) (result : GhidraResult) (targets : List BinaryTarget)
    (runId : String) (l : FindingLocation) : Option String :=
  if l.runId = runId ∧ l.artifactId ∈ targets.map BinaryTarget.artifactId then
    (l.offset.bind fun offset => (Dict.get? result.xrefFunctions (l.artifactId, offset)).map
      (redactedTo lib 255)).filter fun function => function != ""
  else none

section Written

variable {lib : Enricher} {db : Db} {stage : RunStage} {targets : List BinaryTarget}
  {notes : List String} {result : GhidraResult}

theorem Dict.get?_entries {κ β : Type*} [DecidableEq κ] (dict : Dict κ β) (key : κ) :
    Dict.get? dict.entries key = Dict.get? dict key := by
  cases hentry : Dict.get? dict.entries key with
  | some v => exact (Dict.mem_entries.mp (Dict.mem_of_get?_eq_some hentry)).symm
  | none =>
    refine Eq.symm (Option.eq_none_iff_forall_ne_some.mpr fun v hv => ?_)
    obtain ⟨w, hw⟩ := Dict.exists_get?_of_mem (Dict.mem_entries.mpr hv)
    rw [hw] at hentry
    cases hentry

theorem get?_artifactByPath (path : String) :
    Dict.get? (targets.map fun t => (t.stagedPath, t.artifactId)) path
      = if path ∈ targets.map BinaryTarget.artifactId then some path else none := by
  split
  · rename_i hpath
    obtain ⟨t, ht, rfl⟩ := List.mem_map.mp hpath
    obtain ⟨id, hid⟩ := Dict.exists_get?_of_mem (List.mem_map_of_mem
      (f := fun t : BinaryTarget => (t.stagedPath, t.artifactId)) ht)
    obtain ⟨u, -, hu⟩ := List.mem_map.mp (Dict.mem_of_get?_eq_some hid)
    have hsame : u.artifactId = t.artifactId := (Prod.mk.inj hu).1
    have hvalue : u.artifactId = id := (Prod.mk.inj hu).2
    exact hid.trans (congrArg some (hvalue.symm.trans hsame))
  · rename_i hpath
    refine Option.eq_none_iff_forall_ne_some.mpr fun id hid => hpath ?_
    obtain ⟨u, hu, heq⟩ := List.mem_map.mp (Dict.mem_of_get?_eq_some hid)
    exact List.mem_map.mpr ⟨u, hu, (Prod.mk.inj heq).1⟩

/-- **What is wanted is what was resolved**, at the artifacts that were asked for. -/
theorem get?_wantedFunctions (key : String × ℤ) :
    Dict.get? (wantedFunctions lib result (targets.map fun t => (t.stagedPath, t.artifactId))) key
      = if key.1 ∈ targets.map BinaryTarget.artifactId then
          (Dict.get? result.xrefFunctions key).map (redactedTo lib 255)
        else none := by
  have hwanted : wantedFunctions lib result (targets.map fun t => (t.stagedPath, t.artifactId))
      = (result.xrefFunctions.entries.filter fun entry =>
          decide (entry.1.1 ∈ targets.map BinaryTarget.artifactId)).map fun entry =>
            (entry.1, redactedTo lib 255 entry.2) := by
    rw [wantedFunctions]
    induction result.xrefFunctions.entries with
    | nil => rfl
    | cons entry entries ih =>
      by_cases h : entry.1.1 ∈ targets.map BinaryTarget.artifactId
      · rw [List.filter_cons, if_pos (decide_eq_true h), List.map_cons,
          List.filterMap_cons_some (by rw [get?_artifactByPath, if_pos h]; rfl), ih]
      · rw [List.filter_cons, if_neg (by simpa using h),
          List.filterMap_cons_none (by rw [get?_artifactByPath, if_neg h]; rfl), ih]
  rw [hwanted]
  have hmap := Dict.get?_mapValues (result.xrefFunctions.entries.filter fun entry =>
    decide (entry.1.1 ∈ targets.map BinaryTarget.artifactId)) (redactedTo lib 255) key
  rw [hmap]
  by_cases h : key.1 ∈ targets.map BinaryTarget.artifactId
  · rw [if_pos h, Dict.get?_filter _ (fun k : String × ℤ =>
      decide (k.1 ∈ targets.map BinaryTarget.artifactId)) (decide_eq_true h), Dict.get?_entries]
  · rw [if_neg h, Option.map_eq_none_iff]
    refine Option.eq_none_iff_forall_ne_some.mpr fun v hv => h ?_
    exact of_decide_eq_true (List.mem_filter.mp (Dict.mem_of_get?_eq_some hv)).2

theorem functionFor_wantedFunctions (runId : String) (l : FindingLocation) :
    functionFor runId (wantedFunctions lib result
      (targets.map fun t => (t.stagedPath, t.artifactId))) l
      = arrivingAt lib result targets runId l := by
  rw [functionFor, arrivingAt]
  by_cases hrun : l.runId = runId
  · cases hoffset : l.offset with
    | none => simp
    | some offset =>
      by_cases hid : l.artifactId ∈ targets.map BinaryTarget.artifactId
      · rw [if_pos ⟨hrun, rfl⟩, if_pos ⟨hrun, hid⟩, get?_wantedFunctions, if_pos hid]
        rfl
      · rw [if_pos ⟨hrun, rfl⟩, if_neg fun h => hid h.2, get?_wantedFunctions, if_neg hid]
        rfl
  · rw [if_neg fun h => hrun h.1, if_neg fun h => hrun h.1]

end Written

end BareAnalysis
