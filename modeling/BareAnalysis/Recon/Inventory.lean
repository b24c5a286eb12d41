import BareAnalysis.Recon.Sweep
import Mathlib.Algebra.BigOperators.Group.List.Basic

/-!
# Recon/Inventory — what the inventory says

    total     how many strings a probe claims          distinct   how many values it reports of them
    samples   its rare values, the rarest first, each with the place it was first found at

`addsUp_iff` says when the inventory is that: a first sample is taken even where none is asked for.
-/

namespace BareAnalysis.Recon

section Meaning

variable (search : String → String → Option String)

/-- The first probe that matches a string. -/
def firstMatch (e : Extracted) : Option String :=
  probes.find? fun name => (search name e.value).isSome

/-- What a probe reports of a string, if it is the first that matches. -/
def valueIn (name : String) (e : Extracted) : Option String :=
  if firstMatch search e = some name then (search name e.value).map cut else none

variable (strings : List Extracted)

/-- All that a probe reports. -/
def valuesIn (name : String) : List String := strings.filterMap (valueIn search name)

/-- How often a value is reported. -/
def occurrences (name v : String) : ℕ := (valuesIn search strings name).count v

/-- The values that are no commonplaces, the rarest first, then by themselves. -/
def rareValues (name : String) : List String :=
  sortBy (fun v => toLex (occurrences search strings name v, v))
    ((valuesIn search strings name).dedup.filter
      fun v => occurrences search strings name v ≤ ubiquityThreshold)

/-- The place is that of the first string a value is reported of. -/
def FirstAt (name v : String) (place : Place) : Prop :=
  ∃ before e after, strings = before ++ e :: after ∧ valueIn search name e = some v ∧
    (∀ b ∈ before, valueIn search name b ≠ some v) ∧ place = e.toPlace

/-- A category without the places of its samples… -/
def ReconCategory.unplaced (c : ReconCategory) : ReconCategory :=
  { c with samples := c.samples.map fun s => { s with place := default } }

/-- …and an inventory. -/
def ReconInventory.unplaced (inventory : ReconInventory) : ReconInventory :=
  { inventory with categories := inventory.categories.map ReconCategory.unplaced }

/-- **The inventory adds up.** -/
structure AddsUp (maxPerCategory : ℤ) : Prop where
  names : (sweep search strings maxPerCategory).categories.map (·.name)
    = probes.filter fun name => strings.any fun e => firstMatch search e = some name
  totals : ∀ c ∈ (sweep search strings maxPerCategory).categories,
    c.total = strings.countP fun e => firstMatch search e = some c.name
  sum : ((sweep search strings maxPerCategory).categories.map (·.total)).sum
    = strings.countP fun e => probes.any fun name => (search name e.value).isSome
  distinct : ∀ c ∈ (sweep search strings maxPerCategory).categories,
    c.distinct = (valuesIn search strings c.name).toFinset.card
  files : (sweep search strings maxPerCategory).filesScanned
    = (strings.map fun e => e.path).toFinset.card
  samples : ∀ c ∈ (sweep search strings maxPerCategory).categories,
    c.samples.map (fun s => (s.value, s.occurrences))
      = ((rareValues search strings c.name).take maxPerCategory.toNat).map
        fun v => (v, occurrences search strings c.name v)
  places : ∀ c ∈ (sweep search strings maxPerCategory).categories, ∀ s ∈ c.samples,
    FirstAt search strings c.name s.value s.place
  orderFree : ∀ strings', strings'.Perm strings →
    (sweep search strings' maxPerCategory).unplaced
      = (sweep search strings maxPerCategory).unplaced

end Meaning

/-! ## The loop -/

section Loop

variable {search : String → String → Option String} {strings : List Extracted}

theorem claim_eq_some {e : Extracted} {name found : String} :
    claim search e.value = some (name, found) ↔ valueIn search name e = some found := by
  have hnames : ∀ names : List String,
      (names.findSome? fun name => (search name e.value).map fun found => (name, cut found))
        = (names.find? fun name => (search name e.value).isSome).bind
          fun name => (search name e.value).map fun found => (name, cut found) := by
    intro names
    induction names with
    | nil => rfl
    | cons n names ih =>
      rw [List.findSome?_cons, List.find?_cons]
      cases hn : search n e.value with
      | none => exact ih
      | some found => simp [hn]
  rw [claim, hnames, valueIn, firstMatch, Option.bind_eq_some_iff]
  constructor
  · rintro ⟨n, hn, h⟩
    obtain ⟨f, hf, heq⟩ := Option.map_eq_some_iff.mp h
    obtain ⟨rfl, rfl⟩ := Prod.mk.inj heq
    rw [if_pos hn, hf]
    rfl
  · intro h
    by_cases hn : (probes.find? fun name => (search name e.value).isSome) = some name
    · rw [if_pos hn] at h
      obtain ⟨f, hf, rfl⟩ := Option.map_eq_some_iff.mp h
      exact ⟨name, hn, by rw [hf]; rfl⟩
    · rw [if_neg hn] at h
      cases h

/-- A string that a probe is the first to match is reported. -/
theorem isSome_valueIn {name : String} {e : Extracted} :
    (valueIn search name e).isSome = true ↔ firstMatch search e = some name := by
  rw [valueIn]
  split
  · rename_i h
    have hsome : (search name e.value).isSome = true := by simpa using List.find?_some h
    simpa [h] using hsome
  · rename_i h
    exact iff_of_false Bool.false_ne_true h

theorem tally_concat (e : Extracted) :
    tally search (strings ++ [e]) = tallyStep search (tally search strings) e := by
  rw [tally, List.foldl_append]
  rfl

theorem valuesIn_concat (e : Extracted) (name : String) :
    valuesIn search (strings ++ [e]) name
      = valuesIn search strings name ++ (valueIn search name e).toList := by
  rw [valuesIn, List.filterMap_append, valuesIn]
  cases h : valueIn search name e <;> simp [h]

/-- **The counters hold what the probes report**… -/
theorem counters_tally (name : String) :
    (tally search strings).counters name = countBy id (valuesIn search strings name) := by
  induction strings using List.reverseRecOn with
  | nil => rfl
  | append_singleton strings e ih =>
    rw [tally_concat, valuesIn_concat, tallyStep]
    cases hclaim : claim search e.value with
    | none =>
      have hnone : valueIn search name e = none := by
        refine Option.eq_none_iff_forall_not_mem.mpr fun v hv => ?_
        rw [claim_eq_some.mpr hv] at hclaim
        cases hclaim
      rw [hnone]
      simpa using ih
    | some c =>
      obtain ⟨name', found⟩ := c
      have hvalue := claim_eq_some.mp hclaim
      dsimp only
      by_cases hname : name = name'
      · rw [hname, Function.update_self, hvalue, Option.toList_some, countBy_concat, ← hname, ih]
        rfl
      · have hnone : valueIn search name e = none := by
          refine Option.eq_none_iff_forall_not_mem.mpr fun v hv => hname ?_
          have hfirst := isSome_valueIn.mp (Option.isSome_iff_exists.mpr ⟨v, hv⟩)
          have hfirst' := isSome_valueIn.mp (Option.isSome_iff_exists.mpr ⟨found, hvalue⟩)
          exact Option.some.inj (hfirst.symm.trans hfirst')
        rw [Function.update_of_ne hname, hnone]
        simpa using ih

/-- …the locations the first string each is reported of… -/
theorem locations_tally (name v : String) :
    Dict.get? ((tally search strings).locations name) v
      = (strings.find? fun e => valueIn search name e = some v).map Extracted.toPlace := by
  induction strings using List.reverseRecOn with
  | nil => rfl
  | append_singleton strings e ih =>
    rw [tally_concat, List.find?_append, Option.map_or, ← ih, tallyStep]
    cases hclaim : claim search e.value with
    | none =>
      have hnone : ¬valueIn search name e = some v := fun hv => by
        rw [claim_eq_some.mpr hv] at hclaim
        cases hclaim
      simp [hnone]
    | some c =>
      obtain ⟨name', found⟩ := c
      have hvalue : valueIn search name e = some v ↔ name' = name ∧ found = v := by
        rw [← claim_eq_some, hclaim, Option.some.injEq, Prod.mk.injEq]
      dsimp only
      by_cases hname : name = name'
      · subst hname
        rw [Function.update_self, Dict.get?_setDefault]
        by_cases hfound : found = v
        · simp [hfound, hvalue.mpr ⟨rfl, hfound⟩]
        · simp [hvalue, hfound]
      · rw [Function.update_of_ne hname]
        have hnone : ¬valueIn search name e = some v := fun h => hname (hvalue.mp h).1.symm
        simp [hnone]

/-- …and the files every path. -/
theorem files_tally :
    (tally search strings).files = (strings.map fun e => e.path).toFinset := by
  induction strings using List.reverseRecOn with
  | nil => rfl
  | append_singleton strings e ih =>
    have hstep : (tally search (strings ++ [e])).files
        = insert e.path (tally search strings).files := by
      rw [tally_concat, tallyStep]
      cases claim search e.value <;> rfl
    rw [hstep, ih, List.map_append, List.map_singleton]
    ext path
    simp

end Loop

/-! ## The samples -/

section Samples

/-- **The loop over the ranked values**: at least one sample is taken. -/
theorem samplesFrom_eq (locations : Dict String Place) (maxPerCategory : ℤ)
    (ranked : List (String × ℕ)) (samples : List Sample) :
    samplesFrom locations maxPerCategory ranked samples
      = samples ++ ((ranked.filter fun kv => kv.2 ≤ ubiquityThreshold).take
          (max 1 (maxPerCategory.toNat - samples.length))).map
        fun kv => ⟨kv.1, kv.2, (Dict.get? locations kv.1).getD default⟩ := by
  induction ranked generalizing samples with
  | nil => simp [samplesFrom]
  | cons kv ranked ih =>
    obtain ⟨found, occurrences⟩ := kv
    rw [samplesFrom]
    by_cases hrare : ubiquityThreshold < occurrences
    · rw [if_pos hrare, ih, List.filter_cons_of_neg (by simpa using hrare)]
    · rw [if_neg hrare, List.filter_cons_of_pos (by simpa using hrare)]
      dsimp only
      rw [List.length_append, List.length_singleton]
      split
      · rename_i hfull
        have hone : max 1 (maxPerCategory.toNat - samples.length) = 1 := by omega
        rw [hone]
        rfl
      · rename_i hroom
        have hsucc : max 1 (maxPerCategory.toNat - samples.length)
            = max 1 (maxPerCategory.toNat - (samples.length + 1)) + 1 := by omega
        rw [ih, List.length_append, List.length_singleton, hsucc, List.take_succ_cons,
          List.map_cons, List.append_assoc]
        rfl

variable {search : String → String → Option String} {strings : List Extracted} {name : String}

theorem mem_counter {v : String} {n : ℕ} :
    (v, n) ∈ countBy id (valuesIn search strings name) ↔
      n = occurrences search strings name v ∧ v ∈ valuesIn search strings name := by
  rw [mem_countBy, occurrences, List.count_eq_countP]
  have hcount : ((valuesIn search strings name).countP fun a => decide (id a = v))
      = (valuesIn search strings name).countP (· == v) :=
    List.countP_congr fun a _ => by simp
  rw [hcount]
  refine and_congr_right fun hn => ?_
  rw [hn, ← List.count_eq_countP, List.count_pos_iff]

/-- **The rare values, ranked.** -/
theorem ranked_eq :
    ((sortBy (fun kv => toLex (kv.2, kv.1)) (countBy id (valuesIn search strings name))).filter
        fun kv => kv.2 ≤ ubiquityThreshold)
      = (rareValues search strings name).map
        fun v => (v, occurrences search strings name v) := by
  set pair : String → String × ℕ := fun v => (v, occurrences search strings name v)
  have hpair : Function.Injective pair := fun v w h => (Prod.mk.inj h).1
  have hkey : ∀ kv kv' : String × ℕ, toLex (kv.2, kv.1) = toLex (kv'.2, kv'.1) → kv = kv' :=
    fun kv kv' h => Prod.ext (Prod.mk.inj (toLex.injective h)).2 (Prod.mk.inj (toLex.injective h)).1
  rw [filter_sortBy, rareValues, map_sortBy _ (fun kv => toLex (kv.2, kv.1)) pair _
    fun v _ w _ => Iff.rfl]
  refine sortBy_eq_of_perm ?_ fun kv _ kv' _ h => hkey kv kv' h
  refine (List.perm_ext_iff_of_nodup ?_ ?_).mpr fun kv => ?_
  · exact ((nodup_keys_countBy id _).of_map Prod.fst).filter _
  · exact ((List.nodup_dedup _).filter _).map hpair
  · obtain ⟨v, n⟩ := kv
    rw [List.mem_filter, mem_counter, List.mem_map]
    constructor
    · rintro ⟨⟨rfl, hv⟩, hrare⟩
      exact ⟨v, List.mem_filter.mpr ⟨List.mem_dedup.mpr hv, hrare⟩, rfl⟩
    · rintro ⟨w, hw, heq⟩
      obtain ⟨rfl, rfl⟩ := Prod.mk.inj heq
      obtain ⟨hw, hrare⟩ := List.mem_filter.mp hw
      exact ⟨⟨rfl, List.mem_dedup.mp hw⟩, hrare⟩

end Samples

/-! ## The categories -/

section Categories

variable (search : String → String → Option String) (strings : List Extracted)

/-- The place a value was first found at. -/
def firstPlace (name v : String) : Place :=
  ((strings.find? fun e => valueIn search name e = some v).map Extracted.toPlace).getD default

/-- A category, from what its probe reports. -/
def category (maxPerCategory : ℤ) (probe : String × String) : ReconCategory where
  name := probe.1
  rationale := probe.2
  total := (valuesIn search strings probe.1).length
  distinct := (valuesIn search strings probe.1).dedup.length
  samples := ((rareValues search strings probe.1).take (max 1 maxPerCategory.toNat)).map
    fun v => ⟨v, occurrences search strings probe.1 v, firstPlace search strings probe.1 v⟩

variable {search strings} {maxPerCategory : ℤ}

theorem categoryOf_tally (probe : String × String) :
    categoryOf (tally search strings) maxPerCategory probe
      = if valuesIn search strings probe.1 = [] then none
        else some (category search strings maxPerCategory probe) := by
  have hempty : countBy id (valuesIn search strings probe.1) = [] ↔
      valuesIn search strings probe.1 = [] := by
    rw [← List.length_eq_zero_iff, length_countBy, List.length_eq_zero_iff, List.map_id,
      List.dedup_eq_nil]
  rw [categoryOf, counters_tally]
  by_cases hvalues : valuesIn search strings probe.1 = []
  · rw [if_pos (hempty.mpr hvalues), if_pos hvalues]
  · rw [if_neg (mt hempty.mp hvalues), if_neg hvalues, sum_countBy, length_countBy, List.map_id,
      samplesFrom_eq, ranked_eq, List.nil_append, List.length_nil, Nat.sub_zero, ← List.map_take,
      List.map_map, category]
    simp only [locations_tally, Function.comp_def, firstPlace]

theorem categories_sweep :
    (sweep search strings maxPerCategory).categories
      = (sweeps.filter fun probe => valuesIn search strings probe.1 ≠ []).map
          (category search strings maxPerCategory) := by
  have hall : ∀ l : List (String × String),
      l.filterMap (categoryOf (tally search strings) maxPerCategory)
        = (l.filter fun probe => valuesIn search strings probe.1 ≠ []).map
            (category search strings maxPerCategory) := by
    intro l
    induction l with
    | nil => rfl
    | cons probe l ih =>
      rw [List.filterMap_cons, categoryOf_tally]
      by_cases h : valuesIn search strings probe.1 = []
      · simpa [h] using ih
      · simpa [h] using ih
  exact hall sweeps

/-- A probe claims a string if it reports something. -/
theorem valuesIn_ne_nil {name : String} : valuesIn search strings name ≠ [] ↔
    (strings.any fun e => decide (firstMatch search e = some name)) = true := by
  rw [List.any_eq_true]
  constructor
  · intro h
    obtain ⟨v, hv⟩ := List.exists_mem_of_ne_nil _ h
    obtain ⟨e, he, hv⟩ := List.mem_filterMap.mp hv
    exact ⟨e, he, decide_eq_true (isSome_valueIn.mp (Option.isSome_iff_exists.mpr ⟨v, hv⟩))⟩
  · rintro ⟨e, he, hfirst⟩
    obtain ⟨v, hv⟩ := Option.isSome_iff_exists.mp (isSome_valueIn.mpr (of_decide_eq_true hfirst))
    exact List.ne_nil_of_mem (List.mem_filterMap.mpr ⟨e, he, hv⟩)

theorem length_valuesIn (name : String) : (valuesIn search strings name).length
    = strings.countP fun e => firstMatch search e = some name := by
  rw [valuesIn, List.length_filterMap_eq_countP]
  refine List.countP_congr fun e _ => ?_
  rw [isSome_valueIn, decide_eq_true_eq]

theorem sum_indicator {α : Type} [DecidableEq α] (a : α) (l : List α) :
    (l.map fun b => if a = b then 1 else 0).sum = l.count a := by
  induction l with
  | nil => rfl
  | cons b l ih =>
    rw [List.map_cons, List.sum_cons, ih, List.count_cons, add_comm]
    exact congrArg _ (if_congr (by rw [beq_iff_eq, eq_comm]) rfl rfl)

/-- One probe at most is the first to match a string. -/
theorem sum_firstMatch (e : Extracted) :
    (probes.map fun name => if firstMatch search e = some name then 1 else 0).sum
      = if probes.any fun name => (search name e.value).isSome then 1 else 0 := by
  have hnodup : probes.Nodup := by decide
  cases hfirst : firstMatch search e with
  | none =>
    have hany : ¬(probes.any fun name => (search name e.value).isSome) = true := by
      rw [List.any_eq_true]
      rintro ⟨name, hname, hsome⟩
      exact List.find?_eq_none.mp hfirst name hname hsome
    rw [if_neg hany]
    simp
  | some first =>
    have hsome : (search first e.value).isSome = true := by simpa using List.find?_some hfirst
    have hmem : first ∈ probes := List.mem_of_find?_eq_some hfirst
    rw [if_pos (List.any_eq_true.mpr ⟨first, hmem, hsome⟩)]
    simp only [Option.some.injEq]
    rw [sum_indicator, List.count_eq_one_of_mem hnodup hmem]

/-- **Every string is claimed by one probe, or none matches.** -/
theorem sum_totals :
    (probes.map fun name => strings.countP fun e => firstMatch search e = some name).sum
      = strings.countP fun e => probes.any fun name => (search name e.value).isSome := by
  induction strings with
  | nil => simp
  | cons e strings ih =>
    simp only [List.countP_cons, decide_eq_true_eq]
    rw [List.sum_map_add, ih, sum_firstMatch]

end Categories

/-! ## Adding up -/

section Main

variable {search : String → String → Option String} {strings strings' : List Extracted}
  {maxPerCategory : ℤ}

theorem find?_eq_some_iff_first {p : Extracted → Bool} {e : Extracted} :
    strings.find? p = some e ↔
      ∃ before after, strings = before ++ e :: after ∧ p e = true ∧ ∀ b ∈ before, p b = false := by
  rw [List.find?_eq_some_iff_append]
  constructor
  · rintro ⟨hp, before, after, rfl, hbefore⟩
    exact ⟨before, after, rfl, hp, fun b hb => by simpa using hbefore b hb⟩
  · rintro ⟨before, after, rfl, hp, hbefore⟩
    exact ⟨hp, before, after, rfl, fun b hb => by simpa using hbefore b hb⟩

/-- A value that is reported has a first place. -/
theorem firstAt_firstPlace {name v : String} (hv : v ∈ valuesIn search strings name) :
    FirstAt search strings name v (firstPlace search strings name v) := by
  obtain ⟨e, he, hv⟩ := List.mem_filterMap.mp hv
  have hsome : (strings.find? fun e => decide (valueIn search name e = some v)).isSome = true := by
    rw [List.find?_isSome]
    exact ⟨e, he, decide_eq_true hv⟩
  obtain ⟨first, hfirst⟩ := Option.isSome_iff_exists.mp hsome
  obtain ⟨before, after, hstrings, hreports, hbefore⟩ := find?_eq_some_iff_first.mp hfirst
  refine ⟨before, first, after, hstrings, of_decide_eq_true hreports, fun b hb => ?_, ?_⟩
  · exact of_decide_eq_false (hbefore b hb)
  · rw [firstPlace, hfirst]
    rfl

theorem rareValues_perm (h : strings'.Perm strings) (name : String) :
    rareValues search strings' name = rareValues search strings name := by
  have hvalues : (valuesIn search strings' name).Perm (valuesIn search strings name) :=
    h.filterMap _
  have hocc : occurrences search strings' name = occurrences search strings name :=
    funext fun v => hvalues.count_eq v
  rw [rareValues, rareValues, hocc]
  refine sortBy_eq_of_perm ((hvalues.dedup).filter _) fun v _ w _ hvw => ?_
  exact (Prod.mk.inj (toLex.injective hvw)).2

/-- **But for the places, the inventory does not depend on the order of the strings.** -/
theorem unplaced_perm (h : strings'.Perm strings) :
    (sweep search strings' maxPerCategory).unplaced
      = (sweep search strings maxPerCategory).unplaced := by
  have hvalues : ∀ name, (valuesIn search strings' name).Perm (valuesIn search strings name) :=
    fun name => h.filterMap _
  have hnil : ∀ name, valuesIn search strings' name ≠ [] ↔ valuesIn search strings name ≠ [] :=
    fun name => not_congr ⟨fun hn => (hn ▸ hvalues name).nil_eq.symm,
      fun hn => (hn ▸ hvalues name).eq_nil⟩
  have hfiles : (sweep search strings' maxPerCategory).filesScanned
      = (sweep search strings maxPerCategory).filesScanned := by
    change (tally search strings').files.card = (tally search strings).files.card
    rw [files_tally, files_tally, List.toFinset_eq_of_perm _ _ (h.map _)]
  have hcategory : ∀ probe, (category search strings' maxPerCategory probe).unplaced
      = (category search strings maxPerCategory probe).unplaced := by
    intro probe
    simp only [ReconCategory.unplaced, category, rareValues_perm h, List.map_map,
      (hvalues probe.1).length_eq, ((hvalues probe.1).dedup).length_eq, Function.comp_def,
      occurrences, (hvalues probe.1).count_eq]
  have hfilter : (sweeps.filter fun probe => valuesIn search strings' probe.1 ≠ [])
      = sweeps.filter fun probe => valuesIn search strings probe.1 ≠ [] :=
    List.filter_congr fun probe _ => by simp only [hnil]
  rw [ReconInventory.unplaced, ReconInventory.unplaced, categories_sweep, categories_sweep,
    List.map_map, List.map_map, hfilter, hfiles]
  congr 1
  exact List.map_congr_left fun probe _ => hcategory probe

theorem mem_categories {c : ReconCategory} :
    c ∈ (sweep search strings maxPerCategory).categories ↔
      ∃ probe ∈ sweeps, valuesIn search strings probe.1 ≠ [] ∧
        c = category search strings maxPerCategory probe := by
  rw [categories_sweep, List.mem_map]
  constructor
  · rintro ⟨probe, hprobe, rfl⟩
    obtain ⟨hprobe, hvalues⟩ := List.mem_filter.mp hprobe
    exact ⟨probe, hprobe, of_decide_eq_true hvalues, rfl⟩
  · rintro ⟨probe, hprobe, hvalues, rfl⟩
    exact ⟨probe, List.mem_filter.mpr ⟨hprobe, decide_eq_true hvalues⟩, rfl⟩

theorem names_sweep : (sweep search strings maxPerCategory).categories.map (·.name)
    = probes.filter fun name => strings.any fun e => firstMatch search e = some name := by
  have hfilter : (sweeps.filter fun probe => valuesIn search strings probe.1 ≠ [])
      = sweeps.filter ((fun name => strings.any fun e => decide (firstMatch search e = some name))
          ∘ Prod.fst) := by
    refine List.filter_congr fun probe _ => ?_
    rw [Function.comp_apply, Bool.eq_iff_iff, decide_eq_true_eq]
    exact valuesIn_ne_nil
  rw [categories_sweep, List.map_map, probes, List.filter_map, hfilter]
  rfl

theorem sum_sweep : ((sweep search strings maxPerCategory).categories.map (·.total)).sum
    = strings.countP fun e => probes.any fun name => (search name e.value).isSome := by
  have hall : ∀ l : List (String × String),
      (((l.filter fun probe => valuesIn search strings probe.1 ≠ []).map
        (category search strings maxPerCategory)).map (·.total)).sum
        = ((l.map Prod.fst).map fun name =>
          strings.countP fun e => firstMatch search e = some name).sum := by
    intro l
    induction l with
    | nil => rfl
    | cons probe l ih =>
      rw [List.map_cons, List.map_cons, List.sum_cons, ← ih, ← length_valuesIn]
      by_cases h : valuesIn search strings probe.1 = []
      · rw [List.filter_cons_of_neg (by simpa using h), h, List.length_nil, Nat.zero_add]
      · rw [List.filter_cons_of_pos (by simpa using h), List.map_cons, List.map_cons,
          List.sum_cons]
        rfl
  rw [categories_sweep, hall, ← sum_totals]
  rfl

/-- A probe that reports is one of the ten. -/
theorem exists_probe {name v : String} (hv : v ∈ valuesIn search strings name) :
    ∃ probe ∈ sweeps, probe.1 = name := by
  obtain ⟨e, -, hv⟩ := List.mem_filterMap.mp hv
  have hfirst := isSome_valueIn.mp (Option.isSome_iff_exists.mpr ⟨v, hv⟩)
  exact List.mem_map.mp (List.mem_of_find?_eq_some hfirst)

theorem mem_rareValues {name v : String} : v ∈ rareValues search strings name ↔
    v ∈ valuesIn search strings name ∧
      occurrences search strings name v ≤ ubiquityThreshold := by
  rw [rareValues, mem_sortBy, List.mem_filter, List.mem_dedup, decide_eq_true_eq]

/-- **When the inventory adds up**: at least one sample may be taken, or no value is rare. -/
theorem addsUp_iff (search : String → String → Option String) (strings : List Extracted)
    (maxPerCategory : ℤ) : AddsUp search strings maxPerCategory ↔
      1 ≤ maxPerCategory ∨ ∀ name, ∀ v ∈ valuesIn search strings name,
        ubiquityThreshold < occurrences search strings name v := by
  constructor
  · intro h
    by_contra hnot
    obtain ⟨hmax, hrare⟩ := not_or.mp hnot
    push Not at hrare
    obtain ⟨name, v, hv, hrare⟩ := hrare
    obtain ⟨probe, hprobe, rfl⟩ := exists_probe hv
    have hsamples := h.samples _ (mem_categories.mpr ⟨probe, hprobe, List.ne_nil_of_mem hv, rfl⟩)
    have hzero : maxPerCategory.toNat = 0 := by omega
    rw [hzero, List.take_zero, List.map_nil, List.map_eq_nil_iff, category, List.map_eq_nil_iff,
      hzero] at hsamples
    have hmem : v ∈ rareValues search strings probe.1 := mem_rareValues.mpr ⟨hv, hrare⟩
    obtain ⟨w, rest, hrest⟩ := List.exists_cons_of_ne_nil (List.ne_nil_of_mem hmem)
    rw [hrest] at hsamples
    cases hsamples
  · intro h
    refine ⟨names_sweep, fun c hc => ?_, sum_sweep, fun c hc => ?_, ?_, fun c hc => ?_,
      fun c hc s hs => ?_, fun strings' hperm => unplaced_perm hperm⟩
    · obtain ⟨probe, -, -, rfl⟩ := mem_categories.mp hc
      exact length_valuesIn probe.1
    · obtain ⟨probe, -, -, rfl⟩ := mem_categories.mp hc
      exact (List.card_toFinset _).symm
    · exact congrArg Finset.card files_tally
    · obtain ⟨probe, -, -, rfl⟩ := mem_categories.mp hc
      have htake : (rareValues search strings probe.1).take (max 1 maxPerCategory.toNat)
          = (rareValues search strings probe.1).take maxPerCategory.toNat := by
        obtain hmax | hnone := h
        · have hone : max 1 maxPerCategory.toNat = maxPerCategory.toNat := by omega
          rw [hone]
        · have hrare : rareValues search strings probe.1 = [] :=
            List.eq_nil_iff_forall_not_mem.mpr fun v hv =>
              absurd (mem_rareValues.mp hv).2 (not_le.mpr (hnone _ v (mem_rareValues.mp hv).1))
          rw [hrare, List.take_nil, List.take_nil]
      rw [category, htake, List.map_map]
      rfl
    · obtain ⟨probe, -, -, rfl⟩ := mem_categories.mp hc
      obtain ⟨v, hv, rfl⟩ := List.mem_map.mp hs
      exact firstAt_firstPlace (mem_rareValues.mp (List.mem_of_mem_take hv)).1

/-- **No sample is asked for, and one is taken.** -/
theorem not_addsUp_zero :
    ¬AddsUp (fun name _ => if name = "assignment" then some "key=secret" else none)
      [⟨⟨"app.bin", 0, "ascii"⟩, "key=secret"⟩] 0 := by
  intro h
  have hsamples := h.samples ⟨"assignment", "Any name=value pair. The broadest sweep, and where "
    ++ "an unrecognised credential format shows up.", 1, 1,
    [⟨"key=secret", 1, "app.bin", 0, "ascii"⟩]⟩ (by decide +kernel)
  cases hsamples

end Main

end BareAnalysis.Recon
