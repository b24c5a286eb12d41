import Mathlib.Algebra.GroupWithZero.Nat
import Mathlib.Data.List.Dedup
import Mathlib.Data.List.Induction
import Mathlib.Data.List.Nodup
import Mathlib.Data.List.Perm.Subperm
import Mathlib.Tactic.Common

/-!
# Machinery/Dict — dictionaries, counters and groups built by a loop

A dictionary is the list of its assignments, in order: the last one for a key is the one read back.
`groupBy` is the loop `groups[key(item)].append(item)`; a `Group` holds its first item apart, so a
group without items cannot be built.
-/

namespace BareAnalysis

variable {α β κ : Type*}

/-- A dictionary, as the assignments that made it. -/
abbrev Dict (κ β : Type*) := List (κ × β)

variable [DecidableEq κ]

/-- `d.get(key)`: the last assignment wins. -/
def Dict.get? (d : Dict κ β) (key : κ) : Option β :=
  (d.reverse.find? fun kv => decide (kv.1 = key)).map Prod.snd

@[simp] theorem Dict.get?_nil (key : κ) : Dict.get? ([] : Dict κ β) key = none := rfl

theorem Dict.get?_concat (d : Dict κ β) (k : κ) (v : β) (key : κ) :
    Dict.get? (d ++ [(k, v)]) key = if k = key then some v else Dict.get? d key := by
  rw [Dict.get?, List.reverse_append, List.reverse_singleton, List.singleton_append,
    List.find?_cons]
  by_cases h : k = key
  · simp [h]
  · simp [h, Dict.get?]

theorem Dict.mem_of_get?_eq_some {d : Dict κ β} {key : κ} {v : β} (h : Dict.get? d key = some v) :
    (key, v) ∈ d := by
  obtain ⟨kv, hfind, rfl⟩ := Option.map_eq_some_iff.mp h
  have hk : kv.1 = key := by simpa using List.find?_some hfind
  have hmem : kv ∈ d := List.mem_reverse.mp (List.mem_of_find?_eq_some hfind)
  rwa [← hk]

/-- A key that is assigned is there. -/
theorem Dict.exists_get?_of_mem {d : Dict κ β} {kv : κ × β} (h : kv ∈ d) :
    ∃ v, Dict.get? d kv.1 = some v := by
  induction d using List.reverseRecOn with
  | nil => cases h
  | append_singleton d last ih =>
    rw [Dict.get?_concat]
    by_cases hkey : last.1 = kv.1
    · exact ⟨last.2, if_pos hkey⟩
    · obtain h | h := List.mem_append.mp h
      · rw [if_neg hkey]
        exact ih h
      · exact absurd (congrArg Prod.fst (List.mem_singleton.mp h)).symm hkey

/-- **Every assignment can be read back exactly if no key is assigned two values.** -/
theorem Dict.forall_get?_iff {d : Dict κ β} :
    (∀ kv ∈ d, Dict.get? d kv.1 = some kv.2) ↔
      ∀ kv ∈ d, ∀ kv' ∈ d, kv.1 = kv'.1 → kv.2 = kv'.2 := by
  constructor
  · intro h kv hkv kv' hkv' hkey
    have hsame := h kv hkv
    rw [hkey, h kv' hkv'] at hsame
    exact (Option.some.inj hsame).symm
  · intro h kv hkv
    obtain ⟨v, hv⟩ := Dict.exists_get?_of_mem hkv
    rw [hv, h kv hkv _ (Dict.mem_of_get?_eq_some hv) rfl]

/-- Other values, read back. -/
theorem Dict.get?_mapValues {γ : Type*} (d : Dict κ β) (f : β → γ) (key : κ) :
    Dict.get? (d.map fun kv => (kv.1, f kv.2)) key = (Dict.get? d key).map f := by
  induction d using List.reverseRecOn with
  | nil => rfl
  | append_singleton d kv ih =>
    rw [List.map_append, List.map_singleton, Dict.get?_concat, Dict.get?_concat, ih]
    split <;> rfl

/-- Other keys, read back; the one asked for gets a name of its own. -/
theorem Dict.get?_mapKeys {κ' : Type*} [DecidableEq κ'] {d : Dict κ β} {f : κ → κ'} {key : κ}
    (h : ∀ kv ∈ d, f kv.1 = f key → kv.1 = key) :
    Dict.get? (d.map fun kv => (f kv.1, kv.2)) (f key) = Dict.get? d key := by
  induction d using List.reverseRecOn with
  | nil => rfl
  | append_singleton d kv ih =>
    rw [List.map_append, List.map_singleton, Dict.get?_concat, Dict.get?_concat,
      ih fun kv' hkv' => h kv' (List.mem_append_left _ hkv')]
    refine if_congr ⟨fun hf => h kv (by simp) hf, fun hk => congrArg f hk⟩ rfl rfl

/-- `d.setdefault(key, value)`. -/
def Dict.setDefault (d : Dict κ β) (key : κ) (v : β) : Dict κ β :=
  if (Dict.get? d key).isSome then d else d ++ [(key, v)]

theorem Dict.get?_setDefault (d : Dict κ β) (k : κ) (v : β) (key : κ) :
    Dict.get? (d.setDefault k v) key =
      (Dict.get? d key).or (if k = key then some v else none) := by
  rw [Dict.setDefault]
  split
  · rename_i h
    by_cases hk : k = key
    · obtain ⟨w, hw⟩ := Option.isSome_iff_exists.mp h
      rw [← hk, hw, Option.some_or]
    · rw [if_neg hk, Option.or_none]
  · rename_i h
    rw [Dict.get?_concat]
    by_cases hk : k = key
    · rw [← hk, Option.not_isSome_iff_eq_none.mp h, if_pos rfl, Option.none_or]
    · rw [if_neg hk, if_neg hk, Option.or_none]

/-- `d.items()`: a key assigned twice keeps its first place and its last value. -/
def Dict.entries (d : Dict κ β) : List (κ × β) :=
  (d.map Prod.fst).reverse.dedup.reverse.filterMap fun key =>
    (Dict.get? d key).map fun value => (key, value)

/-- **The items are what the keys read back.** -/
theorem Dict.mem_entries {d : Dict κ β} {key : κ} {v : β} :
    (key, v) ∈ d.entries ↔ Dict.get? d key = some v := by
  rw [Dict.entries, List.mem_filterMap]
  constructor
  · rintro ⟨key', -, h⟩
    obtain ⟨v', hv', heq⟩ := Option.map_eq_some_iff.mp h
    obtain ⟨rfl, rfl⟩ := Prod.mk.inj heq
    exact hv'
  · intro h
    have hkey : key ∈ d.map Prod.fst := List.mem_map_of_mem (Dict.mem_of_get?_eq_some h)
    refine ⟨key, ?_, by rw [h]; rfl⟩
    exact List.mem_reverse.mpr (List.mem_dedup.mpr (List.mem_reverse.mpr hkey))

/-- The items have different keys. -/
theorem Dict.nodup_entries (d : Dict κ β) : d.entries.Nodup := by
  refine List.Nodup.filterMap (fun key key' kv h h' => ?_) ?_
  · obtain ⟨v, -, rfl⟩ := Option.map_eq_some_iff.mp h
    obtain ⟨v', -, heq⟩ := Option.map_eq_some_iff.mp h'
    exact (Prod.mk.inj heq).1.symm
  · exact List.nodup_reverse.mpr (List.nodup_dedup _)

/-- **Of any kind there are no more items than assignments.** -/
theorem Dict.countP_entries_le (d : Dict κ β) (p : κ × β → Bool) :
    d.entries.countP p ≤ d.countP p := by
  rw [List.countP_eq_length_filter, List.countP_eq_length_filter]
  refine (List.Nodup.subperm (d.nodup_entries.filter p) fun kv hkv => ?_).length_le
  obtain ⟨hmem, hp⟩ := List.mem_filter.mp hkv
  exact List.mem_filter.mpr ⟨Dict.mem_of_get?_eq_some (Dict.mem_entries.mp hmem), hp⟩

/-- The index `{key(v): v for v in values}`. -/
def indexBy (key : β → κ) (values : List β) : Dict κ β := values.map fun v => (key v, v)

theorem mem_of_get?_indexBy {key : β → κ} {values : List β} {k : κ} {v : β}
    (h : Dict.get? (indexBy key values) k = some v) : v ∈ values ∧ key v = k := by
  obtain ⟨w, hw, heq⟩ := List.mem_map.mp (Dict.mem_of_get?_eq_some h)
  obtain ⟨rfl, rfl⟩ := Prod.mk.inj heq
  exact ⟨hw, rfl⟩

/-- With one value for each key, the index finds it. -/
theorem get?_indexBy_of_mem {key : β → κ} {values : List β} {v : β} (hv : v ∈ values)
    (huniq : ∀ w ∈ values, key w = key v → w = v) :
    Dict.get? (indexBy key values) (key v) = some v := by
  induction values using List.reverseRecOn with
  | nil => cases hv
  | append_singleton vs w ih =>
    rw [indexBy, List.map_append, List.map_singleton, Dict.get?_concat]
    by_cases hk : key w = key v
    · rw [if_pos hk, huniq w (by simp) hk]
    · rw [if_neg hk]
      have hv' : v ∈ vs := by
        rcases List.mem_append.mp hv with h | h
        · exact h
        · exact absurd (congrArg key (List.mem_singleton.mp h)).symm hk
      exact ih hv' fun x hx => huniq x (List.mem_append_left _ hx)

/-- **An index with one value for each key does not depend on the order of the values.** -/
theorem get?_indexBy_perm {key : β → κ} {values values' : List β} (h : values.Perm values')
    (hnd : (values.map key).Nodup) (k : κ) :
    Dict.get? (indexBy key values) k = Dict.get? (indexBy key values') k := by
  have huniq : ∀ vs : List β, (vs.map key).Nodup → ∀ v ∈ vs, ∀ w ∈ vs, key w = key v → w = v :=
    fun vs hvs v hv w hw hk => List.inj_on_of_nodup_map hvs hw hv hk
  have hnd' : (values'.map key).Nodup := (h.map key).nodup_iff.mp hnd
  rcases hv : Dict.get? (indexBy key values) k with - | v
  · rcases hv' : Dict.get? (indexBy key values') k with - | v'
    · rfl
    · obtain ⟨hmem, rfl⟩ := mem_of_get?_indexBy hv'
      have hmem' := h.mem_iff.mpr hmem
      rw [get?_indexBy_of_mem hmem' (huniq _ hnd _ hmem')] at hv
      cases hv
  · obtain ⟨hmem, rfl⟩ := mem_of_get?_indexBy hv
    have hmem' := h.mem_iff.mp hmem
    rw [get?_indexBy_of_mem hmem' (huniq _ hnd' _ hmem')]

/-! ## Counters -/

/-- A `dict` of counts, in the order its keys were first counted. -/
abbrev Counter (κ : Type*) := List (κ × ℕ)

/-- `counts[key] += 1` on a `defaultdict(int)`. -/
def Counter.bump (key : κ) : Counter κ → Counter κ
  | [] => [(key, 1)]
  | (k, n) :: rest => if k = key then (k, n + 1) :: rest else (k, n) :: bump key rest

/-- Count the keys of a list. -/
def countBy (key : α → κ) (l : List α) : Counter κ :=
  l.foldl (fun counts a => counts.bump (key a)) []

theorem mem_keys_bump {key k : κ} {counts : Counter κ} :
    k ∈ (counts.bump key).map Prod.fst ↔ k = key ∨ k ∈ counts.map Prod.fst := by
  induction counts with
  | nil => simp [Counter.bump]
  | cons c counts ih =>
    by_cases hc : c.1 = key
    · simp [Counter.bump, hc]
    · simp only [Counter.bump, if_neg hc, List.map_cons, List.mem_cons, ih]
      tauto

theorem nodup_keys_bump {key : κ} {counts : Counter κ} (h : (counts.map Prod.fst).Nodup) :
    ((counts.bump key).map Prod.fst).Nodup := by
  induction counts with
  | nil => simp [Counter.bump]
  | cons c counts ih =>
    obtain ⟨hc, hrest⟩ := List.nodup_cons.mp h
    by_cases hk : c.1 = key
    · simpa [Counter.bump, hk] using h
    · rw [Counter.bump, if_neg hk, List.map_cons, List.nodup_cons, mem_keys_bump]
      exact ⟨by rintro (h | h); exacts [hk h, hc h], ih hrest⟩

/-- A bump adds one to its own key and leaves the others. -/
theorem mem_bump {key k : κ} {n : ℕ} {counts : Counter κ} (hnd : (counts.map Prod.fst).Nodup) :
    (k, n) ∈ counts.bump key ↔ (k ≠ key ∧ (k, n) ∈ counts) ∨
      (k = key ∧ ((∃ m, (key, m) ∈ counts ∧ n = m + 1) ∨
        (key ∉ counts.map Prod.fst ∧ n = 1))) := by
  induction counts with
  | nil =>
    rw [Counter.bump]
    simp
  | cons c counts ih =>
    obtain ⟨k', m'⟩ := c
    obtain ⟨hc, hrest⟩ := List.nodup_cons.mp hnd
    by_cases hk : k' = key
    · subst hk
      have hnot : ∀ m, (k', m) ∉ counts := fun m hm => hc (List.mem_map.mpr ⟨(k', m), hm, rfl⟩)
      simp only [Counter.bump, if_true, List.mem_cons, Prod.mk.injEq, List.map_cons]
      by_cases hkk : k = k'
      · subst hkk
        simp [hnot]
      · simp [hkk]
    · have hk' : ¬key = k' := fun h => hk h.symm
      simp only [Counter.bump, if_neg hk, List.mem_cons, Prod.mk.injEq, ih hrest, List.map_cons,
        hk', false_and, false_or]
      by_cases hkk : k = key
      · subst hkk
        simp [hk']
      · simp [hkk]

theorem countBy_concat (key : α → κ) (l : List α) (a : α) :
    countBy key (l ++ [a]) = (countBy key l).bump (key a) := by
  rw [countBy, List.foldl_append]
  rfl

theorem nodup_keys_countBy (key : α → κ) (l : List α) :
    ((countBy key l).map Prod.fst).Nodup := by
  induction l using List.reverseRecOn with
  | nil => exact List.nodup_nil
  | append_singleton l a ih =>
    rw [countBy_concat]
    exact nodup_keys_bump ih

/-- **A counter holds each key that occurs, with how often it does.** -/
theorem mem_countBy {key : α → κ} {l : List α} {k : κ} {n : ℕ} :
    (k, n) ∈ countBy key l ↔ n = l.countP (fun a => decide (key a = k)) ∧ 0 < n := by
  induction l using List.reverseRecOn generalizing k n with
  | nil =>
    rw [countBy, List.foldl_nil, List.countP_nil]
    constructor
    · rintro ⟨⟩
    · omega
  | append_singleton l a ih =>
    have hkeys : key a ∉ (countBy key l).map Prod.fst ↔
        l.countP (fun b => decide (key b = key a)) = 0 := by
      rw [← Nat.le_zero, ← Nat.not_lt, not_iff_not]
      constructor
      · rintro hmem
        obtain ⟨⟨k', m⟩, hm, rfl⟩ := List.mem_map.mp hmem
        obtain ⟨hm', hpos⟩ := ih.mp hm
        exact hm' ▸ hpos
      · exact fun hpos => List.mem_map.mpr ⟨(key a, _), ih.mpr ⟨rfl, hpos⟩, rfl⟩
    rw [countBy_concat, mem_bump (nodup_keys_countBy key l), List.countP_append,
      List.countP_singleton, hkeys]
    simp only [ih]
    by_cases hk : k = key a
    · subst hk
      simp only [ne_eq, not_true_eq_false, false_and, true_and, false_or, decide_true, if_true]
      constructor
      · rintro (⟨m, ⟨hm, -⟩, rfl⟩ | ⟨hzero, rfl⟩) <;> omega
      · rintro ⟨hn, -⟩
        rcases Nat.eq_zero_or_pos (l.countP fun b => decide (key b = key a)) with h | h
        · exact Or.inr ⟨h, by omega⟩
        · exact Or.inl ⟨_, ⟨rfl, h⟩, hn⟩
    · have hk' : ¬key a = k := fun h => hk h.symm
      simp [hk, hk']

theorem sum_bump (key : κ) (counts : Counter κ) :
    ((counts.bump key).map Prod.snd).sum = (counts.map Prod.snd).sum + 1 := by
  induction counts with
  | nil => rfl
  | cons c counts ih =>
    rw [Counter.bump]
    split
    · simp only [List.map_cons, List.sum_cons]
      omega
    · simp only [List.map_cons, List.sum_cons, ih]
      omega

/-- **Every item is counted once**… -/
theorem sum_countBy (key : α → κ) (l : List α) :
    ((countBy key l).map Prod.snd).sum = l.length := by
  induction l using List.reverseRecOn with
  | nil => rfl
  | append_singleton l a ih => rw [countBy_concat, sum_bump, ih, List.length_append]; rfl

/-- …and every key has one counter. -/
theorem length_countBy (key : α → κ) (l : List α) :
    (countBy key l).length = (l.map key).dedup.length := by
  have hperm : ((countBy key l).map Prod.fst).Perm (l.map key).dedup := by
    refine (List.perm_ext_iff_of_nodup (nodup_keys_countBy key l) (List.nodup_dedup _)).mpr ?_
    intro k
    rw [List.mem_dedup, List.mem_map, List.mem_map]
    constructor
    · rintro ⟨⟨k, n⟩, hmem, rfl⟩
      obtain ⟨rfl, hpos⟩ := mem_countBy.mp hmem
      obtain ⟨a, ha, hk⟩ := List.countP_pos_iff.mp hpos
      exact ⟨a, ha, of_decide_eq_true hk⟩
    · rintro ⟨a, ha, rfl⟩
      refine ⟨(key a, _), mem_countBy.mpr ⟨rfl, ?_⟩, rfl⟩
      exact List.countP_pos_iff.mpr ⟨a, ha, decide_eq_true rfl⟩
  rw [← hperm.length_eq, List.length_map]

/-- A counter reads how often a key occurs, which may be never. -/
theorem lookup_countBy (key : α → κ) (l : List α) (k : κ) :
    ((countBy key l).lookup k).getD 0 = l.countP fun a => decide (key a = k) := by
  cases h : (countBy key l).lookup k with
  | some n =>
    obtain ⟨before, after, heq, -⟩ := List.lookup_eq_some_iff.mp h
    have hmem : (k, n) ∈ countBy key l := by
      rw [heq]
      exact List.mem_append_right _ List.mem_cons_self
    exact (mem_countBy.mp hmem).1
  | none =>
    by_contra hne
    have hmem := mem_countBy.mpr ⟨rfl, Nat.pos_of_ne_zero (Ne.symm hne)⟩
    have hnone := List.lookup_eq_none_iff.mp h _ hmem
    simp at hnone

/-! ## Groups -/

/-- A group of items under one key, never empty. -/
structure Group (κ α : Type*) where
  key : κ
  first : α
  rest : List α
  deriving DecidableEq

namespace Group

/-- The items in the order they were appended. -/
def items (g : Group κ α) : List α := g.first :: g.rest

omit [DecidableEq κ] in
theorem first_mem_items (g : Group κ α) : g.first ∈ g.items := List.mem_cons_self

omit [DecidableEq κ] in
theorem ext_items {g g' : Group κ α} (hk : g.key = g'.key) (hi : g.items = g'.items) : g = g' := by
  obtain ⟨k, f, r⟩ := g
  obtain ⟨k', f', r'⟩ := g'
  obtain ⟨rfl, rfl⟩ := List.cons.inj hi
  obtain rfl : k = k' := hk
  rfl

/-- `groups[key].append(item)` on a `defaultdict(list)`. -/
def push (key : κ) (a : α) : List (Group κ α) → List (Group κ α)
  | [] => [⟨key, a, []⟩]
  | g :: gs => if g.key = key then ⟨g.key, g.first, g.rest ++ [a]⟩ :: gs else g :: push key a gs

end Group

/-- Group items by a key, keys in the order they first occur. -/
def groupBy (key : α → κ) (l : List α) : List (Group κ α) :=
  l.foldl (fun gs a => Group.push (key a) a gs) []

theorem groupBy_concat (key : α → κ) (l : List α) (a : α) :
    groupBy key (l ++ [a]) = Group.push (key a) a (groupBy key l) := by
  rw [groupBy, List.foldl_append]
  rfl

theorem mem_keys_push {k : κ} {a : α} {gs : List (Group κ α)} {k' : κ} :
    k' ∈ (Group.push k a gs).map Group.key ↔ k' = k ∨ k' ∈ gs.map Group.key := by
  induction gs with
  | nil => simp [Group.push]
  | cons g gs ih =>
    by_cases hg : g.key = k
    · simp [Group.push, hg]
    · simp only [Group.push, if_neg hg, List.map_cons, List.mem_cons, ih]
      tauto

theorem nodup_keys_push {k : κ} {a : α} {gs : List (Group κ α)}
    (h : (gs.map Group.key).Nodup) : ((Group.push k a gs).map Group.key).Nodup := by
  induction gs with
  | nil => simp [Group.push]
  | cons g gs ih =>
    obtain ⟨hg, hgs⟩ := List.nodup_cons.mp h
    by_cases hk : g.key = k
    · simpa [Group.push, hk] using h
    · rw [Group.push, if_neg hk, List.map_cons, List.nodup_cons, mem_keys_push]
      exact ⟨by rintro (h | h); exacts [hk h, hg h], ih hgs⟩

/-- **One group for each key.** -/
theorem nodup_keys_groupBy (key : α → κ) (l : List α) : ((groupBy key l).map Group.key).Nodup := by
  induction l using List.reverseRecOn with
  | nil => exact List.nodup_nil
  | append_singleton l a ih =>
    rw [groupBy_concat]
    exact nodup_keys_push ih

/-- **A key has a group exactly when some item has it.** -/
theorem mem_keys_groupBy {key : α → κ} {l : List α} {k : κ} :
    k ∈ (groupBy key l).map Group.key ↔ ∃ a ∈ l, key a = k := by
  induction l using List.reverseRecOn with
  | nil => simp [groupBy]
  | append_singleton l a ih =>
    rw [groupBy_concat, mem_keys_push, ih]
    constructor
    · rintro (rfl | ⟨b, hb, rfl⟩)
      · exact ⟨a, by simp, rfl⟩
      · exact ⟨b, List.mem_append_left _ hb, rfl⟩
    · rintro ⟨b, hb, rfl⟩
      rcases List.mem_append.mp hb with hb | hb
      · exact Or.inr ⟨b, hb, rfl⟩
      · exact Or.inl (by rw [List.mem_singleton.mp hb])

theorem items_of_mem_push {k : κ} {a : α} {gs : List (Group κ α)}
    (hnd : (gs.map Group.key).Nodup) {g : Group κ α} (hg : g ∈ Group.push k a gs) :
    (g.key ≠ k ∧ g ∈ gs) ∨
      (g.key = k ∧ ((∃ g₀ ∈ gs, g₀.key = k ∧ g.items = g₀.items ++ [a]) ∨
        (k ∉ gs.map Group.key ∧ g.items = [a]))) := by
  induction gs with
  | nil =>
    obtain rfl : g = ⟨k, a, []⟩ := by simpa [Group.push] using hg
    exact Or.inr ⟨rfl, Or.inr ⟨by simp, rfl⟩⟩
  | cons h gs ih =>
    obtain ⟨hh, hgs⟩ := List.nodup_cons.mp hnd
    by_cases hk : h.key = k
    · rw [Group.push, if_pos hk] at hg
      rcases List.mem_cons.mp hg with rfl | hmem
      · exact Or.inr ⟨hk, Or.inl ⟨h, List.mem_cons_self, hk, rfl⟩⟩
      · refine Or.inl ⟨fun hgk => hh ?_, List.mem_cons_of_mem _ hmem⟩
        exact hk.trans hgk.symm ▸ List.mem_map_of_mem hmem
    · rw [Group.push, if_neg hk] at hg
      rcases List.mem_cons.mp hg with rfl | hmem
      · exact Or.inl ⟨hk, List.mem_cons_self⟩
      · rcases ih hgs hmem with ⟨hne, hin⟩ | ⟨heq, ⟨g₀, hg₀, hk₀, hit⟩ | ⟨hnot, hit⟩⟩
        · exact Or.inl ⟨hne, List.mem_cons_of_mem _ hin⟩
        · exact Or.inr ⟨heq, Or.inl ⟨g₀, List.mem_cons_of_mem _ hg₀, hk₀, hit⟩⟩
        · refine Or.inr ⟨heq, Or.inr ⟨?_, hit⟩⟩
          rw [List.map_cons, List.mem_cons, not_or]
          exact ⟨fun e => hk e.symm, hnot⟩

/-- **A group's items are the items with its key, in order.** -/
theorem items_of_mem_groupBy {key : α → κ} {l : List α} {g : Group κ α}
    (hg : g ∈ groupBy key l) : g.items = l.filter fun a => decide (key a = g.key) := by
  induction l using List.reverseRecOn generalizing g with
  | nil => simp [groupBy] at hg
  | append_singleton l a ih =>
    rw [groupBy_concat] at hg
    rw [List.filter_append]
    rcases items_of_mem_push (nodup_keys_groupBy key l) hg with
      ⟨hne, hin⟩ | ⟨heq, ⟨g₀, hg₀, hk₀, hit⟩ | ⟨hnot, hit⟩⟩
    · rw [ih hin]
      simp [hne.symm]
    · rw [hit, ih hg₀, hk₀, heq]
      simp
    · have hnone : l.filter (fun b => decide (key b = g.key)) = [] :=
        List.filter_eq_nil_iff.mpr fun b hb => by
          rw [heq, decide_eq_true_iff]
          exact fun hb' => hnot (mem_keys_groupBy.mpr ⟨b, hb, hb'⟩)
      rw [hit, hnone, heq]
      simp

theorem exists_group_of_mem {key : α → κ} {l : List α} {a : α} (ha : a ∈ l) :
    ∃ g ∈ groupBy key l, g.key = key a ∧ a ∈ g.items := by
  have hkey : key a ∈ (groupBy key l).map Group.key := mem_keys_groupBy.mpr ⟨a, ha, rfl⟩
  obtain ⟨g, hg, hk⟩ := List.mem_map.mp hkey
  refine ⟨g, hg, hk, ?_⟩
  rw [items_of_mem_groupBy hg, List.mem_filter, decide_eq_true_iff]
  exact ⟨ha, hk.symm⟩

/-- Two groups of one grouping with the same key are the same. -/
theorem group_eq_of_key_eq {key : α → κ} {l : List α} {g g' : Group κ α}
    (hg : g ∈ groupBy key l) (hg' : g' ∈ groupBy key l) (h : g.key = g'.key) : g = g' := by
  refine Group.ext_items h ?_
  rw [items_of_mem_groupBy hg, items_of_mem_groupBy hg', h]

/-- `groups.get(key, [])`. -/
def itemsUnder (gs : List (Group κ α)) (k : κ) : List α :=
  ((gs.find? fun g => decide (g.key = k)).map Group.items).getD []

/-- **Under a key stand the items that have it**, in their order. -/
theorem itemsUnder_groupBy (key : α → κ) (l : List α) (k : κ) :
    itemsUnder (groupBy key l) k = l.filter fun a => decide (key a = k) := by
  rw [itemsUnder]
  cases h : (groupBy key l).find? fun g => decide (g.key = k) with
  | some g =>
    have hkey : g.key = k := by simpa using List.find?_some h
    rw [Option.map_some, Option.getD_some, items_of_mem_groupBy (List.mem_of_find?_eq_some h), hkey]
  | none =>
    rw [Option.map_none, Option.getD_none, eq_comm, List.filter_eq_nil_iff]
    intro a ha hk
    obtain ⟨g, hg, hkey, -⟩ : ∃ g ∈ groupBy key l, g.key = key a ∧ a ∈ g.items :=
      exists_group_of_mem ha
    refine List.find?_eq_none.mp h g hg (decide_eq_true ?_)
    rw [hkey, of_decide_eq_true hk]

/-! ## Keeping the first of each key -/

/-- Keep an item unless one with its key was kept before: the loop over a `seen` set. -/
def keepFirst (key : α → κ) (l : List α) : List α :=
  l.foldl (fun kept a => if kept.any fun b => key b = key a then kept else kept ++ [a]) []

theorem keepFirst_concat (key : α → κ) (l : List α) (a : α) :
    keepFirst key (l ++ [a])
      = if (keepFirst key l).any fun b => key b = key a then keepFirst key l
        else keepFirst key l ++ [a] := by
  rw [keepFirst, List.foldl_append]
  rfl

theorem mem_of_mem_keepFirst {key : α → κ} {l : List α} {a : α} (h : a ∈ keepFirst key l) :
    a ∈ l := by
  induction l using List.reverseRecOn with
  | nil => cases h
  | append_singleton l b ih =>
    rw [keepFirst_concat] at h
    split at h
    · exact List.mem_append_left _ (ih h)
    · rcases List.mem_append.mp h with h | h
      · exact List.mem_append_left _ (ih h)
      · exact List.mem_append_right _ h

/-- **Every key survives.** -/
theorem exists_mem_keepFirst {key : α → κ} {l : List α} {a : α} (h : a ∈ l) :
    ∃ b ∈ keepFirst key l, key b = key a := by
  induction l using List.reverseRecOn with
  | nil => cases h
  | append_singleton l b ih =>
    rw [keepFirst_concat]
    by_cases hb : (keepFirst key l).any fun c => key c = key b
    · rw [if_pos hb]
      rcases List.mem_append.mp h with h | h
      · exact ih h
      · obtain rfl := List.mem_singleton.mp h
        obtain ⟨c, hc, hk⟩ := List.any_eq_true.mp hb
        exact ⟨c, hc, by simpa using hk⟩
    · rw [if_neg hb]
      rcases List.mem_append.mp h with h | h
      · obtain ⟨c, hc, hk⟩ := ih h
        exact ⟨c, List.mem_append_left _ hc, hk⟩
      · obtain rfl := List.mem_singleton.mp h
        exact ⟨a, by simp, rfl⟩

/-- The first item is kept in first place. -/
theorem head?_keepFirst (key : α → κ) (l : List α) : (keepFirst key l).head? = l.head? := by
  induction l using List.reverseRecOn with
  | nil => rfl
  | append_singleton l a ih =>
    rw [keepFirst_concat]
    cases l with
    | nil => simp [keepFirst]
    | cons b l =>
      rw [List.cons_append, List.head?_cons]
      rw [List.head?_cons] at ih
      split
      · exact ih
      · rw [List.head?_append, ih]
        rfl

/-- **…and survives once.** -/
theorem nodup_keys_keepFirst (key : α → κ) (l : List α) : ((keepFirst key l).map key).Nodup := by
  induction l using List.reverseRecOn with
  | nil => exact List.nodup_nil
  | append_singleton l a ih =>
    rw [keepFirst_concat]
    split
    · exact ih
    · rename_i hnew
      rw [List.map_append, List.map_singleton, List.nodup_append]
      refine ⟨ih, List.nodup_singleton _, fun k hk k' hk' => ?_⟩
      obtain ⟨b, hb, rfl⟩ := List.mem_map.mp hk
      rw [List.mem_singleton.mp hk']
      intro heq
      exact hnew (List.any_eq_true.mpr ⟨b, hb, by simpa using heq⟩)

/-- The loop that sets what is not set yet keeps the first of each key. -/
theorem foldl_setDefault (key : α → κ) (l : List α) :
    l.foldl (fun d a => Dict.setDefault d (key a) a) []
      = (keepFirst key l).map fun a => (key a, a) := by
  induction l using List.reverseRecOn with
  | nil => rfl
  | append_singleton l a ih =>
    rw [List.foldl_append, ih, List.foldl_cons, List.foldl_nil, Dict.setDefault, keepFirst_concat]
    have hiff : (Dict.get? ((keepFirst key l).map fun b => (key b, b)) (key a)).isSome = true ↔
        (keepFirst key l).any (fun b => key b = key a) = true := by
      rw [List.any_eq_true, Option.isSome_iff_exists]
      constructor
      · rintro ⟨b, hb⟩
        obtain ⟨c, hc, heq⟩ := List.mem_map.mp (Dict.mem_of_get?_eq_some hb)
        exact ⟨c, hc, decide_eq_true (Prod.mk.inj heq).1⟩
      · rintro ⟨b, hb, hkey⟩
        have hmem := List.mem_map_of_mem (f := fun b => (key b, b)) hb
        obtain ⟨v, hv⟩ := Dict.exists_get?_of_mem hmem
        exact ⟨v, of_decide_eq_true hkey ▸ hv⟩
    by_cases hany : (keepFirst key l).any (fun b => key b = key a) = true
    · rw [if_pos hany, if_pos (hiff.mpr hany)]
    · rw [if_neg hany, if_neg (mt hiff.mp hany), List.map_append, List.map_singleton]

/-- Items under different keys are all kept. -/
theorem keepFirst_eq_self {key : α → κ} {l : List α} (h : (l.map key).Nodup) :
    keepFirst key l = l := by
  induction l using List.reverseRecOn with
  | nil => rfl
  | append_singleton l a ih =>
    rw [List.map_append, List.map_singleton, List.nodup_append] at h
    obtain ⟨hl, -, hdisj⟩ := h
    rw [keepFirst_concat, ih hl, if_neg]
    intro hany
    obtain ⟨b, hb, hk⟩ := List.any_eq_true.mp hany
    exact hdisj _ (List.mem_map_of_mem hb) _ (List.mem_singleton_self _) (of_decide_eq_true hk)

/-- **The item kept in a place**: the first of its key, after as many keys. -/
theorem getElem?_keepFirst {key : α → κ} {l : List α} {n : ℕ} {a : α} :
    (keepFirst key l)[n]? = some a ↔ ∃ pre post, l = pre ++ a :: post ∧
      (∀ b ∈ pre, key b ≠ key a) ∧ (keepFirst key pre).length = n := by
  induction l using List.reverseRecOn with
  | nil =>
    constructor
    · intro h
      cases h
    · rintro ⟨pre, post, h, -⟩
      exact absurd h.symm (List.append_ne_nil_of_right_ne_nil _ (List.cons_ne_nil _ _))
  | append_singleton l c ih =>
    -- The last item stands in no earlier place.
    have hlast : (∃ pre post, l ++ [c] = pre ++ a :: post ∧ (∀ b ∈ pre, key b ≠ key a) ∧
        (keepFirst key pre).length = n) ↔ (keepFirst key l)[n]? = some a ∨
          (a = c ∧ (∀ b ∈ l, key b ≠ key a) ∧ (keepFirst key l).length = n) := by
      rw [ih]
      constructor
      · rintro ⟨pre, post, heq, hpre, hn⟩
        obtain rfl | ⟨post, d, rfl⟩ := post.eq_nil_or_concat
        · obtain ⟨rfl, hac⟩ := List.append_inj' heq rfl
          exact Or.inr ⟨(List.singleton_inj.mp hac).symm, hpre, hn⟩
        · rw [List.concat_eq_append, ← List.cons_append, ← List.append_assoc] at heq
          exact Or.inl ⟨pre, post, (List.append_inj' heq rfl).1, hpre, hn⟩
      · rintro (⟨pre, post, rfl, hpre, hn⟩ | ⟨rfl, hl, hn⟩)
        · exact ⟨pre, post ++ [c], by rw [List.append_assoc, List.cons_append], hpre, hn⟩
        · exact ⟨l, [], rfl, hl, hn⟩
    rw [hlast, keepFirst_concat]
    clear ih hlast
    split
    · rename_i hold
      refine (or_iff_left ?_).symm
      rintro ⟨rfl, hl, -⟩
      obtain ⟨b, hb, hkey⟩ := List.any_eq_true.mp hold
      exact hl b (mem_of_mem_keepFirst hb) (of_decide_eq_true hkey)
    · rename_i hnew
      have hl : ∀ b ∈ l, key b ≠ key c := fun b hb heq => by
        obtain ⟨b', hb', hkey⟩ : ∃ b' ∈ keepFirst key l, key b' = key b := exists_mem_keepFirst hb
        exact hnew (List.any_eq_true.mpr ⟨b', hb', by simp [hkey, heq]⟩)
      rw [List.getElem?_append]
      split
      · rename_i hlt
        refine (or_iff_left ?_).symm
        rintro ⟨-, -, hn⟩
        omega
      · rename_i hge
        have hnone : (keepFirst key l)[n]? = none := List.getElem?_eq_none (by omega)
        rw [hnone, List.getElem?_singleton]
        constructor
        · intro h
          split at h
          · obtain rfl := Option.some.inj h
            exact Or.inr ⟨rfl, hl, by omega⟩
          · cases h
        · rintro (h | ⟨rfl, -, hn⟩)
          · cases h
          · rw [if_pos (by omega)]

end BareAnalysis
