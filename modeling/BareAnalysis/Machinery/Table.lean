import Mathlib.Data.List.Nodup
import Mathlib.Tactic.Common

/-!
# Machinery/Table — rows under a primary key

A `Table` is a list of rows that carries the proof that no two share a key, so a second row for a
key cannot be stored.  A row is read by its key, rewritten in place, or inserted when its key is
free.
-/

namespace BareAnalysis

/-- Rows with pairwise distinct keys, in insertion order. -/
structure Table {κ ρ : Type*} (key : ρ → κ) where
  rows : List ρ
  nodup_keys : (rows.map key).Nodup

namespace Table

variable {κ ρ : Type*} {key : ρ → κ}

theorem ext_rows {t t' : Table key} (h : t.rows = t'.rows) : t = t' := by
  cases t; cases t'; cases h; rfl

/-- No rows. -/
def empty : Table key := ⟨[], List.nodup_nil⟩

instance : Inhabited (Table key) := ⟨empty⟩

instance : EmptyCollection (Table key) := ⟨empty⟩

@[simp] theorem rows_empty : (∅ : Table key).rows = [] := rfl

/-- One row. -/
def single (r : ρ) : Table key := ⟨[r], List.nodup_singleton (key r)⟩

/-- A key names at most one row. -/
theorem eq_of_key_eq (t : Table key) {r r' : ρ} (hr : r ∈ t.rows) (hr' : r' ∈ t.rows)
    (h : key r = key r') : r = r' := List.inj_on_of_nodup_map t.nodup_keys hr hr' h

/-- The rows a query selects. -/
def select (t : Table key) (p : ρ → Bool) : List ρ := t.rows.filter p

theorem mem_select {t : Table key} {p : ρ → Bool} {r : ρ} :
    r ∈ t.select p ↔ r ∈ t.rows ∧ p r = true := List.mem_filter

section Rewrite

/-- Rewrite every row in place; the rewriting leaves the key alone. -/
def mapRows (t : Table key) (f : ρ → ρ) (hf : ∀ r, key (f r) = key r) : Table key where
  rows := t.rows.map f
  nodup_keys := by
    rw [List.map_map, show key ∘ f = key from funext hf]
    exact t.nodup_keys

@[simp] theorem rows_mapRows (t : Table key) (f : ρ → ρ) (hf : ∀ r, key (f r) = key r) :
    (t.mapRows f hf).rows = t.rows.map f := rfl

end Rewrite

variable [DecidableEq κ]

/-- `session.get(Model, key)`. -/
def get? (t : Table key) (k : κ) : Option ρ := t.rows.find? fun r => decide (key r = k)

@[simp] theorem get?_empty (k : κ) : (∅ : Table key).get? k = none := rfl

/-- **Reading by key finds the row with the key.** -/
theorem get?_eq_some {t : Table key} {k : κ} {r : ρ} :
    t.get? k = some r ↔ r ∈ t.rows ∧ key r = k := by
  constructor
  · intro h
    exact ⟨List.mem_of_find?_eq_some h, by simpa using List.find?_some h⟩
  · rintro ⟨hr, rfl⟩
    cases hf : t.get? (key r) with
    | none => exact absurd (List.find?_eq_none.mp hf r hr) (by simp)
    | some r' =>
      have hr' : r' ∈ t.rows := List.mem_of_find?_eq_some hf
      have hk : key r' = key r := by simpa using List.find?_some hf
      rw [t.eq_of_key_eq hr' hr hk]

theorem get?_eq_none {t : Table key} {k : κ} : t.get? k = none ↔ ∀ r ∈ t.rows, key r ≠ k := by
  simp [get?]

theorem mem_rows_of_get? {t : Table key} {k : κ} {r : ρ} (h : t.get? k = some r) : r ∈ t.rows :=
  (get?_eq_some.mp h).1

theorem key_of_get? {t : Table key} {k : κ} {r : ρ} (h : t.get? k = some r) : key r = k :=
  (get?_eq_some.mp h).2

/-- **A rewritten table is read row by row.** -/
theorem get?_mapRows (t : Table key) (f : ρ → ρ) (hf : ∀ r, key (f r) = key r) (k : κ) :
    (t.mapRows f hf).get? k = (t.get? k).map f := by
  cases h : t.get? k with
  | none =>
    refine get?_eq_none.mpr fun r hr => ?_
    obtain ⟨r₀, hr₀, rfl⟩ := List.mem_map.mp hr
    rw [hf]
    exact get?_eq_none.mp h r₀ hr₀
  | some r =>
    obtain ⟨hr, rfl⟩ := get?_eq_some.mp h
    exact get?_eq_some.mpr ⟨List.mem_map_of_mem hr, hf r⟩

/-- Rewrite the row of one key. -/
def modify (t : Table key) (k : κ) (f : ρ → ρ) (hf : ∀ r, key (f r) = key r) : Table key :=
  t.mapRows (fun r => if key r = k then f r else r) fun r => by
    split
    · exact hf r
    · rfl

theorem get?_modify (t : Table key) (k : κ) (f : ρ → ρ) (hf : ∀ r, key (f r) = key r) (k' : κ) :
    (t.modify k f hf).get? k' = if k' = k then (t.get? k').map f else t.get? k' := by
  rw [modify, get?_mapRows]
  cases h : t.get? k' with
  | none => simp
  | some r =>
    rw [Option.map_some, Option.map_some, key_of_get? h]
    split <;> rfl

/-- Rewriting the row stored last leaves the others alone. -/
theorem rows_modify_concat {t : Table key} {rows : List ρ} {r : ρ} (h : t.rows = rows ++ [r])
    (f : ρ → ρ) (hf : ∀ r, key (f r) = key r) : (t.modify (key r) f hf).rows = rows ++ [f r] := by
  have hfresh : ∀ r' ∈ rows, key r' ≠ key r := by
    intro r' hr' hkey
    have hnodup := t.nodup_keys
    rw [h, List.map_append, List.nodup_append] at hnodup
    exact hnodup.2.2 (key r') (List.mem_map_of_mem hr') (key r) (by simp) hkey
  rw [modify, rows_mapRows, h, List.map_append, List.map_singleton, if_pos rfl]
  refine congrArg (· ++ [f r]) ?_
  calc rows.map (fun r' => if key r' = key r then f r' else r')
      = rows.map id := List.map_congr_left fun r' hr' => if_neg (hfresh r' hr')
    _ = rows := List.map_id rows

/-- `session.add(row)`: `none` is the unique violation the flush raises. -/
def insert (t : Table key) (r : ρ) : Option (Table key) :=
  if h : key r ∉ t.rows.map key then
    some ⟨t.rows ++ [r], by
      rw [List.map_append, List.map_singleton]
      exact List.nodup_append.mpr
        ⟨t.nodup_keys, List.nodup_singleton _, fun a ha b hb => by
          rw [List.mem_singleton.mp hb]
          exact fun he => h (he ▸ ha)⟩⟩
  else none

theorem rows_of_insert {t t' : Table key} {r : ρ} (h : t.insert r = some t') :
    t'.rows = t.rows ++ [r] := by
  unfold insert at h
  split at h
  · cases h; rfl
  · cases h

/-- **An inserted row is read back, and the others as before.** -/
theorem get?_of_insert {t t' : Table key} {r : ρ} (h : t.insert r = some t') (k : κ) :
    t'.get? k = if k = key r then some r else t.get? k := by
  have hfree : key r ∉ t.rows.map key := by
    intro hmem
    rw [insert, dif_neg (not_not_intro hmem)] at h
    cases h
  have happ : t'.get? k = (t.get? k).or (if key r = k then some r else none) := by
    rw [get?, rows_of_insert h, List.find?_append, List.find?_singleton]
    simp only [decide_eq_true_eq]
    rfl
  rw [happ]
  by_cases hk : k = key r
  · have hnone : t.get? k = none := by
      rw [get?_eq_none]
      intro r' hr' hkey
      exact hfree (hk ▸ hkey ▸ List.mem_map_of_mem hr')
    rw [hnone, if_pos hk, if_pos hk.symm, Option.none_or]
  · rw [if_neg hk, if_neg (Ne.symm hk), Option.or_none]

/-- `session.add_all(rows)`. -/
def insertAll (t : Table key) (rows : List ρ) : Option (Table key) := rows.foldlM insert t

theorem rows_of_insertAll {t t' : Table key} {rows : List ρ} (h : t.insertAll rows = some t') :
    t'.rows = t.rows ++ rows := by
  induction rows generalizing t with
  | nil =>
    obtain rfl := Option.some.inj h
    rw [List.append_nil]
  | cons r rows ih =>
    obtain ⟨t₁, hr, h⟩ := Option.bind_eq_some_iff.mp h
    rw [ih h, rows_of_insert hr, List.append_assoc, List.singleton_append]

/-- Remove the row of a key, if there is one. -/
def drop (t : Table key) (k : κ) : Table key where
  rows := t.rows.filter fun r => decide (key r ≠ k)
  nodup_keys := t.nodup_keys.sublist (List.filter_sublist.map key)

theorem mem_rows_drop {t : Table key} {k : κ} {r : ρ} :
    r ∈ (t.drop k).rows ↔ r ∈ t.rows ∧ key r ≠ k := by
  rw [drop, List.mem_filter, decide_eq_true_iff]

theorem get?_drop (t : Table key) (k k' : κ) :
    (t.drop k).get? k' = if k' = k then none else t.get? k' := by
  split
  · rename_i h
    rw [get?_eq_none]
    intro r hr
    rw [h]
    exact (mem_rows_drop.mp hr).2
  · rename_i h
    ext r
    rw [get?_eq_some, get?_eq_some, mem_rows_drop]
    constructor
    · rintro ⟨⟨hr, -⟩, rfl⟩
      exact ⟨hr, rfl⟩
    · rintro ⟨hr, rfl⟩
      exact ⟨⟨hr, h⟩, rfl⟩

/-- Store a row under its key, in place of the one that was there. -/
def put (t : Table key) (r : ρ) : Table key where
  rows := (t.drop (key r)).rows ++ [r]
  nodup_keys := by
    rw [List.map_append, List.map_singleton]
    refine List.nodup_append.mpr ⟨(t.drop (key r)).nodup_keys, List.nodup_singleton _, ?_⟩
    intro a ha b hb
    obtain ⟨r', hr', rfl⟩ := List.mem_map.mp ha
    rw [List.mem_singleton.mp hb]
    exact (mem_rows_drop.mp hr').2

theorem get?_put (t : Table key) (r : ρ) (k : κ) :
    (t.put r).get? k = if k = key r then some r else t.get? k := by
  have happ : (t.put r).get? k = ((t.drop (key r)).get? k).or (if key r = k then some r else none) := by
    rw [put, get?, get?, List.find?_append, List.find?_singleton]
    simp only [decide_eq_true_eq]
  rw [happ, get?_drop]
  by_cases hk : k = key r
  · rw [if_pos hk, if_pos hk.symm, if_pos hk, Option.none_or]
  · rw [if_neg hk, if_neg (Ne.symm hk), if_neg hk, Option.or_none]

end Table

end BareAnalysis
