import Mathlib.Data.Finset.Card
import Mathlib.Data.Finset.Filter
import Mathlib.Data.Finset.Lattice.Basic
import Mathlib.Data.List.Sort
import Mathlib.Data.Prod.Lex
import Mathlib.Data.String.Basic

/-!
# Machinery/Sorting — `sorted(items, key=…)`

A stable sort by a key of a linear order: `sortBy` is Mathlib's `insertionSort` on the pulled-back
order, so items with equal keys keep the order they came in.
-/

namespace BareAnalysis

variable {α β κ κ' : Type*} [LinearOrder κ] [LinearOrder κ']

/-- Stable sort by a key. -/
def sortBy (key : α → κ) (l : List α) : List α := l.insertionSort fun a b => key a ≤ key b

section Order

variable (key : α → κ)

/-- The order pulled back along a key is total. -/
instance keyTotal : Std.Total fun a b => key a ≤ key b := ⟨fun a b => le_total (key a) (key b)⟩

/-- …and transitive. -/
instance keyTrans : IsTrans α fun a b => key a ≤ key b := ⟨fun _ _ _ => le_trans⟩

end Order

@[simp] theorem sortBy_nil (key : α → κ) : sortBy key [] = [] := rfl

theorem sortBy_cons (key : α → κ) (a : α) (l : List α) :
    sortBy key (a :: l) = (sortBy key l).orderedInsert (fun a b => key a ≤ key b) a := rfl

theorem sortBy_perm (key : α → κ) (l : List α) : (sortBy key l).Perm l :=
  List.perm_insertionSort _ l

@[simp] theorem mem_sortBy {key : α → κ} {l : List α} {a : α} : a ∈ sortBy key l ↔ a ∈ l :=
  (sortBy_perm key l).mem_iff

@[simp] theorem length_sortBy (key : α → κ) (l : List α) : (sortBy key l).length = l.length :=
  (sortBy_perm key l).length_eq

theorem pairwise_sortBy (key : α → κ) (l : List α) :
    (sortBy key l).Pairwise fun a b => key a ≤ key b :=
  List.pairwise_insertionSort _ l

theorem sortBy_eq_self {key : α → κ} {l : List α} (h : l.Pairwise fun a b => key a ≤ key b) :
    sortBy key l = l := List.Pairwise.insertionSort_eq h

/-- **Sorting commutes with a map that keeps the order of the keys.** -/
theorem map_sortBy (key : α → κ) (key' : β → κ') (f : α → β) (l : List α)
    (h : ∀ a ∈ l, ∀ b ∈ l, key a ≤ key b ↔ key' (f a) ≤ key' (f b)) :
    (sortBy key l).map f = sortBy key' (l.map f) :=
  List.map_insertionSort _ _ f l h

/-- Keys that order a list alike sort it alike. -/
theorem sortBy_congr {key : α → κ} {key' : α → κ'} {l : List α}
    (h : ∀ a ∈ l, ∀ b ∈ l, key a ≤ key b ↔ key' a ≤ key' b) : sortBy key l = sortBy key' l := by
  simpa using map_sortBy key key' id l h

/-- Two sorted lists with the same members, told apart by their keys, are the same list. -/
theorem eq_of_perm_of_pairwise_key {key : α → κ} {l l' : List α} (hp : l.Perm l')
    (hinj : ∀ a ∈ l, ∀ b ∈ l, key a = key b → a = b) (hl : l.Pairwise fun a b => key a ≤ key b)
    (hl' : l'.Pairwise fun a b => key a ≤ key b) : l = l' :=
  List.Perm.eq_of_pairwise (fun a b ha hb hab hba =>
    hinj a ha b (hp.mem_iff.mpr hb) (le_antisymm hab hba)) hl hl' hp

/-- **The sorted list does not depend on the order of the input** when the keys tell the items
apart. -/
theorem sortBy_eq_of_perm {key : α → κ} {l l' : List α} (hp : l.Perm l')
    (hinj : ∀ a ∈ l, ∀ b ∈ l, key a = key b → a = b) : sortBy key l = sortBy key l' :=
  eq_of_perm_of_pairwise_key ((sortBy_perm key l).trans (hp.trans (sortBy_perm key l').symm))
    (fun a ha b hb => hinj a (mem_sortBy.mp ha) b (mem_sortBy.mp hb))
    (pairwise_sortBy key l) (pairwise_sortBy key l')

/-! ## Stability -/

theorem filter_orderedInsert (key : α → κ) (p : α → Bool) (a : α) :
    ∀ l : List α, l.Pairwise (fun a b => key a ≤ key b) →
      (l.orderedInsert (fun a b => key a ≤ key b) a).filter p
        = if p a then (l.filter p).orderedInsert (fun a b => key a ≤ key b) a else l.filter p
  | [], _ => by cases hp : p a <;> simp [hp]
  | b :: l, h => by
    obtain ⟨hb, hl⟩ := List.pairwise_cons.mp h
    by_cases hab : key a ≤ key b
    · rw [List.orderedInsert_cons_of_le (fun a b => key a ≤ key b) l hab]
      have hfront : ∀ c ∈ (b :: l).filter p, key a ≤ key c := fun c hc => by
        rcases List.mem_cons.mp (List.mem_filter.mp hc).1 with rfl | hc
        · exact hab
        · exact hab.trans (hb c hc)
      cases hp : p a with
      | false => simp [hp]
      | true =>
        rw [List.filter_cons_of_pos hp, if_pos rfl]
        cases hf : (b :: l).filter p with
        | nil => rfl
        | cons c rest =>
          have hc : key a ≤ key c := hfront c (hf ▸ List.mem_cons_self)
          exact (List.orderedInsert_cons_of_le (fun a b => key a ≤ key b) rest hc).symm
    · rw [List.orderedInsert_of_not_le (fun a b => key a ≤ key b) l hab]
      have ih := filter_orderedInsert key p a l hl
      cases hpb : p b with
      | false => rw [List.filter_cons_of_neg (by simp [hpb]), ih,
          List.filter_cons_of_neg (by simp [hpb])]
      | true =>
        rw [List.filter_cons_of_pos hpb, ih, List.filter_cons_of_pos hpb]
        cases p a with
        | false => rfl
        | true =>
          rw [if_pos rfl, if_pos rfl]
          exact (List.orderedInsert_of_not_le (fun a b => key a ≤ key b) _ hab).symm

/-- **Stability**: filtering before or after the sort is the same. -/
theorem filter_sortBy (key : α → κ) (p : α → Bool) (l : List α) :
    (sortBy key l).filter p = sortBy key (l.filter p) := by
  induction l with
  | nil => rfl
  | cons a l ih =>
    rw [sortBy_cons, filter_orderedInsert key p a _ (pairwise_sortBy key l), ih]
    cases hp : p a with
    | false => rw [List.filter_cons_of_neg (by simp [hp])]; rfl
    | true => rw [List.filter_cons_of_pos hp, sortBy_cons]; rfl

/-! ## The first items -/

/-- **The first items of a sorted list** are those with few smaller ones. -/
theorem mem_take_sortBy {key : α → κ} {l : List α} (hnd : (l.map key).Nodup) {n : ℕ} {a : α} :
    a ∈ (sortBy key l).take n ↔ a ∈ l ∧ l.countP (fun b => key b < key a) < n := by
  have hperm := sortBy_perm key l
  have hnd' : ((sortBy key l).map key).Nodup := (hperm.map key).nodup_iff.mpr hnd
  by_cases ha : a ∈ l
  swap
  · exact iff_of_false (fun h => ha (mem_sortBy.mp (List.mem_of_mem_take h))) fun h => ha h.1
  have hmem : a ∈ sortBy key l := mem_sortBy.mpr ha
  obtain ⟨pre, post, heq⟩ := List.append_of_mem hmem
  have hsorted := pairwise_sortBy key l
  rw [heq] at hsorted hnd'
  obtain ⟨-, hpost, hcross⟩ := List.pairwise_append.mp hsorted
  rw [List.map_append, List.map_cons] at hnd'
  have hfresh : key a ∉ pre.map key := fun h =>
    (List.disjoint_of_nodup_append hnd') h List.mem_cons_self
  have hbefore : ∀ b ∈ pre, key b < key a := fun b hb =>
    lt_of_le_of_ne (hcross b hb a List.mem_cons_self) fun h => hfresh (h ▸ List.mem_map_of_mem hb)
  have hafter : ∀ b ∈ a :: post, ¬key b < key a := fun b hb => by
    obtain rfl | hb := List.mem_cons.mp hb
    · exact lt_irrefl _
    · exact not_lt.mpr ((List.pairwise_cons.mp hpost).1 b hb)
  have hcount : l.countP (fun b => key b < key a) = pre.length := by
    rw [← hperm.countP_eq, heq, List.countP_append,
      List.countP_eq_length.mpr (by simpa using hbefore),
      List.countP_eq_zero.mpr (by simpa using hafter)]
    rfl
  rw [and_iff_right ha, hcount, heq]
  constructor
  · intro h
    by_contra hn
    rw [List.take_append_of_le_length (by omega)] at h
    exact hfresh (List.mem_map_of_mem (List.mem_of_mem_take h))
  · intro hn
    refine List.mem_iff_getElem?.mpr ⟨pre.length, ?_⟩
    rw [List.getElem?_take_of_lt hn, List.getElem?_append_right le_rfl, Nat.sub_self]
    rfl

/-! ## Lists that read alike -/

/-- The largest item does not depend on the order. -/
theorem max?_eq_of_perm {l l' : List κ} (h : l.Perm l') : l.max? = l'.max? := by
  cases hm : l'.max? with
  | none =>
    rw [List.max?_eq_none_iff] at hm ⊢
    rw [hm] at h
    exact h.eq_nil
  | some m =>
    rw [List.max?_eq_some_iff] at hm ⊢
    exact ⟨h.mem_iff.mpr hm.1, fun b hb => hm.2 b (h.mem_iff.mp hb)⟩

/-- Two lists that read alike one way read alike any way the one reading determines. -/
theorem map_eq_map_of_map_eq {γ δ : Type*} {l : List α} {l' : List β} {f : α → γ} {g : β → γ}
    {f' : α → δ} {g' : β → δ} (h : l.map f = l'.map g)
    (hread : ∀ a ∈ l, ∀ b ∈ l', f a = g b → f' a = g' b) : l.map f' = l'.map g' := by
  induction l generalizing l' with
  | nil => rw [List.map_eq_nil_iff.mp h.symm]; rfl
  | cons a l ih =>
    cases l' with
    | nil => cases h
    | cons b l' =>
      obtain ⟨hab, hrest⟩ := List.cons.inj h
      rw [List.map_cons, List.map_cons, hread a List.mem_cons_self b List.mem_cons_self hab,
        ih hrest fun a ha b hb => hread a (List.mem_cons_of_mem _ ha) b (List.mem_cons_of_mem _ hb)]

/-- Strictly sorted lists with the same members are the same list. -/
theorem eq_of_pairwise_key_lt {key : α → κ} {l l' : List α}
    (hl : l.Pairwise fun a b => key a < key b) (hl' : l'.Pairwise fun a b => key a < key b)
    (hmem : ∀ a, a ∈ l ↔ a ∈ l') : l = l' := by
  have hnd : ∀ {m : List α}, m.Pairwise (fun a b => key a < key b) → m.Nodup := fun hm =>
    hm.imp fun {a b} hab (he : a = b) => absurd hab (by rw [he]; exact lt_irrefl _)
  have hperm : l.Perm l' := (List.perm_ext_iff_of_nodup (hnd hl) (hnd hl')).mpr hmem
  exact List.Perm.eq_of_pairwise (fun a b _ _ hab hba => absurd (hab.trans hba) (lt_irrefl _))
    hl hl' hperm

/-! ## Sets -/

/-- `sorted(values)` of a set. -/
def sortedSet (values : Finset κ) : List κ :=
  Quotient.liftOn values.val (sortBy id) fun _ _ h => sortBy_eq_of_perm h fun _ _ _ _ hab => hab

theorem coe_sortedSet (values : Finset κ) : (sortedSet values : Multiset κ) = values.val := by
  obtain ⟨s, hs⟩ := values
  induction s using Quotient.inductionOn with
  | h l => exact Quotient.sound (sortBy_perm id l)

@[simp] theorem mem_sortedSet {values : Finset κ} {a : κ} : a ∈ sortedSet values ↔ a ∈ values := by
  rw [← Finset.mem_val, ← coe_sortedSet, Multiset.mem_coe]

@[simp] theorem sortedSet_empty : sortedSet (∅ : Finset κ) = [] := rfl

/-- A part of a set is listed in the order of the whole. -/
theorem filter_sortedSet (values : Finset κ) (p : κ → Bool) :
    (sortedSet values).filter p = sortedSet (values.filter fun a => p a = true) := by
  obtain ⟨s, hs⟩ := values
  induction s using Quotient.inductionOn with
  | h l =>
    refine (filter_sortBy id p l).trans ?_
    change sortBy id (l.filter p) = sortBy id (l.filter fun a => decide (p a = true))
    simp only [Bool.decide_eq_true]

theorem length_sortedSet (values : Finset κ) : (sortedSet values).length = values.card := by
  rw [← Multiset.coe_card, coe_sortedSet, Finset.card_def]

/-- A set is listed without repetitions. -/
theorem nodup_sortedSet (values : Finset κ) : (sortedSet values).Nodup := by
  rw [← Multiset.coe_nodup, coe_sortedSet]
  exact values.nodup

end BareAnalysis
