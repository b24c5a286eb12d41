import Mathlib.Algebra.Order.Ring.Int
import Mathlib.Data.List.Nodup
import Mathlib.Data.List.Perm.Basic
import Mathlib.Logic.Relation
import BareAnalysis.Machinery.Counterpart
import Mathlib.Tactic.Common

/-!
# Machinery/Rose — trees grown from a relation of children

    a ──children──▸ c₁, c₂, …          grow a = node a [grow c₁, grow c₂, …]

A tree is grown from a root level by level.  It holds exactly what stands below the root
(`mem_values_iff`), each once if no two parents share a child (`nodup_values`).
-/

namespace BareAnalysis

/-- A tree whose nodes have any number of children. -/
inductive Rose (α : Type)
  | node (value : α) (children : List (Rose α))

namespace Rose

variable {α β : Type}

def value : Rose α → α
  | node a _ => a

def children : Rose α → List (Rose α)
  | node _ ts => ts

mutual

/-- A tree and all trees in it. -/
def subtrees : Rose α → List (Rose α)
  | node a ts => node a ts :: subtreesAll ts

/-- …of a list of trees. -/
def subtreesAll : List (Rose α) → List (Rose α)
  | [] => []
  | t :: ts => subtrees t ++ subtreesAll ts

end

theorem subtreesAll_eq (ts : List (Rose α)) : subtreesAll ts = ts.flatMap subtrees := by
  induction ts with
  | nil => rfl
  | cons t ts ih => rw [subtreesAll, ih, List.flatMap_cons]

/-- All values of a tree, the root first. -/
def values (t : Rose α) : List α := t.subtrees.map value

theorem values_node (a : α) (ts : List (Rose α)) :
    (node a ts).values = a :: ts.flatMap values := by
  rw [values, subtrees, subtreesAll_eq, List.map_cons, List.map_flatMap]
  rfl

/-! ## Growing -/

section Grow

variable (children : α → List α)

/-- The tree below an item, if it has no more than so many levels. -/
def grow : ℕ → α → Option (Rose α)
  | 0, _ => none
  | levels + 1, a => do return node a (← (children a).mapM (grow levels))

/-- What stands below an item. -/
def Below : α → α → Prop := Relation.ReflTransGen fun p c => c ∈ children p

variable {children} {levels : ℕ} {a : α} {t : Rose α}

theorem mapM_eq_some {f : α → Option β} {l : List α} {bs : List β} :
    l.mapM f = some bs ↔ List.Forall₂ (fun a b => f a = some b) l bs := by
  induction l generalizing bs with
  | nil =>
    rw [List.mapM_nil, List.forall₂_nil_left_iff]
    exact ⟨fun h => (Option.some.inj h).symm, fun h => congrArg some h.symm⟩
  | cons a l ih =>
    rw [List.mapM_cons]
    constructor
    · intro h
      obtain ⟨b, hb, h⟩ := Option.bind_eq_some_iff.mp h
      obtain ⟨bs', hbs', h⟩ := Option.bind_eq_some_iff.mp h
      obtain rfl := Option.some.inj h
      exact .cons hb (ih.mp hbs')
    · rintro (- | ⟨hb, hbs⟩)
      exact Option.bind_eq_some_iff.mpr ⟨_, hb, Option.bind_eq_some_iff.mpr ⟨_, ih.mpr hbs, rfl⟩⟩

theorem mapM_map_option {γ : Type} {f : α → Option β} (g : β → γ) (l : List α) :
    (l.mapM fun a => (f a).map g) = (l.mapM f).map (List.map g) := by
  induction l with
  | nil => rfl
  | cons a l ih =>
    rw [List.mapM_cons, List.mapM_cons, ih]
    cases f a with
    | none => rfl
    | some b => cases l.mapM f <;> rfl

/-- **What a tree is grown from**: its root, and a tree for each child. -/
theorem grow_succ_eq_some : grow children (levels + 1) a = some t ↔
    ∃ ts, t = node a ts ∧
      List.Forall₂ (fun c s => grow children levels c = some s) (children a) ts := by
  constructor
  · intro h
    obtain ⟨ts, hts, h⟩ := Option.bind_eq_some_iff.mp h
    exact ⟨ts, (Option.some.inj h).symm, mapM_eq_some.mp hts⟩
  · rintro ⟨ts, rfl, hts⟩
    exact Option.bind_eq_some_iff.mpr ⟨ts, mapM_eq_some.mpr hts, rfl⟩

/-- **It is grown if it is not too high.** -/
theorem exists_grow {inside : α → Prop} {height : α → ℕ}
    (h : ∀ p, inside p → ∀ c ∈ children p, inside c ∧ height c < height p) (ha : inside a)
    (hlevels : height a < levels) : ∃ t, grow children levels a = some t := by
  induction levels generalizing a with
  | zero => exact absurd hlevels (Nat.not_lt_zero _)
  | succ levels ih =>
    have hall : ∀ l : List α, (∀ c ∈ l, c ∈ children a) →
        ∃ ts, List.Forall₂ (fun c s => grow children levels c = some s) l ts := by
      intro l hl
      induction l with
      | nil => exact ⟨[], .nil⟩
      | cons c l ihl =>
        obtain ⟨hinside, hlt⟩ := h a ha c (hl c List.mem_cons_self)
        obtain ⟨s, hs⟩ := ih hinside (by omega)
        obtain ⟨ts, hts⟩ := ihl fun d hd => hl d (List.mem_cons_of_mem _ hd)
        exact ⟨s :: ts, .cons hs hts⟩
    obtain ⟨ts, hts⟩ := hall (children a) fun c hc => hc
    exact ⟨node a ts, grow_succ_eq_some.mpr ⟨ts, rfl, hts⟩⟩

theorem value_of_grow (h : grow children levels a = some t) : t.value = a := by
  cases levels with
  | zero => cases h
  | succ levels =>
    obtain ⟨ts, rfl, -⟩ := grow_succ_eq_some.mp h
    rfl

/-- A tree that was grown has its children's trees in the children's order. -/
theorem children_of_grow (h : grow children levels a = some t) :
    t.children.map value = children a := by
  cases levels with
  | zero => cases h
  | succ levels =>
    obtain ⟨ts, rfl, hts⟩ := grow_succ_eq_some.mp h
    have hvalues : List.Forall₂ (fun c s => s.value = c) (children a) ts :=
      hts.imp fun c s hs => value_of_grow hs
    have heq : List.Forall₂ Eq (ts.map value) (children a) :=
      List.forall₂_map_left_iff.mpr hvalues.flip
    exact List.forall₂_eq_eq_eq ▸ heq

/-- **Everywhere in the tree** a node has the children of its value. -/
theorem children_of_mem_subtrees (h : grow children levels a = some t) :
    ∀ s ∈ t.subtrees, s.children.map value = children s.value := by
  induction levels generalizing a t with
  | zero => cases h
  | succ levels ih =>
    have hroot := children_of_grow h
    obtain ⟨ts, rfl, hts⟩ := grow_succ_eq_some.mp h
    intro s hs
    rw [subtrees, subtreesAll_eq] at hs
    obtain rfl | hs := List.mem_cons.mp hs
    · exact hroot
    · obtain ⟨u, hu, hs⟩ := List.mem_flatMap.mp hs
      obtain ⟨c, -, hgrow⟩ := forall_of_forall₂ hts u hu
      exact ih hgrow s hs

/-- **The tree holds what stands below its root.** -/
theorem mem_values_iff (h : grow children levels a = some t) {x : α} :
    x ∈ t.values ↔ Below children a x := by
  induction levels generalizing a t with
  | zero => cases h
  | succ levels ih =>
    obtain ⟨ts, rfl, hts⟩ := grow_succ_eq_some.mp h
    rw [values_node, List.mem_cons, List.mem_flatMap]
    constructor
    · rintro (rfl | ⟨u, hu, hx⟩)
      · exact .refl
      · obtain ⟨c, hc, hgrow⟩ := forall_of_forall₂ hts u hu
        exact .head hc ((ih hgrow).mp hx)
    · intro hx
      obtain rfl | ⟨c, hc, hx⟩ := Relation.ReflTransGen.cases_head hx
      · exact Or.inl rfl
      · obtain ⟨u, hu, hgrow⟩ := forall_of_forall₂ hts.flip c hc
        exact Or.inr ⟨u, hu, (ih hgrow).mpr hx⟩

end Grow

/-! ## Each once -/

section Once

/-- Children stand one level below their parent, and have no other. -/
structure Layered (inside : α → Prop) (children : α → List α) (depth : α → ℤ) : Prop where
  closed : ∀ p, inside p → ∀ c ∈ children p, inside c
  depth : ∀ p, inside p → ∀ c ∈ children p, depth c = depth p + 1
  parent : ∀ p, inside p → ∀ p', inside p' → ∀ c ∈ children p, c ∈ children p' → p = p'
  nodup : ∀ p, inside p → (children p).Nodup

variable {inside : α → Prop} {children : α → List α} {depth : α → ℤ} {a b x : α}

theorem Layered.depth_le (h : Layered inside children depth) (ha : inside a)
    (hx : Below children a x) : inside x ∧ depth a ≤ depth x ∧ (depth a = depth x → a = x) := by
  induction hx with
  | refl => exact ⟨ha, le_rfl, fun _ => rfl⟩
  | @tail y z hay hyz ih =>
    obtain ⟨hy, hle, -⟩ := ih
    have hz := h.depth y hy z hyz
    refine ⟨h.closed y hy z hyz, by omega, fun heq => ?_⟩
    omega

/-- Of two items of one depth with something below both, there is one. -/
theorem Layered.eq_of_below (h : Layered inside children depth) (hia : inside a) (hib : inside b)
    (ha : Below children a x) (hb : Below children b x) (heq : depth a = depth b) : a = b := by
  induction ha with
  | refl => exact ((h.depth_le hib hb).2.2 heq.symm).symm
  | @tail y z hay hyz ih =>
    obtain ⟨hy, hle, -⟩ := h.depth_le hia hay
    have hz := h.depth y hy z hyz
    obtain rfl | ⟨w, hbw, hwz⟩ := Relation.ReflTransGen.cases_tail hb
    · omega
    · obtain rfl := h.parent y hy w (h.depth_le hib hbw).1 z hyz hwz
      exact ih hbw

/-- **Nothing stands in the tree twice.** -/
theorem nodup_values (h : Layered inside children depth) {levels : ℕ} {t : Rose α} (ha : inside a)
    (hgrow : grow children levels a = some t) : t.values.Nodup := by
  induction levels generalizing a t with
  | zero => cases hgrow
  | succ levels ih =>
    obtain ⟨ts, rfl, hts⟩ := grow_succ_eq_some.mp hgrow
    have hbelow : ∀ u ∈ ts, ∃ c ∈ children a,
        u.value = c ∧ ∀ x, x ∈ u.values ↔ Below children c x := fun u hu => by
      obtain ⟨c, hc, hu⟩ := forall_of_forall₂ hts u hu
      exact ⟨c, hc, value_of_grow hu, fun x => mem_values_iff hu⟩
    have hvalues : (ts.map value).Nodup := by
      rw [show ts.map value = children a from children_of_grow hgrow]
      exact h.nodup a ha
    rw [values_node, List.nodup_cons, List.nodup_flatMap]
    refine ⟨fun hmem => ?_, fun u hu => ?_, ?_⟩
    · obtain ⟨u, hu, hmem⟩ := List.mem_flatMap.mp hmem
      obtain ⟨c, hc, -, hiff⟩ := hbelow u hu
      have hle := (h.depth_le (h.closed a ha c hc) ((hiff a).mp hmem)).2.1
      have hdepth := h.depth a ha c hc
      omega
    · obtain ⟨c, hc, hu⟩ := forall_of_forall₂ hts u hu
      exact ih (h.closed a ha c hc) hu
    · refine (List.pairwise_map.mp hvalues).imp_of_mem fun {u v} hu hv hne x hxu hxv => hne ?_
      obtain ⟨c, hc, hcu, hiffu⟩ := hbelow u hu
      obtain ⟨d, hd, hdv, hiffv⟩ := hbelow v hv
      rw [hcu, hdv]
      refine h.eq_of_below (h.closed a ha c hc) (h.closed a ha d hd) ((hiffu x).mp hxu)
        ((hiffv x).mp hxv) ?_
      rw [h.depth a ha c hc, h.depth a ha d hd]

end Once

/-! ## Relabelling -/

section Map

mutual

/-- The same tree with other values. -/
def map (f : α → β) : Rose α → Rose β
  | node a ts => node (f a) (mapAll f ts)

/-- …of each of a list of trees. -/
def mapAll (f : α → β) : List (Rose α) → List (Rose β)
  | [] => []
  | t :: ts => map f t :: mapAll f ts

end

variable {f : α → β}

theorem mapAll_eq (ts : List (Rose α)) : mapAll f ts = ts.map (map f) := by
  induction ts with
  | nil => rfl
  | cons t ts ih => rw [mapAll, ih, List.map_cons]

@[simp] theorem value_map (t : Rose α) : (t.map f).value = f t.value := by
  cases t
  rw [map, value, value]

@[simp] theorem children_map (t : Rose α) : (t.map f).children = t.children.map (map f) := by
  cases t
  rw [map, mapAll_eq, children, children]

mutual

theorem subtrees_map (t : Rose α) : (t.map f).subtrees = t.subtrees.map (map f) :=
  match t with
  | node a ts => by rw [map, subtrees, subtrees, subtreesAll_map ts, List.map_cons, map]

theorem subtreesAll_map (ts : List (Rose α)) :
    subtreesAll (mapAll f ts) = (subtreesAll ts).map (map f) :=
  match ts with
  | [] => rfl
  | t :: ts => by
    rw [mapAll, subtreesAll, subtreesAll, subtrees_map t, subtreesAll_map ts, List.map_append]

end

theorem values_map (t : Rose α) : (t.map f).values = t.values.map f := by
  rw [values, values, subtrees_map, List.map_map, List.map_map]
  exact List.map_congr_left fun s _ => value_map s

end Map

end Rose

end BareAnalysis
