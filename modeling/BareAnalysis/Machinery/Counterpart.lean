import Mathlib.Data.List.GetD
import Mathlib.Data.List.Nodup
import Mathlib.Order.Basic

/-!
# Machinery/Counterpart — from one list to another by position

    l  = [a, b, c]
          ↓  ↓  ↓   counterpart l l'
    l' = [x, y, z]

Two lists of one length, the first without repetition, are related by the function that takes each
entry to the one in its place.  It keeps the order where the lists rank their places alike.
-/

namespace BareAnalysis

variable {α β : Type*}

/-- The entry of `l'` in the place `a` has in `l`. -/
def counterpart [DecidableEq α] (l : List α) (l' : List β) (default : β) (a : α) : β :=
  l'.getD (l.idxOf a) default

/-- Of two lists related place by place, the second has nothing without a counterpart. -/
theorem forall_of_forall₂ {r : α → β → Prop} {l : List α} {l' : List β}
    (h : List.Forall₂ r l l') : ∀ b ∈ l', ∃ a ∈ l, r a b := by
  induction h with
  | nil => exact fun b hb => nomatch hb
  | cons hab _ ih =>
    intro b hb
    obtain rfl | hb := List.mem_cons.mp hb
    · exact ⟨_, List.mem_cons_self, hab⟩
    · obtain ⟨a, ha, hab⟩ := ih b hb
      exact ⟨a, List.mem_cons_of_mem _ ha, hab⟩

section Counterpart

variable [DecidableEq α] {l : List α} {l' : List β} {default : β}

/-- **Counterparts take the one list to the other.** -/
theorem map_counterpart (hnd : l.Nodup) (hlen : l'.length = l.length) :
    l.map (counterpart l l' default) = l' := by
  refine List.ext_getElem (by rw [List.length_map, hlen]) fun i hi hi' => ?_
  rw [List.length_map] at hi
  rw [List.getElem_map, counterpart, List.Nodup.idxOf_getElem hnd i hi, List.getD_eq_getElem _ _ hi']

/-- Different entries have different counterparts. -/
theorem counterpart_inj (hnd : l.Nodup) (hnd' : l'.Nodup) (hlen : l'.length = l.length) {a b : α}
    (ha : a ∈ l) (hb : b ∈ l) (h : counterpart l l' default a = counterpart l l' default b) :
    a = b := by
  rw [← map_counterpart hnd hlen] at hnd'
  exact List.inj_on_of_nodup_map hnd' ha hb h

end Counterpart

/-- The places of two lists are ranked alike. -/
def SameOrder [LE α] [LE β] (l : List α) (l' : List β) (d : α) (d' : β) : Prop :=
  ∀ i j, l'.getD i d' ≤ l'.getD j d' ↔ l.getD i d ≤ l.getD j d

theorem sameOrder_refl [LE α] (l : List α) (d : α) : SameOrder l l d d := fun _ _ => Iff.rfl

/-- **Between lists ranked alike counterparts keep the order.** -/
theorem counterpart_le [DecidableEq α] [LE α] [LE β] {l : List α} {l' : List β} {d : α} {d' : β}
    (h : SameOrder l l' d d') {a b : α} (ha : a ∈ l) (hb : b ∈ l) :
    counterpart l l' d' a ≤ counterpart l l' d' b ↔ a ≤ b := by
  have hget : ∀ {a : α}, a ∈ l → l.getD (l.idxOf a) d = a := fun {a} ha => by
    have hi := List.idxOf_lt_length_of_mem ha
    rw [List.getD_eq_getElem _ _ hi]
    exact List.getElem_idxOf hi
  rw [counterpart, counterpart, h, hget ha, hget hb]

end BareAnalysis
