import BareAnalysis.Scanner.Scan

/-!
# Scanner/Context — what a masked context shows

    raw context   ⋯ v ⋯ v ⋯   ──cut at v──▸   ⋯ │ ⋯ │ ⋯   ──ends the mask keeps──▸   parts

The glyph of the mask is in no value, so a value is found in the masked context only inside a part:
where it overlaps an end the mask keeps, or where it stands wide, which the cut does not see.
-/

namespace BareAnalysis

variable {interp : Interpreter} {pack : ScanPack} {data : Bytes}

/-- A value as wide characters, the way the raw context renders them. -/
def dotted (value : List Char) : List Char := value.intersperse '.'

/-- The parts of a text once a value, read in some form, is masked. -/
def maskedParts (value form text : List Char) : List (List Char) :=
  openParts (keptPrefix value) (keptSuffix value) form text

theorem bullet_not_mem {value : List Char} (h : IsPrintableText value) : bullet ∉ value :=
  fun hmem => by
    obtain hascii | htab := h bullet hmem
    · exact absurd hascii.2 (by decide)
    · exact absurd htab (by decide)

theorem mem_intersperse {α : Type*} {a sep : α} {l : List α} (h : a ∈ l.intersperse sep) :
    a ∈ l ∨ a = sep := by
  induction l with
  | nil => cases h
  | cons b l ih =>
    obtain - | ⟨c, l⟩ := l
    · exact Or.inl h
    · rw [List.intersperse_cons_cons, List.mem_cons, List.mem_cons] at h
      obtain rfl | rfl | h := h
      · exact Or.inl List.mem_cons_self
      · exact Or.inr rfl
      · exact (ih h).imp_left (List.mem_cons_of_mem b)

theorem bullet_not_mem_dotted {value : List Char} (h : IsPrintableText value) :
    bullet ∉ dotted value := fun hmem => by
  obtain hmem | hdot := mem_intersperse hmem
  · exact bullet_not_mem h hmem
  · exact absurd hdot (by decide)

theorem dotted_ne_nil {value : List Char} (h : value ≠ []) : dotted value ≠ [] := by
  obtain - | ⟨a, - | ⟨b, l⟩⟩ := value
  · exact absurd rfl h
  · exact List.cons_ne_nil _ _
  · exact List.cons_ne_nil _ _

/-- Something of every value is hidden. -/
theorem hiddenCount_pos {value : List Char} (h : value ≠ []) :
    ∃ n, hiddenCount value = n + 1 := by
  have hlen := List.length_pos_iff.mpr h
  refine Nat.exists_eq_succ_of_ne_zero ?_
  rw [hiddenCount]
  split <;> omega

/-- **What a text shows once a value is masked in it.** -/
theorem shows_replace_mask {value form text : List Char} {parts : List (List Char)}
    (hvalue : value ≠ []) (hform : form ≠ []) (hbullet : bullet ∉ form)
    (h : Shows bullet text parts) :
    Shows bullet (replace form (mask value) text) (parts.flatMap (maskedParts value form)) := by
  obtain ⟨n, hn⟩ := hiddenCount_pos hvalue
  rw [mask, hn]
  exact h.replace n hform hbullet

end BareAnalysis
