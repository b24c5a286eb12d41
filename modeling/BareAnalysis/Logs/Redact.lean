import BareAnalysis.Machinery.Utf8
import BareAnalysis.Scanner.Context

/-!
# Logs/Redact — masking every value a pack finds in a log

    text ──scan──▸ values, longest first
    text ──mask v₁──▸ · ──mask v₂──▸ · ──⋯──▸ redacted

`redact_log_text` of `core/pipeline/logs.py`.  Each value is masked plain and wide, all in the same
text; what a mask keeps of its value stays next to what stood there, and nothing looks again.
-/

namespace BareAnalysis

section Redact

variable (interp : Interpreter) (pack : ScanPack)

/-- A value as wide characters: each followed by a NUL. -/
def nulWide (value : List Char) : List Char := value.flatMap fun c => [c, '\x00']

/-- The values the pack finds in a text, longest first. -/
def logValues (text : List Char) : List (List Char) :=
  sortBy (fun value => -(value.length : ℤ))
    (keepFirst id ((scanBytes interp pack (Utf8.encode text)).map (·.value)))

/-- One value masked, in both forms. -/
def maskValue (text value : List Char) : List Char :=
  replace (nulWide value) (mask value) (replace value (mask value) text)

/-- Values masked one after the other. -/
def maskValues (values : List (List Char)) (text : List Char) : List Char :=
  values.foldl maskValue text

/-- `redact_log_text`. -/
def redactLogText (text : List Char) : List Char :=
  if text = [] then text else maskValues (logValues interp pack text) text

end Redact

/-! ## What a redacted text shows -/

/-- The parts once a value is masked in each, plain and wide. -/
def splitParts (parts : List (List Char)) (value : List Char) : List (List Char) :=
  (parts.flatMap (maskedParts value value)).flatMap (maskedParts value (nulWide value))

/-- **The parts of a text** that are left when values are masked in it. -/
def redactedParts (values : List (List Char)) (text : List Char) : List (List Char) :=
  values.foldl splitParts [text]

variable {interp : Interpreter} {pack : ScanPack} {text value : List Char}
  {values : List (List Char)}

/-- A value that can be matched. -/
def IsMatchable (value : List Char) : Prop := value ≠ [] ∧ IsPrintableText value

theorem nulWide_ne_nil (h : value ≠ []) : nulWide value ≠ [] := by
  obtain ⟨c, l, rfl⟩ := List.exists_cons_of_ne_nil h
  exact List.cons_ne_nil _ _

theorem mem_nulWide {c : Char} (h : c ∈ nulWide value) : c ∈ value ∨ c = '\x00' := by
  obtain ⟨d, hd, hc⟩ := List.mem_flatMap.mp h
  obtain rfl | hc := List.mem_cons.mp hc
  · exact Or.inl hd
  · exact Or.inr (List.mem_singleton.mp hc)

theorem bullet_not_mem_nulWide (h : IsPrintableText value) : bullet ∉ nulWide value := fun hmem => by
  obtain hmem | hnul := mem_nulWide hmem
  · exact bullet_not_mem h hmem
  · exact absurd hnul (by decide)

theorem mem_logValues :
    value ∈ logValues interp pack text ↔
      ∃ m ∈ scanBytes interp pack (Utf8.encode text), m.value = value := by
  rw [logValues, mem_sortBy, ← List.mem_map]
  constructor
  · exact mem_of_mem_keepFirst
  · intro h
    obtain ⟨v, hv, rfl⟩ : ∃ v ∈ keepFirst id _, id v = id value := exists_mem_keepFirst h
    exact hv

theorem isMatchable_of_mem_logValues (h : value ∈ logValues interp pack text) :
    IsMatchable value := by
  obtain ⟨m, hm, rfl⟩ := mem_logValues.mp h
  exact value_of_mem_scanBytes hm

/-- Masking one value acts on the parts… -/
theorem shows_maskValue {parts : List (List Char)} (hvalue : IsMatchable value)
    (h : Shows bullet text parts) :
    Shows bullet (maskValue text value) (splitParts parts value) :=
  shows_replace_mask hvalue.1 (nulWide_ne_nil hvalue.1) (bullet_not_mem_nulWide hvalue.2)
    (shows_replace_mask hvalue.1 hvalue.1 (bullet_not_mem hvalue.2) h)

/-- …and so does masking them all. -/
theorem shows_maskValues (hvalues : ∀ value ∈ values, IsMatchable value) :
    Shows bullet (maskValues values text) (redactedParts values text) := by
  have hrun : ∀ {text : List Char} {parts : List (List Char)}, Shows bullet text parts →
      Shows bullet (values.foldl maskValue text) (values.foldl splitParts parts) := by
    induction values with
    | nil => exact id
    | cons value values ih =>
      intro text parts h
      exact ih (fun v hv => hvalues v (List.mem_cons_of_mem value hv))
        (shows_maskValue (hvalues value List.mem_cons_self) h)
  exact hrun (.last text)

theorem maskValue_nil (hvalue : IsMatchable value) : maskValue [] value = [] := by
  rw [maskValue, replace_eq_self hvalue.1 _ fun h => hvalue.1 (List.infix_nil.mp h),
    replace_eq_self (nulWide_ne_nil hvalue.1) _ fun h =>
      nulWide_ne_nil hvalue.1 (List.infix_nil.mp h)]

theorem maskValues_nil (hvalues : ∀ value ∈ values, IsMatchable value) :
    maskValues values [] = [] := by
  induction values with
  | nil => rfl
  | cons value values ih =>
    rw [maskValues, List.foldl_cons, maskValue_nil (hvalues value List.mem_cons_self)]
    exact ih fun v hv => hvalues v (List.mem_cons_of_mem value hv)

theorem redactLogText_eq (interp : Interpreter) (pack : ScanPack) (text : List Char) :
    redactLogText interp pack text = maskValues (logValues interp pack text) text := by
  rw [redactLogText]
  split
  · rename_i hnil
    rw [hnil, maskValues_nil fun v hv => isMatchable_of_mem_logValues hv]
  · rfl

/-- A text hides a value in both forms. -/
def Hides (value text : List Char) : Prop := ¬value <:+: text ∧ ¬nulWide value <:+: text

instance (value text : List Char) : Decidable (Hides value text) := inferInstanceAs (Decidable (_ ∧ _))

/-- A redacted text hides what its parts hide. -/
theorem hides_redactLogText (hvalue : IsMatchable value) :
    Hides value (redactLogText interp pack text) ↔
      ∀ part ∈ redactedParts (logValues interp pack text) text, Hides value part := by
  have hshows : Shows bullet (redactLogText interp pack text)
      (redactedParts (logValues interp pack text) text) := by
    rw [redactLogText_eq]
    exact shows_maskValues fun v hv => isMatchable_of_mem_logValues hv
  rw [Hides, hshows.infix_iff (bullet_not_mem hvalue.2) hvalue.1,
    hshows.infix_iff (bullet_not_mem_nulWide hvalue.2) (nulWide_ne_nil hvalue.1)]
  constructor
  · rintro ⟨hplain, hwide⟩ part hpart
    exact ⟨fun hv => hplain ⟨part, hpart, hv⟩, fun hv => hwide ⟨part, hpart, hv⟩⟩
  · intro hparts
    exact ⟨fun ⟨part, hpart, hv⟩ => (hparts part hpart).1 hv,
      fun ⟨part, hpart, hv⟩ => (hparts part hpart).2 hv⟩

theorem Hides.of_infix {part : List Char} (h : Hides value text) (hpart : part <:+: text) :
    Hides value part :=
  ⟨fun hv => h.1 (hv.trans hpart), fun hv => h.2 (hv.trans hpart)⟩

/-- A mask that keeps nothing cuts a text. -/
theorem maskedParts_short (hshort : value.length ≤ 12) (form text : List Char) :
    maskedParts value form text = cut form text := by
  rw [maskedParts, keptPrefix, keptSuffix, if_pos hshort, if_pos hshort, openParts_nil_nil]

/-- What is left of a part is in it, and hides the value. -/
theorem hides_of_mem_splitParts {parts : List (List Char)} {part : List Char}
    (hvalue : IsMatchable value) (hshort : value.length ≤ 12) (h : part ∈ splitParts parts value) :
    (∃ p ∈ parts, part <:+: p) ∧ Hides value part := by
  obtain ⟨q, hq, hpart⟩ := List.mem_flatMap.mp h
  obtain ⟨p, hp, hq⟩ := List.mem_flatMap.mp hq
  rw [maskedParts_short hshort] at hpart hq
  have hwithin := infix_of_mem_cut (nulWide_ne_nil hvalue.1) hpart
  exact ⟨⟨p, hp, hwithin.trans (infix_of_mem_cut hvalue.1 hq)⟩,
    fun hv => not_infix_of_mem_cut hvalue.1 hq (hv.trans hwithin),
    not_infix_of_mem_cut (nulWide_ne_nil hvalue.1) hpart⟩

theorem hides_of_mem_foldl {parts : List (List Char)} {part : List Char}
    (hvalues : ∀ value ∈ values, IsMatchable value ∧ value.length ≤ 12)
    (h : part ∈ values.foldl splitParts parts) :
    (∃ p ∈ parts, part <:+: p) ∧ ∀ value ∈ values, Hides value part := by
  induction values generalizing parts with
  | nil => exact ⟨⟨part, h, List.infix_rfl⟩, fun _ hv => (nomatch hv)⟩
  | cons value values ih =>
    obtain ⟨⟨q, hq, hpart⟩, hrest⟩ :=
      ih (fun v hv => hvalues v (List.mem_cons_of_mem value hv)) h
    obtain ⟨hmatch, hshort⟩ := hvalues value List.mem_cons_self
    obtain ⟨⟨p, hp, hwithin⟩, hhides⟩ := hides_of_mem_splitParts hmatch hshort hq
    refine ⟨⟨p, hp, hpart.trans hwithin⟩, fun v hv => ?_⟩
    obtain rfl | hv := List.mem_cons.mp hv
    · exact hhides.of_infix hpart
    · exact hrest v hv

/-- **Short values stay hidden**: where every mask is made of glyphs alone, no value comes back. -/
theorem redactLogText_hides_short
    (hshort : ∀ m ∈ scanBytes interp pack (Utf8.encode text), m.value.length ≤ 12) :
    ∀ m ∈ scanBytes interp pack (Utf8.encode text),
      Hides m.value (redactLogText interp pack text) := fun m hm => by
  refine (hides_redactLogText (value_of_mem_scanBytes hm)).mpr fun part hpart => ?_
  refine (hides_of_mem_foldl (fun v hv => ?_) hpart).2 m.value (mem_logValues.mpr ⟨m, hm, rfl⟩)
  obtain ⟨m', hm', rfl⟩ := mem_logValues.mp hv
  exact ⟨value_of_mem_scanBytes hm', hshort m' hm'⟩

/-! ## A value that comes back -/

end BareAnalysis
