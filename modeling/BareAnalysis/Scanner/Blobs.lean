import BareAnalysis.Scanner.Shape

/-!
# Scanner/Blobs — what is rejected as a slice of a blob

    … A B C D │ e y J . k │ E F G H …        the span, and the base64 characters beside it
      before  │   span    │  behind          counted together, the span's own on trust

`base64_run_length` of `core/rules/shape.py` counts the characters of the span whatever they are.
-/

namespace BareAnalysis

section Prefix

variable {α : Type*} {p : α → Bool} {l : List α}

/-- How far a prefix of good elements reaches. -/
theorem le_length_takeWhile_iff {n : ℕ} :
    n ≤ (l.takeWhile p).length ↔ ∀ i < n, (l[i]?).any p = true := by
  induction l generalizing n with
  | nil =>
    constructor
    · intro h i hi
      rw [List.takeWhile_nil, List.length_nil] at h
      omega
    · intro h
      obtain _ | n := n
      · exact Nat.zero_le _
      · exact absurd (h 0 (Nat.zero_lt_succ n)) (by simp)
  | cons a l ih =>
    rw [List.takeWhile_cons]
    by_cases ha : p a = true
    · rw [if_pos ha, List.length_cons]
      obtain _ | n := n
      · exact iff_of_true (Nat.zero_le _) fun i hi => (nomatch hi)
      · rw [Nat.add_le_add_iff_right, ih]
        constructor
        · intro h i hi
          obtain _ | i := i
          · exact ha
          · exact h i (Nat.lt_of_succ_lt_succ hi)
        · exact fun h i hi => h (i + 1) (Nat.succ_lt_succ hi)
    · rw [if_neg ha, List.length_nil]
      constructor
      · intro h i hi
        omega
      · intro h
        by_contra hn
        exact ha (h 0 (by omega))

end Prefix

/-! ## Runs -/

/-- Every character from one index to another is of the alphabet. -/
def IsBase64Span (haystack : List Char) (left right : ℕ) : Prop :=
  ∀ i, left ≤ i → i < right → (haystack[i]?).any isBase64Char = true

/-- The span lies in a run of the alphabet that reaches the threshold. -/
def InBase64Run (haystack : List Char) (start stop : ℕ) : Prop :=
  ∃ left right, left ≤ start ∧ stop ≤ right ∧ left + blobRunThreshold ≤ right ∧
    IsBase64Span haystack left right

/-- The characters of the alphabet that stand right before an index. -/
def base64Before (haystack : List Char) (start : ℕ) : ℕ :=
  ((haystack.take start).reverse.takeWhile isBase64Char).length

/-- …and right behind one. -/
def base64Behind (haystack : List Char) (stop : ℕ) : ℕ :=
  ((haystack.drop stop).takeWhile isBase64Char).length

theorem base64RunLength_eq (haystack : List Char) (start stop : ℕ) :
    base64RunLength haystack start stop
      = base64Before haystack start + (stop - start) + base64Behind haystack stop := rfl

section Runs

variable {haystack : List Char} {start stop left right : ℕ}

/-- **A run that ends at the span** reaches back over what stands before it, and no further. -/
theorem isBase64Span_before_iff (hstart : start ≤ haystack.length) (hleft : left ≤ start) :
    IsBase64Span haystack left start ↔ start - left ≤ base64Before haystack start := by
  have hchar : ∀ i < start,
      (haystack.take start).reverse[i]? = haystack[start - 1 - i]? := fun i hi => by
    rw [List.getElem?_reverse (by rw [List.length_take]; omega), List.length_take,
      Nat.min_eq_left hstart, List.getElem?_take_of_lt (by omega)]
  rw [base64Before, le_length_takeWhile_iff]
  constructor
  · intro h i hi
    rw [hchar i (by omega)]
    exact h _ (by omega) (by omega)
  · intro h i hli his
    have hi := h (start - 1 - i) (by omega)
    rwa [hchar _ (by omega), show start - 1 - (start - 1 - i) = i by omega] at hi

/-- **A run that starts at the end of the span** reaches over what stands behind it. -/
theorem isBase64Span_behind_iff :
    IsBase64Span haystack stop right ↔ right - stop ≤ base64Behind haystack stop := by
  rw [base64Behind, le_length_takeWhile_iff]
  constructor
  · intro h i hi
    rw [List.getElem?_drop]
    exact h _ (by omega) (by omega)
  · intro h i hsi hir
    have hi := h (i - stop) (by omega)
    rwa [List.getElem?_drop, Nat.add_sub_cancel' hsi] at hi

/-- **A span of the alphabet lies in a long run exactly when the count says so.** -/
theorem inBase64Run_iff (hspan : start < stop) (hstop : stop ≤ haystack.length) :
    InBase64Run haystack start stop ↔ IsBase64Span haystack start stop ∧
      blobRunThreshold ≤ base64RunLength haystack start stop := by
  rw [base64RunLength_eq]
  constructor
  · rintro ⟨left, right, hleft, hright, hlong, hrun⟩
    refine ⟨fun i hi hi' => hrun i (by omega) (by omega), ?_⟩
    have hbefore := (isBase64Span_before_iff (by omega) hleft).mp fun i hi hi' =>
      hrun i hi (by omega)
    have hbehind := isBase64Span_behind_iff.mp fun i (hi : stop ≤ i) hi' =>
      hrun i (by omega) hi'
    omega
  · rintro ⟨hin, hlong⟩
    have hle : base64Before haystack start ≤ start := by
      have hsub := (List.takeWhile_sublist (l := (haystack.take start).reverse)
        isBase64Char).length_le
      rw [List.length_reverse, List.length_take] at hsub
      exact Nat.le_trans hsub (Nat.min_le_left _ _)
    refine ⟨start - base64Before haystack start, stop + base64Behind haystack stop, by omega,
      by omega, by omega, fun i hi hi' => ?_⟩
    obtain hbefore | hbefore := Nat.lt_or_ge i start
    · exact (isBase64Span_before_iff (by omega) (by omega)).mpr
        (by omega : start - (start - base64Before haystack start) ≤ _) i hi hbefore
    · obtain hspan | hbehind := Nat.lt_or_ge i stop
      · exact hin i hbefore hspan
      · exact isBase64Span_behind_iff.mpr (by omega : stop + base64Behind haystack stop - stop ≤ _)
          i hbehind hi'

end Runs

/-! ## `classify` -/

/-- Spans are rejected as slices of blobs when, and only when, they are. -/
structure RejectsOnlySlices (u : Unicode) (value haystack : List Char) (start stop : ℕ)
    (policy : ShapePolicy) (requireMixedCase : Bool) : Prop where
  only : classify u value haystack start stop policy requireMixedCase = .blobSlice →
    InBase64Run haystack start stop
  /-- A character outside the alphabet keeps a match from being one. -/
  foreign : ¬IsBase64Span haystack start stop →
    classify u value haystack start stop policy requireMixedCase ≠ .blobSlice
  always : InBase64Run haystack start stop →
    (classify u value haystack start stop policy requireMixedCase).isDisqualifying = true

section Classify

variable {u : Unicode} {value haystack : List Char} {start stop : ℕ} {policy : ShapePolicy}
  {requireMixedCase : Bool}

theorem valueShape_ne_blobSlice (stripped : List Char) (requireMixedCase : Bool) :
    valueShape stripped requireMixedCase ≠ .blobSlice := by
  rw [valueShape]
  split_ifs <;> decide

/-- Short of the threshold the surroundings say something else, or nothing. -/
theorem contextShape_of_lt (hshort : base64RunLength haystack start stop < blobRunThreshold) :
    contextShape haystack start stop = some .encodedStructure ∨
      contextShape haystack start stop = none := by
  rw [contextShape]
  split
  · rw [if_neg (Nat.not_le_of_lt hshort)]
    dsimp only
    split
    · exact Or.inl rfl
    · exact Or.inr rfl
  · exact Or.inr rfl

/-- A value is rejected as a slice exactly when the count reaches the threshold. -/
theorem classify_eq_blobSlice_iff (hspan : start < stop) (hstop : stop ≤ haystack.length) :
    classify u value haystack start stop policy requireMixedCase = .blobSlice ↔
      strip u.space value ≠ [] ∧ blobRunThreshold ≤ base64RunLength haystack start stop := by
  have hhaystack : haystack ≠ [] ∧ start < stop ∧ stop ≤ haystack.length :=
    ⟨fun h => by rw [h, List.length_nil] at hstop; omega, hspan, hstop⟩
  unfold classify
  dsimp only
  by_cases hblank : strip u.space value = []
  · rw [if_pos hblank]
    exact iff_of_false (by decide) fun h => h.1 hblank
  · rw [if_neg hblank]
    by_cases hlong : blobRunThreshold ≤ base64RunLength haystack start stop
    · rw [contextShape, if_pos hhaystack, if_pos hlong]
      exact iff_of_true rfl ⟨hblank, hlong⟩
    · refine iff_of_false ?_ fun h => hlong h.2
      obtain hcontext | hcontext := contextShape_of_lt (Nat.lt_of_not_le hlong)
      · rw [hcontext]
        exact fun h => (nomatch h)
      · rw [hcontext]
        cases policy with
        | context => exact fun h => (nomatch h)
        | strict => exact valueShape_ne_blobSlice _ _

/-- **Only slices of blobs are rejected as such** exactly when the span is of the alphabet itself, the
value is blank, or the characters beside the span do not make up the threshold with it. -/
theorem rejectsOnlySlices_iff (hspan : start < stop) (hstop : stop ≤ haystack.length) :
    RejectsOnlySlices u value haystack start stop policy requireMixedCase ↔
      IsBase64Span haystack start stop ∨ strip u.space value = [] ∨
        base64Before haystack start + (stop - start) + base64Behind haystack stop
          < blobRunThreshold := by
  rw [← base64RunLength_eq]
  have hclassify := @classify_eq_blobSlice_iff u value haystack start stop policy requireMixedCase
    hspan hstop
  constructor
  · intro h
    by_contra hbad
    push Not at hbad
    obtain ⟨hforeign, hblank, hlong⟩ := hbad
    exact h.foreign hforeign (hclassify.mpr ⟨hblank, hlong⟩)
  · intro hcond
    have honly : classify u value haystack start stop policy requireMixedCase = .blobSlice →
        InBase64Run haystack start stop := by
      intro hslice
      obtain ⟨hblank, hlong⟩ := hclassify.mp hslice
      rw [inBase64Run_iff hspan hstop]
      obtain hin | hblank' | hshort := hcond
      · exact ⟨hin, hlong⟩
      · exact absurd hblank' hblank
      · omega
    refine ⟨honly, fun hforeign hslice => ?_, fun hrun => ?_⟩
    · exact hforeign ((inBase64Run_iff hspan hstop).mp (honly hslice)).1
    · by_cases hblank : strip u.space value = []
      · unfold classify
        dsimp only
        rw [if_pos hblank]
        rfl
      · rw [hclassify.mpr ⟨hblank, ((inBase64Run_iff hspan hstop).mp hrun).2⟩]
        rfl

end Classify

/-! ## A token with dots -/

theorem rejectsOnlySlices_letters :
    RejectsOnlySlices Unicode.ascii "aaaa".toList (List.replicate 200 'a') 50 54 .context false :=
  (rejectsOnlySlices_iff (by decide) (by rw [List.length_replicate]; decide)).mpr
    (Or.inl fun i _ hi => by
      rw [List.getElem?_replicate_of_lt (by omega)]
      rfl)

/-- Two parts of a token, with a dot between them. -/
def dottedToken : List Char := List.replicate 60 'e' ++ '.' :: List.replicate 60 'y'

/-- A token with a dot in it, with nothing beside it, is rejected as a slice of a blob. -/
theorem rejects_dotted_token :
    ¬∀ (u : Unicode) (value haystack : List Char) (start stop : ℕ) (policy : ShapePolicy)
      (requireMixedCase : Bool), start < stop → stop ≤ haystack.length →
        RejectsOnlySlices u value haystack start stop policy requireMixedCase := by
  intro hclaim
  have hlength : 121 ≤ dottedToken.length := by decide +kernel
  have h := hclaim Unicode.ascii dottedToken dottedToken 0 121 .context false (by decide) hlength
  refine h.foreign (fun hin => ?_) ((classify_eq_blobSlice_iff (by decide) hlength).mpr
    ⟨by decide +kernel, by decide +kernel⟩)
  exact absurd (hin 60 (by decide) (by decide)) (by decide)

end BareAnalysis
