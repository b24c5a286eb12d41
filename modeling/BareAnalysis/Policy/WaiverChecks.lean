import BareAnalysis.Policy.FailsClosed

/-!
# Policy/WaiverChecks — what the loader checks of a list of waivers

    mapping, finding_id, reason, owner, expires     entry by entry, each against those ahead of it

The entries are texts and dates in YAML; only what cannot be printed is not reported.
-/

namespace BareAnalysis.PolicyLoader

open Yaml

section Checks

variable (b : Builtins) (policy : LoadedPolicy)

/-- What an entry has under a key. -/
def fieldValue (entry : Yaml) (key : String) : Yaml :=
  (lookup (entriesOf (some entry)) key).getD (.str "")

/-- What is printed of a field, without blanks around it. -/
def FieldIs (entry : Yaml) (key : String) (p : String → Prop) : Prop :=
  ∃ text, (fieldValue entry key).text b.printable = .ok text ∧ p (stripText b text)

def fieldCheck (entry : Yaml) (key : String) (p : String → Prop) : Check where
  passes := FieldIs b entry key p
  reported := FieldIs b entry key fun text => ¬p text

/-- An id that no entry ahead has. -/
def IsFreshId (earlier : List Yaml) (id : String) : Prop :=
  id ≠ "" ∧ ¬∃ e ∈ earlier, FieldIs b e "finding_id" (· = id)

/-- There is no expiry. -/
def IsMissing (raw : Option Yaml) : Prop := raw = none ∨ raw = some .null ∨ raw = some (.str "")

/-- A day, a time, or a text of a day. -/
def IsDay (v : Yaml) : Prop :=
  (∃ d, v = .date d) ∨ (∃ d text repr, v = .datetime d text repr) ∨
    ∃ text d, v.text b.printable = .ok text ∧ Date.fromisoformat? (stripText b text) = some d

def expiresCheck (raw : Option Yaml) : Check where
  passes := ¬IsMissing raw ∧ ∀ v ∈ raw, IsDay b v
  reported := IsMissing raw ∨ ∃ v ∈ raw, ¬IsDay b v ∧ (v.reprText b.printable).isOk = true

/-- **The checks of one entry**, after those ahead of it. -/
def entryChecks (earlier : List Yaml) (entry : Yaml) : List Check :=
  [mappingCheck (some entry),
    fieldCheck b entry "finding_id" (IsFreshId b earlier),
    fieldCheck b entry "reason" fun text => ¬(policy.requireWaiverReason = true ∧ text = ""),
    fieldCheck b entry "owner" fun text => ¬(policy.requireWaiverOwner = true ∧ text = ""),
    expiresCheck b (lookup (entriesOf (some entry)) "expires")]

/-- …and of all entries. -/
def waiverChecks : List Yaml → List Yaml → List Check
  | _, [] => []
  | earlier, entry :: rest =>
    entryChecks b policy earlier entry ++ waiverChecks (earlier ++ [entry]) rest

/-- **The checks of a waiver file.** -/
def fileChecks (data : List (Yaml × Yaml)) : List Check :=
  match (lookup data "waivers").getD (.list []) with
  | .null => []
  | .list entries => waiverChecks b policy [] entries
  | _ => [⟨False, True⟩]

end Checks

section Performed

variable {b : Builtins} {policy : LoadedPolicy}

/-- A field that was read. -/
theorem fieldOf_eq_ok {entry : Yaml} {key id : String} :
    fieldOf b (entriesOf (some entry)) key = .ok id ↔ FieldIs b entry key (· = id) := by
  constructor
  · intro h
    obtain ⟨text, htext, h⟩ := bind_eq_ok.mp h
    exact ⟨text, unguarded_eq_ok.mp htext, Except.ok.inj h⟩
  · rintro ⟨text, htext, h⟩
    exact bind_eq_ok.mpr ⟨text, unguarded_eq_ok.mpr htext, congrArg Except.ok h⟩

theorem fieldIs_iff {entry : Yaml} {key id : String} {p : String → Prop}
    (h : FieldIs b entry key (· = id)) : FieldIs b entry key p ↔ p id := by
  obtain ⟨text, htext, rfl⟩ := h
  constructor
  · rintro ⟨text', htext', hp⟩
    rwa [Except.ok.inj (htext.symm.trans htext')]
  · intro hp
    exact ⟨text, htext, hp⟩

/-- What is read of a field is checked… -/
theorem performs_field {α : Type} {entry : Yaml} {key : String} {p : String → Prop}
    {f : String → Except PolicyError α} {checks : List Check}
    (hpass : ∀ id, FieldIs b entry key (· = id) → p id → Performs IsLoadError (f id) checks)
    (hfail : ∀ id, ¬p id → ∃ message, f id = .error (.policyLoadError message)) :
    Performs IsLoadError (fieldOf b (entriesOf (some entry)) key >>= f)
      (fieldCheck b entry key p :: checks) := by
  cases hfield : fieldOf b (entriesOf (some entry)) key with
  | error e =>
    have hnot : ∀ q, ¬FieldIs b entry key q := by
      rintro q ⟨text, htext, -⟩
      have hread := fieldOf_eq_ok.mpr ⟨text, htext, rfl⟩
      rw [hfield] at hread
      cases hread
    refine performs_error (hnot p) (iff_of_false ?_ (hnot fun text => ¬p text))
    obtain he | ⟨text, -, he⟩ := bind_eq_error.mp hfield
    · exact fun hload => not_raises_unguarded _ ⟨e, he, hload⟩
    · cases he
  | ok id =>
    have hread := fieldOf_eq_ok.mp hfield
    have hpasses : (fieldCheck b entry key p).passes ↔ p id := fieldIs_iff hread
    have hreported : (fieldCheck b entry key p).reported ↔ ¬p id :=
      @fieldIs_iff _ _ _ _ (fun text => ¬p text) hread
    rw [ok_bind]
    by_cases hp : p id
    · exact (hpass id hread hp).cons (hpasses.mpr hp) (mt hreported.mp (not_not_intro hp))
    · obtain ⟨message, hf⟩ := hfail id hp
      rw [hf]
      exact performs_error (mt hpasses.mp hp) (iff_of_true trivial (hreported.mpr hp))

/-- A text is read as a day or reported. -/
theorem parseDate_of_text {v : Yaml} (hdate : ∀ d, v ≠ .date d)
    (hdatetime : ∀ d text repr, v ≠ .datetime d text repr) (fieldName : String) :
    parseDate b v fieldName =
      match (v.text b.printable).toOption.bind fun text =>
        Date.fromisoformat? (stripText b text) with
      | some d => .ok d
      | none => unguarded (v.reprText b.printable) >>= fun shown =>
        .error (.policyLoadError (fieldName ++ ": expected an ISO date (YYYY-MM-DD), got "
          ++ shown)) := by
  rw [parseDate]
  · rfl
  · exact fun d text repr h => hdatetime d text repr h
  · exact fun d h => hdate d h

theorem toOption_bind_iff {v : Yaml} {d : Date} :
    (v.text b.printable).toOption.bind (fun text => Date.fromisoformat? (stripText b text))
      = some d ↔
    ∃ text, v.text b.printable = .ok text ∧ Date.fromisoformat? (stripText b text) = some d := by
  rw [Option.bind_eq_some_iff]
  refine exists_congr fun text => and_congr_left' ?_
  cases v.text b.printable with
  | error e => exact iff_of_false nofun nofun
  | ok text' => exact ⟨fun h => congrArg Except.ok (Option.some.inj h),
      fun h => congrArg some (Except.ok.inj h)⟩

/-- …as is the day. -/
theorem performs_parseDate (v : Yaml) (fieldName : String) :
    Performs IsLoadError (parseDate b v fieldName)
      [⟨IsDay b v, ¬IsDay b v ∧ (v.reprText b.printable).isOk = true⟩] := by
  have hok : ∀ d, IsDay b v → Performs IsLoadError (.ok d : Except PolicyError Date)
      [⟨IsDay b v, ¬IsDay b v ∧ (v.reprText b.printable).isOk = true⟩] :=
    fun d hday => (performs_ok d).cons hday fun h => h.1 hday
  by_cases hdate : ∃ d, v = .date d
  · obtain ⟨d, rfl⟩ := hdate
    exact hok d (Or.inl ⟨d, rfl⟩)
  by_cases hdatetime : ∃ d text repr, v = .datetime d text repr
  · obtain ⟨d, text, repr, rfl⟩ := hdatetime
    exact hok d (Or.inr (Or.inl ⟨d, text, repr, rfl⟩))
  rw [parseDate_of_text (fun d h => hdate ⟨d, h⟩) fun d text repr h => hdatetime ⟨d, text, repr, h⟩]
  cases hread : (v.text b.printable).toOption.bind fun text =>
      Date.fromisoformat? (stripText b text) with
  | some d =>
    obtain ⟨text, htext, hd⟩ := toOption_bind_iff.mp hread
    exact hok d (Or.inr (Or.inr ⟨text, d, htext, hd⟩))
  | none =>
    have hday : ¬IsDay b v := by
      rintro (h | h | ⟨text, d, htext, hd⟩)
      · exact hdate h
      · exact hdatetime h
      · rw [toOption_bind_iff.mpr ⟨text, htext, hd⟩] at hread
        cases hread
    generalize v.reprText b.printable = shown
    cases shown with
    | error e =>
      have hnot : ¬(¬IsDay b v ∧ (Except.error e : Except PyError String).isOk = true) :=
        fun h => Bool.false_ne_true h.2
      exact performs_error hday (iff_of_false id hnot)
    | ok shown => exact performs_error hday (iff_of_true trivial ⟨hday, rfl⟩)

/-- A waiver without a day is reported, and so is one with another day. -/
theorem performs_expires {α : Type} {raw : Option Yaml} {fieldName message : String}
    (f : Date → α) :
    Performs IsLoadError (match raw with
      | none | some .null | some (.str "") => .error (.policyLoadError message)
      | some value => (parseDate b value fieldName).map f) [expiresCheck b raw] := by
  by_cases hmissing : IsMissing raw
  · have hpasses : ¬(expiresCheck b raw).passes := fun h => h.1 hmissing
    have hreported : (expiresCheck b raw).reported := Or.inl hmissing
    obtain rfl | rfl | rfl := hmissing <;>
      exact performs_error hpasses (iff_of_true trivial hreported)
  · rcases raw with - | v
    · exact absurd (Or.inl rfl) hmissing
    · have hdate := (performs_parseDate (b := b) v fieldName).map (f := f)
      have hcheck : expiresCheck b (some v)
          = ⟨IsDay b v, ¬IsDay b v ∧ (v.reprText b.printable).isOk = true⟩ := by
        ext
        · rw [expiresCheck, and_iff_right hmissing]
          exact ⟨fun h => h v rfl, fun h w hw => Option.some.inj hw ▸ h⟩
        · rw [expiresCheck, or_iff_right hmissing]
          exact ⟨fun ⟨w, hw, h⟩ => Option.some.inj hw ▸ h, fun h => ⟨v, rfl, h⟩⟩
      rw [hcheck]
      split
      · exact absurd (Or.inl ‹_›) hmissing
      · exact absurd (Or.inr (Or.inl ‹_›)) hmissing
      · exact absurd (Or.inr (Or.inr ‹_›)) hmissing
      · rename_i value hvalue
        rwa [← Option.some.inj hvalue]

/-- …and all of an entry. -/
theorem performs_readWaiver {earlier : List Yaml} {waivers : List Waiver} {source : String}
    (hseen : ∀ id, (waivers.any (·.findingId = id)) = true ↔
      ∃ e ∈ earlier, FieldIs b e "finding_id" (· = id)) (entry : Yaml × ℕ) :
    Performs IsLoadError (readWaiver b policy source waivers entry)
      (entryChecks b policy earlier entry.1) := by
  rw [readWaiver]
  refine (performs_requireMapping _).bind fun item hitem => ?_
  obtain rfl := requireMapping_eq_ok hitem
  refine performs_field (fun id _ hfresh => ?_) fun id hfresh => ?_
  · rw [if_neg hfresh.1, if_neg (mt (hseen id).mp hfresh.2)]
    refine performs_field (fun reason _ hreason => ?_) fun reason hreason => ?_
    · rw [if_neg hreason]
      refine performs_field (fun owner _ howner => ?_) fun owner howner => ?_
      · rw [if_neg howner]
        exact performs_expires _
      · exact ⟨_, by rw [if_pos (not_not.mp howner)]; rfl⟩
    · exact ⟨_, by rw [if_pos (not_not.mp hreason)]; rfl⟩
  · by_cases hempty : id = ""
    · exact ⟨_, by rw [if_pos hempty]; rfl⟩
    · have hmem : (waivers.any (·.findingId = id)) = true :=
        (hseen id).mpr (not_not.mp fun h => hfresh ⟨hempty, h⟩)
      exact ⟨_, by rw [if_neg hempty, if_pos hmem]; rfl⟩

end Performed

end BareAnalysis.PolicyLoader
