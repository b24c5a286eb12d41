import BareAnalysis.Machinery.Checks
import BareAnalysis.Policy.Loader

/-!
# Policy/FailsClosed — a policy that loads is the policy that was written

    version, block, floor, baseline, mode, on_degraded, waivers, max_ttl_days, name, lists, budgets

are read in this order, each with a check of its own; keys are never checked, and neither is what
`bool`, `int` and `str` were given.  `failsClosed_iff` says of a document when the policy it loads
as is the one it says.
-/

namespace BareAnalysis.PolicyLoader

open Yaml

/-- The error is a `PolicyLoadError`. -/
def IsLoadError : PolicyError → Prop
  | .policyLoadError _ => True
  | .uncaught _ => False

/-- The entries of a mapping, if it is one. -/
def entriesOf : Option Yaml → List (Yaml × Yaml)
  | some (.map entries) => entries
  | _ => []

/-! ## What is checked -/

section Checks

variable (b : Builtins)

/-- What is printed of a value, without blanks around it and in lower case. -/
def TextIs (v : Yaml) (p : String → Prop) : Prop :=
  ∃ text, v.text b.printable = .ok text ∧ p (normalText b text)

/-- A member of an enumeration. -/
def memberCheck (v : Yaml) (p : String → Prop) : Check where
  passes := TextIs b v p
  reported := TextIs b v fun text => ¬p text

/-- `int(value)` raises what the loader catches. -/
def NoInteger (v : Yaml) : Prop :=
  ∃ message, v.toInt b = .error (.typeError message) ∨ v.toInt b = .error (.valueError message)

/-- An integer in a range. -/
def integerCheck (v : Yaml) (p : ℤ → Prop) : Check where
  passes := ∃ n, v.toInt b = .ok n ∧ p n
  reported := NoInteger b v ∨ ∃ n, v.toInt b = .ok n ∧ ¬p n

/-- The version; nothing that `int` raises is caught. -/
def versionCheck (v : Yaml) : Check where
  passes := v.toInt b = .ok 1
  reported := ∃ n ≠ 1, v.toInt b = .ok n ∧ (intText n).isOk = true

/-- A mapping, or nothing. -/
def IsMapping (raw : Option Yaml) : Prop := ∀ v ∈ raw, v = .null ∨ ∃ entries, v = .map entries

def mappingCheck (raw : Option Yaml) : Check where
  passes := IsMapping raw
  reported := ¬IsMapping raw

/-- What a severity floor may say. -/
def IsFloor (text : String) : Prop :=
  text ∈ ["none", "off", ""] ∨ ∃ severity : Severity, severity.value = text

/-- The severity floor, or none. -/
def floorCheck (v : Yaml) : Check where
  passes := v = .null ∨ TextIs b v IsFloor
  reported := v ≠ .null ∧ TextIs b v fun text => ¬IsFloor text

/-- Whatever can be printed. -/
def nameCheck (v : Yaml) : Check where
  passes := (v.text b.printable).isOk = true
  reported := False

/-- A list of what can be printed, or nothing. -/
def listCheck (raw : Option Yaml) : Check where
  passes := ∀ v ∈ raw, v = .null ∨ ∃ items, v = .list items ∧
    ∀ item ∈ items, (item.text b.printable).isOk = true
  reported := ∃ v ∈ raw, v ≠ .null ∧ ∀ items, v ≠ .list items

/-- A severity, and a ceiling for it. -/
def budgetCheck (entry : Yaml × Yaml) : Check where
  passes := (TextIs b entry.1 fun text => ∃ severity : Severity, severity.value = text) ∧
    (integerCheck b entry.2 (unlimited ≤ ·)).passes
  reported := (TextIs b entry.1 fun text => ¬∃ severity : Severity, severity.value = text) ∨
    (TextIs b entry.1 fun text => ∃ severity : Severity, severity.value = text) ∧
      (integerCheck b entry.2 (unlimited ≤ ·)).reported

variable (data : List (Yaml × Yaml))

/-- **The checks of a document**, in their order. -/
def checks : List Check :=
  [versionCheck b ((lookup data "version").getD (.int 1)),
    mappingCheck (lookup data "block"),
    floorCheck b ((lookup (entriesOf (lookup data "block")) "severity_at_or_above").getD
      (.str "high")),
    mappingCheck (lookup data "baseline"),
    memberCheck b ((lookup (entriesOf (lookup data "baseline")) "mode").getD (.str "new_only"))
      fun text => ∃ mode : BaselineMode, mode.value = text,
    memberCheck b ((lookup data "on_degraded").getD (.str "fail"))
      fun text => ∃ posture : DegradedPosture, posture.value = text,
    mappingCheck (lookup data "waivers"),
    integerCheck b ((lookup (entriesOf (lookup data "waivers")) "max_ttl_days").getD
      (.int defaultMaxWaiverDays)) (0 < ·),
    nameCheck b ((lookup data "name").getD (.str "default")),
    listCheck b (lookup (entriesOf (lookup data "block")) "categories"),
    listCheck b (lookup (entriesOf (lookup data "block")) "rules"),
    mappingCheck (lookup data "budgets")]
  ++ (entriesOf (lookup data "budgets")).map (budgetCheck b)

end Checks

/-! ## The loader checks it -/

section Performed

variable {b : Builtins} {v : Yaml} {raw : Option Yaml}

theorem not_raises_unguarded {α : Type} (x : Except PyError α) :
    ¬Raises IsLoadError (unguarded x) := by
  rintro ⟨e, h, he⟩
  obtain ⟨e', -, rfl⟩ := mapError_eq_error.mp h
  exact he

theorem unguarded_eq_ok {α : Type} {x : Except PyError α} {a : α} :
    unguarded x = .ok a ↔ x = .ok a := mapError_eq_ok

theorem isOk_unguarded {α : Type} {x : Except PyError α} :
    (unguarded x).isOk = true ↔ x.isOk = true := by
  rw [isOk_iff, isOk_iff]
  exact exists_congr fun _ => unguarded_eq_ok

/-- A step that lets everything through checks that it returns… -/
theorem performs_unguarded {α : Type} (x : Except PyError α) :
    Performs IsLoadError (unguarded x) [⟨x.isOk = true, False⟩] :=
  performs_check isOk_unguarded (iff_of_false (not_raises_unguarded x) id)

/-- …and what follows it decides. -/
theorem performs_unguarded_bind {α β : Type} {x : Except PyError α} {f : α → Except PolicyError β}
    {c : Check} (hok : (∃ a, x = .ok a ∧ (f a).isOk = true) ↔ c.passes)
    (hraises : (∃ a, x = .ok a ∧ Raises IsLoadError (f a)) ↔ c.reported) :
    Performs IsLoadError (unguarded x >>= f) [c] := by
  refine performs_check ?_ ?_
  · rw [isOk_bind, ← hok]
    exact exists_congr fun a => and_congr_left' unguarded_eq_ok
  · rw [← hraises, raises_bind, or_iff_right (not_raises_unguarded x)]
    exact exists_congr fun a => and_congr_left' unguarded_eq_ok

/-- Raising a `PolicyLoadError`. -/
theorem raises_reported {α : Type} (message : String) :
    Raises IsLoadError (.error (.policyLoadError message) : Except PolicyError α) :=
  ⟨_, rfl, trivial⟩

theorem not_raises_ok {α : Type} (a : α) : ¬Raises IsLoadError (.ok a : Except PolicyError α) :=
  fun ⟨_, h, _⟩ => nomatch h

/-- A step that either returns or reports, as something holds or does not. -/
def Decided {α : Type} (x : Except PolicyError α) (p : Prop) : Prop :=
  x.isOk = true ∧ p ∨ Raises IsLoadError x ∧ ¬p

theorem Decided.isOk_iff {α : Type} {x : Except PolicyError α} {p : Prop} (h : Decided x p) :
    x.isOk = true ↔ p := by
  obtain ⟨hok, hp⟩ | ⟨⟨e, rfl, -⟩, hp⟩ := h
  · exact iff_of_true hok hp
  · exact iff_of_false Bool.false_ne_true hp

theorem Decided.raises_iff {α : Type} {x : Except PolicyError α} {p : Prop} (h : Decided x p) :
    Raises IsLoadError x ↔ ¬p := by
  obtain ⟨hok, hp⟩ | ⟨hraises, hp⟩ := h
  · obtain ⟨a, rfl⟩ := exists_eq_ok hok
    exact iff_of_false (not_raises_ok a) (not_not_intro hp)
  · exact iff_of_true hraises hp

theorem decided_ok {α : Type} {a : α} {p : Prop} (hp : p) :
    Decided (.ok a : Except PolicyError α) p := Or.inl ⟨rfl, hp⟩

theorem decided_error {α : Type} {message : String} {p : Prop} (hp : ¬p) :
    Decided (.error (.policyLoadError message) : Except PolicyError α) p :=
  Or.inr ⟨raises_reported message, hp⟩

/-- …whatever it goes on to. -/
theorem Decided.bind {α β : Type} {x : Except PolicyError α} {f : α → Except PolicyError β}
    {p : Prop} (h : Decided x p) (hf : ∀ a, p → Decided (f a) p) : Decided (x >>= f) p := by
  obtain ⟨hok, hp⟩ | ⟨⟨e, rfl, he⟩, hp⟩ := h
  · obtain ⟨a, rfl⟩ := exists_eq_ok hok
    exact hf a hp
  · exact Or.inr ⟨⟨e, rfl, he⟩, hp⟩

/-- What is printed of a value decides. -/
theorem performs_text {α : Type} {f : String → Except PolicyError α} {p : String → Prop}
    (h : ∀ text, v.text b.printable = .ok text → Decided (f text) (p (normalText b text))) :
    Performs IsLoadError (unguarded (v.text b.printable) >>= f) [memberCheck b v p] := by
  refine performs_unguarded_bind ?_ ?_
  · exact exists_congr fun text => and_congr_right fun htext => (h text htext).isOk_iff
  · exact exists_congr fun text => and_congr_right fun htext => (h text htext).raises_iff

/-- A value is looked up among all members. -/
theorem isSome_find?_value {α : Type} {members : List α} (hall : ∀ a, a ∈ members)
    {value : α → String} {text : String} :
    (members.find? fun a => value a == text).isSome = true ↔ ∃ a, value a = text := by
  rw [List.find?_isSome]
  exact ⟨fun ⟨a, _, h⟩ => ⟨a, beq_iff_eq.mp h⟩, fun ⟨a, h⟩ => ⟨a, hall a, beq_iff_eq.mpr h⟩⟩

theorem isSome_severity {text : String} :
    (Severity.ofValue? text).isSome = true ↔ ∃ severity : Severity, severity.value = text :=
  isSome_find?_value fun a => by cases a <;> decide

theorem isSome_mode {text : String} :
    (BaselineMode.ofValue? text).isSome = true ↔ ∃ mode : BaselineMode, mode.value = text :=
  isSome_find?_value fun a => by cases a <;> decide

theorem isSome_posture {text : String} :
    (DegradedPosture.ofValue? text).isSome = true ↔
      ∃ posture : DegradedPosture, posture.value = text :=
  isSome_find?_value fun a => by cases a <;> decide

theorem performs_requireMapping (what : String) :
    Performs IsLoadError (requireMapping raw what) [mappingCheck raw] := by
  have hdecided : Decided (requireMapping raw what) (IsMapping raw) := by
    rcases raw with - | v
    · exact decided_ok fun v hv => (nomatch hv)
    · rcases v with
        - | b | n | ⟨q, repr⟩ | repr | s | bs | d | ⟨d, text, repr⟩ | items | items | items
        | entries | repr
      case null => exact decided_ok fun v hv => Or.inl (Option.some.inj hv).symm
      case map => exact decided_ok fun v hv => Or.inr ⟨entries, (Option.some.inj hv).symm⟩
      all_goals
        refine decided_error fun h => ?_
        obtain h | ⟨entries, h⟩ := h _ rfl <;> cases h
  exact performs_check hdecided.isOk_iff hdecided.raises_iff

/-- What a mapping that passes gives. -/
theorem requireMapping_eq_ok {what : String} {entries : List (Yaml × Yaml)}
    (h : requireMapping raw what = .ok entries) : entries = entriesOf raw := by
  rcases raw with - | v
  · exact (Except.ok.inj h).symm
  · cases v with
    | null => exact (Except.ok.inj h).symm
    | map entries => exact (Except.ok.inj h).symm
    | _ => cases h

/-- The values of an enumeration are looked up in what is printed. -/
theorem performs_memberOf {α : Type} {ofValue? : String → Option α} {p : String → Prop}
    (hp : ∀ text, (ofValue? text).isSome = true ↔ p text) (what : String) :
    Performs IsLoadError (memberOf b ofValue? v what) [memberCheck b v p] := by
  refine performs_text fun text _ => ?_
  rw [← hp]
  dsimp only
  cases ofValue? (normalText b text) with
  | none => exact decided_error Bool.false_ne_true
  | some member => exact decided_ok rfl

theorem integerOf_eq_ok {what : String} {n : ℤ} :
    integerOf b v what = .ok n ↔ v.toInt b = .ok n := mapError_eq_ok

theorem raises_integerOf {what : String} :
    Raises IsLoadError (integerOf b v what) ↔ NoInteger b v := by
  constructor
  · rintro ⟨e, h, he⟩
    obtain ⟨e', he', rfl⟩ := mapError_eq_error.mp h
    cases e' with
    | typeError message => exact ⟨message, Or.inl he'⟩
    | valueError message => exact ⟨message, Or.inr he'⟩
    | _ => exact absurd he id
  · rintro ⟨message, h | h⟩ <;> rw [integerOf, h] <;> exact raises_reported _

/-- An integer is read, and then its range is looked at. -/
theorem performs_integerOf_bind {α : Type} {f : ℤ → Except PolicyError α} {p : ℤ → Prop}
    (what : String) (h : ∀ n, Decided (f n) (p n)) :
    Performs IsLoadError (integerOf b v what >>= f) [integerCheck b v p] := by
  refine performs_check ?_ ?_
  · rw [isOk_bind]
    exact exists_congr fun n => and_congr integerOf_eq_ok (h n).isOk_iff
  · rw [raises_bind, raises_integerOf]
    exact or_congr_right (exists_congr fun n => and_congr integerOf_eq_ok (h n).raises_iff)

theorem performs_maxDaysOf (waivers : List (Yaml × Yaml)) :
    Performs IsLoadError (maxDaysOf b waivers) [integerCheck b ((lookup waivers
      "max_ttl_days").getD (.int defaultMaxWaiverDays)) (0 < ·)] := by
  refine performs_integerOf_bind _ fun n => ?_
  by_cases hn : n ≤ 0
  · rw [if_pos hn]
    exact decided_error (not_lt.mpr hn)
  · rw [if_neg hn]
    exact decided_ok (not_le.mp hn)

theorem performs_versionOf (data : List (Yaml × Yaml)) (source : String) :
    Performs IsLoadError (versionOf b data source)
      [versionCheck b ((lookup data "version").getD (.int 1))] := by
  refine performs_unguarded_bind ?_ ?_
  · constructor
    · rintro ⟨n, hn, h⟩
      by_cases hone : n = 1
      · rwa [hone] at hn
      · rw [if_pos hone] at h
        obtain ⟨shown, -, h⟩ := isOk_bind.mp h
        cases h
    · exact fun h => ⟨1, h, rfl⟩
  · constructor
    · rintro ⟨n, hn, h⟩
      by_cases hone : n = 1
      · rw [if_neg (not_not_intro hone)] at h
        exact absurd h (not_raises_ok n)
      · refine ⟨n, hone, hn, ?_⟩
        rw [if_pos hone] at h
        cases htext : intText n with
        | ok text => rfl
        | error e =>
          rw [htext] at h
          obtain ⟨e', h, he'⟩ := h
          obtain rfl := Except.error.inj h
          exact absurd he' id
    · rintro ⟨n, hone, hn, htext⟩
      obtain ⟨text, htext⟩ := exists_eq_ok htext
      refine ⟨n, hn, ?_⟩
      rw [if_pos hone, htext]
      exact raises_reported _

/-- A severity is read by its name… -/
theorem severityOf_of_some {text fieldName : String} (h : v.text b.printable = .ok text)
    {severity : Severity} (hmember : Severity.ofValue? (normalText b text) = some severity) :
    severityOf b v fieldName = .ok severity := by
  rw [severityOf, h]
  dsimp only [unguarded, Except.mapError, bind, Except.bind]
  rw [hmember]
  rfl

/-- …and what is none is reported with what was written. -/
theorem severityOf_of_none {text fieldName : String} (h : v.text b.printable = .ok text)
    (hmember : Severity.ofValue? (normalText b text) = none) :
    severityOf b v fieldName = unguarded (v.reprText b.printable) >>= fun shown =>
      .error (.policyLoadError (fieldName ++ ": unknown severity " ++ shown ++ "; expected one of "
        ++ severityNames)) := by
  rw [severityOf, h]
  dsimp only [unguarded, Except.mapError, bind, Except.bind]
  rw [hmember]
  rfl

/-- What can be printed is a severity, or it is reported. -/
theorem decided_severityOf {text : String} (h : v.text b.printable = .ok text)
    (fieldName : String) : Decided (severityOf b v fieldName)
      (∃ severity : Severity, severity.value = normalText b text) := by
  obtain ⟨shown, hshown⟩ := exists_eq_ok (isOk_reprText (isOk_iff.mpr ⟨text, h⟩))
  rw [← isSome_severity]
  cases hmember : Severity.ofValue? (normalText b text) with
  | none =>
    rw [severityOf_of_none h hmember, hshown]
    exact decided_error Bool.false_ne_true
  | some severity =>
    rw [severityOf_of_some h hmember]
    exact decided_ok rfl

/-- The floor of a document. -/
def floorValue (block : List (Yaml × Yaml)) : Yaml :=
  (lookup block "severity_at_or_above").getD (.str "high")

theorem floorOf_of_ne_null {block : List (Yaml × Yaml)} (hnull : floorValue block ≠ .null) :
    floorOf b block = unguarded ((floorValue block).text b.printable) >>= fun text =>
      if normalText b text ∈ ["none", "off", ""] then pure none
      else severityOf b (floorValue block) "block.severity_at_or_above" >>= fun severity =>
        pure (some severity) := by
  rw [floorOf, ← floorValue]
  split
  · exact absurd ‹_› hnull
  · rfl

theorem performs_floorOf (block : List (Yaml × Yaml)) :
    Performs IsLoadError (floorOf b block) [floorCheck b (floorValue block)] := by
  by_cases hnull : floorValue block = .null
  · have hok : floorOf b block = .ok none := by
      rw [floorOf, ← floorValue, hnull]
    rw [hok]
    exact performs_check (iff_of_true rfl (Or.inl hnull))
      (iff_of_false (not_raises_ok none) fun h => h.1 hnull)
  · have hcheck : floorCheck b (floorValue block) = memberCheck b (floorValue block) IsFloor :=
      Check.ext (propext (or_iff_right hnull)) (propext (and_iff_right hnull))
    rw [floorOf_of_ne_null hnull, hcheck]
    refine performs_text fun text htext => ?_
    by_cases hoff : normalText b text ∈ ["none", "off", ""]
    · rw [if_pos hoff]
      exact decided_ok (Or.inl hoff)
    · rw [if_neg hoff, IsFloor, or_iff_right hoff]
      exact (decided_severityOf htext _).bind fun severity => decided_ok

theorem performs_nameOf (data : List (Yaml × Yaml)) :
    Performs IsLoadError (nameOf b data)
      [nameCheck b ((lookup data "name").getD (.str "default"))] := by
  refine performs_unguarded_bind ?_ (iff_of_false ?_ id)
  · rw [nameCheck, isOk_iff]
    exact exists_congr fun text => and_iff_left rfl
  · rintro ⟨text, -, h⟩
    exact not_raises_ok _ h

theorem performs_strSet (fieldName : String) :
    Performs IsLoadError (strSet b raw fieldName) [listCheck b raw] := by
  rcases raw with - | v
  · refine performs_check (iff_of_true rfl fun v hv => (nomatch hv)) (iff_of_false ?_ ?_)
    · exact not_raises_ok []
    · exact fun ⟨v, hv, _⟩ => nomatch hv
  by_cases hlist : ∃ items, v = .list items
  · obtain ⟨items, rfl⟩ := hlist
    refine performs_unguarded_bind ?_ (iff_of_false ?_ ?_)
    · have hpasses : (∃ texts, items.mapM (Yaml.text b.printable) = .ok texts ∧
          (Except.ok (ε := PolicyError) ((texts.map (stripText b)).filter (· ≠ "")).dedup).isOk
            = true) ↔ (items.mapM (Yaml.text b.printable)).isOk = true := by
        rw [isOk_iff]
        exact exists_congr fun texts => and_iff_left rfl
      refine hpasses.trans (isOk_mapM.trans ⟨fun h v hv => ?_, fun h => ?_⟩)
      · obtain rfl := Option.some.inj hv
        exact Or.inr ⟨items, rfl, h⟩
      · obtain hnull | ⟨items', heq, h⟩ := h _ rfl
        · cases hnull
        · rwa [Yaml.list.inj heq]
    · rintro ⟨texts, -, h⟩
      exact not_raises_ok _ h
    · rintro ⟨v, hv, -, h⟩
      exact h items (Option.some.inj hv).symm
  · by_cases hnull : v = .null
    · subst hnull
      refine performs_check (iff_of_true rfl fun v hv => Or.inl (Option.some.inj hv).symm)
        (iff_of_false (not_raises_ok []) ?_)
      rintro ⟨v, hv, hne, -⟩
      exact hne (Option.some.inj hv).symm
    · have herror : strSet b (some v) fieldName
          = .error (.policyLoadError (fieldName ++ " must be a list")) := by
        cases v with
        | null => exact absurd rfl hnull
        | list items => exact absurd ⟨items, rfl⟩ hlist
        | _ => rfl
      rw [herror]
      refine performs_check (iff_of_false Bool.false_ne_true fun h => ?_)
        (iff_of_true (raises_reported _) ⟨v, rfl, hnull, fun items h => hlist ⟨items, h⟩⟩)
      obtain h | ⟨items, h, -⟩ := h v rfl
      · exact hnull h
      · exact hlist ⟨items, h⟩

/-- A ceiling is read once its severity is known. -/
theorem performs_limitOf (name : String) (v : Yaml) :
    Performs IsLoadError (integerOf b v ("budgets." ++ name) >>= fun limit =>
      if limit < unlimited then throw (.policyLoadError ("budgets." ++ name ++ " must be >= -1"))
      else pure (name, limit)) [integerCheck b v (unlimited ≤ ·)] := by
  refine performs_integerOf_bind _ fun n => ?_
  by_cases hn : n < unlimited
  · rw [if_pos hn]
    exact decided_error (not_le.mpr hn)
  · rw [if_neg hn]
    exact decided_ok (not_lt.mp hn)

/-- An entry is its severity, then its ceiling. -/
theorem budgetOf_of_text {entry : Yaml × Yaml} {text : String}
    (htext : entry.1.text b.printable = .ok text) :
    ((∃ severity : Severity, severity.value = normalText b text) →
      budgetOf b entry = integerOf b entry.2 ("budgets." ++ normalText b text) >>= fun limit =>
        if limit < unlimited then
          throw (.policyLoadError ("budgets." ++ normalText b text ++ " must be >= -1"))
        else pure (normalText b text, limit)) ∧
    ((¬∃ severity : Severity, severity.value = normalText b text) →
      Raises IsLoadError (budgetOf b entry)) := by
  obtain ⟨shown, hshown⟩ := exists_eq_ok (isOk_reprText (isOk_iff.mpr ⟨text, htext⟩))
  rw [← isSome_severity, budgetOf, htext, hshown]
  refine ⟨fun hsome => ?_, fun hnone => ?_⟩
  · change (if Severity.ofValue? (normalText b text) = none then _ else _) = _
    rw [if_neg fun h => by rw [h] at hsome; cases hsome]
    rfl
  · change Raises IsLoadError (if Severity.ofValue? (normalText b text) = none then _ else _)
    rw [if_pos (by simpa using hnone)]
    exact raises_reported _

theorem performs_budgetOf (entry : Yaml × Yaml) :
    Performs IsLoadError (budgetOf b entry) [budgetCheck b entry] := by
  have htextIs : ∀ {text p}, entry.1.text b.printable = .ok text →
      (TextIs b entry.1 p ↔ p (normalText b text)) := fun {text p} htext =>
    ⟨fun ⟨text', h, hp⟩ => by rwa [← Except.ok.inj (h.symm.trans htext)],
      fun hp => ⟨text, htext, hp⟩⟩
  cases htext : entry.1.text b.printable with
  | error e =>
    have hnot : ∀ p, ¬TextIs b entry.1 p := by
      rintro p ⟨text, h, -⟩
      rw [htext] at h
      cases h
    have herror : budgetOf b entry = .error (.uncaught e) := by
      rw [budgetOf, htext]
      rfl
    rw [herror]
    refine performs_check (iff_of_false Bool.false_ne_true fun h => hnot _ h.1)
      (iff_of_false ?_ ?_)
    · rintro ⟨e', h, he'⟩
      obtain rfl := Except.error.inj h
      exact he'
    · rintro (h | ⟨h, -⟩) <;> exact hnot _ h
  | ok text =>
    obtain ⟨hsome, hnone⟩ := budgetOf_of_text htext
    by_cases hseverity : ∃ severity : Severity, severity.value = normalText b text
    · have hlimit := performs_limitOf (b := b) (normalText b text) entry.2
      rw [← hsome hseverity] at hlimit
      refine performs_check (hlimit.isOk_iff_passes.trans ?_) (hlimit.raises_iff_reported.trans ?_)
      · rw [budgetCheck, htextIs htext]
        exact (and_iff_right hseverity).symm
      · rw [budgetCheck, htextIs htext, htextIs htext, or_iff_right (not_not_intro hseverity)]
        exact (and_iff_right hseverity).symm
    · refine performs_check (iff_of_false ?_ fun h => hseverity ((htextIs htext).mp h.1))
        (iff_of_true (hnone hseverity) (Or.inl ((htextIs htext).mpr hseverity)))
      obtain ⟨e, h, -⟩ := hnone hseverity
      rw [h]
      exact Bool.false_ne_true

theorem performs_budgetsOf :
    Performs IsLoadError (budgetsOf b raw)
      ([mappingCheck raw] ++ (entriesOf raw).map (budgetCheck b)) := by
  refine (performs_requireMapping "budgets").bind fun entries h => ?_
  rw [requireMapping_eq_ok h]
  exact (performs_mapM fun entry _ => performs_budgetOf entry).map

/-- **The loader performs its checks.** -/
theorem performs_parsePolicy (data : List (Yaml × Yaml)) (source : String) :
    Performs IsLoadError (parsePolicy b data source) (checks b data) := by
  refine (performs_versionOf data source).bind fun version _ => ?_
  refine (performs_requireMapping "block").bind fun block hblock => ?_
  rw [requireMapping_eq_ok hblock]
  refine (performs_floorOf _).bind fun floor _ => ?_
  refine (performs_requireMapping "baseline").bind fun baseline hbaseline => ?_
  rw [requireMapping_eq_ok hbaseline]
  refine (performs_memberOf (fun _ => isSome_mode) _).bind fun mode _ => ?_
  refine (performs_memberOf (fun _ => isSome_posture) _).bind fun degraded _ => ?_
  refine (performs_requireMapping "waivers").bind fun waivers hwaivers => ?_
  rw [requireMapping_eq_ok hwaivers]
  refine (performs_maxDaysOf _).bind fun maxDays _ => ?_
  refine (performs_nameOf data).bind fun name _ => ?_
  refine (performs_strSet "block.categories").bind fun categories _ => ?_
  refine (performs_strSet "block.rules").bind fun rules _ => ?_
  exact performs_budgetsOf.map

end Performed

/-! ## What a document says -/

section Document

variable (b : Builtins) (data : List (Yaml × Yaml))

/-- The keys of a mapping are among some. -/
def KnownIn (keys : List String) (entries : List (Yaml × Yaml)) : Prop :=
  ∀ entry ∈ entries, ∃ key ∈ keys, entry.1 = .str key

/-- **Every key is one the loader knows.** -/
structure KnownKeys : Prop where
  top : KnownIn ["version", "block", "baseline", "on_degraded", "waivers", "name", "budgets",
    "trust_llm_dismissals"] data
  block : KnownIn ["severity_at_or_above", "categories", "rules"] (entriesOf (lookup data "block"))
  baseline : KnownIn ["mode"] (entriesOf (lookup data "baseline"))
  waivers : KnownIn ["max_ttl_days", "require_owner", "require_reason"]
    (entriesOf (lookup data "waivers"))

def IsText (v : Yaml) : Prop := ∃ text, v = .str text

def IsInteger (v : Yaml) : Prop := ∃ n, v = .int n

def IsFlag (v : Yaml) : Prop := ∃ flag, v = .bool flag

/-- A list of texts, or nothing. -/
def IsTexts (v : Yaml) : Prop := v = .null ∨ ∃ texts : List String, v = .list (texts.map .str)

/-- **Every value present is of the expected type.** -/
structure WellTyped : Prop where
  version : ∀ v ∈ lookup data "version", IsInteger v
  name : ∀ v ∈ lookup data "name", IsText v
  floor : ∀ v ∈ lookup (entriesOf (lookup data "block")) "severity_at_or_above",
    v = .null ∨ IsText v
  categories : ∀ v ∈ lookup (entriesOf (lookup data "block")) "categories", IsTexts v
  rules : ∀ v ∈ lookup (entriesOf (lookup data "block")) "rules", IsTexts v
  budgets : ∀ entry ∈ entriesOf (lookup data "budgets"), IsText entry.1 ∧ IsInteger entry.2
  mode : ∀ v ∈ lookup (entriesOf (lookup data "baseline")) "mode", IsText v
  onDegraded : ∀ v ∈ lookup data "on_degraded", IsText v
  trustLlmDismissals : ∀ v ∈ lookup data "trust_llm_dismissals", IsFlag v
  maxTtlDays : ∀ v ∈ lookup (entriesOf (lookup data "waivers")) "max_ttl_days", IsInteger v
  requireOwner : ∀ v ∈ lookup (entriesOf (lookup data "waivers")) "require_owner", IsFlag v
  requireReason : ∀ v ∈ lookup (entriesOf (lookup data "waivers")) "require_reason", IsFlag v

/-- A field is what the document says, or else its default. -/
def Written {α : Type} (raw : Option Yaml) (default : α) (means : Yaml → α → Prop) (a : α) : Prop :=
  match raw with
  | none => a = default
  | some v => means v a

/-- A text means a member of an enumeration. -/
def MeansMember {α : Type} (value : α → String) (v : Yaml) (a : α) : Prop :=
  ∃ text, v = .str text ∧ normalText b text = value a

/-- A text means a floor, or that there is none. -/
def MeansFloor (v : Yaml) (floor : Option Severity) : Prop :=
  v = .null ∧ floor = none ∨ ∃ text, v = .str text ∧
    (normalText b text ∈ ["none", "off", ""] ∧ floor = none ∨
      ∃ severity : Severity, normalText b text = severity.value ∧ floor = some severity)

/-- A list of texts means a set of them. -/
def MeansTexts (v : Yaml) (set : List String) : Prop :=
  v = .null ∧ set = [] ∨ ∃ texts : List String, v = .list (texts.map .str) ∧
    ∀ text, text ∈ set ↔ text ≠ "" ∧ ∃ t ∈ texts, stripText b t = text

/-- A text means a name. -/
def MeansName (v : Yaml) (name : String) : Prop :=
  ∃ text, v = .str text ∧ name = if stripText b text = "" then "default" else stripText b text

/-- The last ceiling written for a severity. -/
def ceilingOf (severity : Severity) : Option Yaml :=
  Dict.get? ((entriesOf (lookup data "budgets")).filterMap fun entry =>
    match entry.1 with
    | .str text => some (normalText b text, entry.2)
    | _ => none) severity.value

/-- **The policy is the one the document says.** -/
structure Says (policy : LoadedPolicy) : Prop where
  version : Written (lookup data "version") 1 (fun v n => v = .int n) policy.version
  name : Written (lookup data "name") "default" (MeansName b) policy.name
  floor : Written (lookup (entriesOf (lookup data "block")) "severity_at_or_above") (some .high)
    (MeansFloor b) policy.blockAtOrAbove
  categories : Written (lookup (entriesOf (lookup data "block")) "categories") [] (MeansTexts b)
    policy.blockCategories
  rules : Written (lookup (entriesOf (lookup data "block")) "rules") [] (MeansTexts b)
    policy.blockRules
  budgets : ∀ severity, Written (ceilingOf b data severity) unlimited (fun v n => v = .int n)
    (policy.budgets.limitFor severity)
  budgetEntries : ∀ entry ∈ entriesOf (lookup data "budgets"), IsText entry.1 ∧ IsInteger entry.2
  mode : Written (lookup (entriesOf (lookup data "baseline")) "mode") .newOnly
    (MeansMember b BaselineMode.value) policy.baselineMode
  onDegraded : Written (lookup data "on_degraded") .fail (MeansMember b DegradedPosture.value)
    policy.onDegraded
  trustLlmDismissals : Written (lookup data "trust_llm_dismissals") false
    (fun v flag => v = .bool flag) policy.trustLlmDismissals
  maxTtlDays : Written (lookup (entriesOf (lookup data "waivers")) "max_ttl_days")
    defaultMaxWaiverDays (fun v n => v = .int n) policy.maxWaiverDays
  requireOwner : Written (lookup (entriesOf (lookup data "waivers")) "require_owner") true
    (fun v flag => v = .bool flag) policy.requireWaiverOwner
  requireReason : Written (lookup (entriesOf (lookup data "waivers")) "require_reason") true
    (fun v flag => v = .bool flag) policy.requireWaiverReason

end Document

/-! ## It is what was typed -/

section Typed

variable {b : Builtins} {v : Yaml} {raw : Option Yaml}

theorem writtenInteger_iff {default n : ℤ} (h : (raw.getD (.int default)).toInt b = .ok n) :
    Written raw default (fun v n => v = .int n) n ↔ ∀ v ∈ raw, IsInteger v := by
  rcases raw with - | v
  · exact iff_of_true (Except.ok.inj h).symm fun v hv => (nomatch hv)
  · constructor
    · intro hv v' hv'
      exact ⟨n, by rw [← Option.some.inj hv', hv]⟩
    · intro htyped
      obtain ⟨m, rfl⟩ := htyped v rfl
      exact congrArg Yaml.int (Except.ok.inj h)

theorem writtenFlag_iff {entries : List (Yaml × Yaml)} {key : String} {default : Bool} :
    Written (lookup entries key) default (fun v flag => v = .bool flag)
      (flagOf entries key default) ↔ ∀ v ∈ lookup entries key, IsFlag v := by
  rw [flagOf]
  rcases lookup entries key with - | v
  · exact iff_of_true rfl fun v hv => (nomatch hv)
  · constructor
    · intro hv v' hv'
      exact ⟨_, (Option.some.inj hv').symm.trans hv⟩
    · intro htyped
      obtain ⟨flag, rfl⟩ := htyped v rfl
      rfl

/-- A word is its own normal form. -/
theorem strip_word {text : String} (h : text.toList.all isPlainChar = true) :
    strip b.space text.toList = text.toList := by
  have hdrop : ∀ {s : List Char}, s.all isPlainChar = true → s.dropWhile b.space = s := by
    intro s hs
    cases s with
    | nil => rfl
    | cons c s => rw [List.dropWhile_cons_of_neg (by simp [b.space_word c (List.all_eq_true.mp hs c
        List.mem_cons_self)])]
  rw [strip, hdrop h, hdrop (by rwa [List.all_reverse]), List.reverse_reverse]

theorem normalText_word {text : String} (h : text.toList.all isPlainChar = true) :
    normalText b text = text := by
  rw [normalText, strip_word h, b.lower_word _ h, String.ofList_toList]

theorem stripText_word {text : String} (h : text.toList.all isPlainChar = true) :
    stripText b text = text := by
  rw [stripText, strip_word h, String.ofList_toList]

theorem toInt_of_versionOf {data : List (Yaml × Yaml)} {source : String} {version : ℤ}
    (h : versionOf b data source = .ok version) :
    ((lookup data "version").getD (.int 1)).toInt b = .ok version := by
  obtain ⟨n, hn, h⟩ := bind_eq_ok.mp h
  split at h
  · obtain ⟨shown, -, h⟩ := bind_eq_ok.mp h
    cases h
  · rw [← Except.ok.inj h]
    exact unguarded_eq_ok.mp hn

theorem toInt_of_maxDaysOf {waivers : List (Yaml × Yaml)} {maxDays : ℤ}
    (h : maxDaysOf b waivers = .ok maxDays) :
    ((lookup waivers "max_ttl_days").getD (.int defaultMaxWaiverDays)).toInt b = .ok maxDays := by
  obtain ⟨n, hn, h⟩ := bind_eq_ok.mp h
  split at h
  · cases h
  · rw [← Except.ok.inj h]
    exact integerOf_eq_ok.mp hn

/-- A member that is looked up has the value. -/
theorem value_of_find? {α : Type} {members : List α} {value : α → String} {text : String} {a : α}
    (h : (members.find? fun a => value a == text) = some a) : value a = text :=
  beq_iff_eq.mp (@List.find?_some _ (fun a => value a == text) _ _ h)

theorem value_of_memberOf {α : Type} {ofValue? : String → Option α} {value : α → String}
    {what : String} {a : α} (hvalue : ∀ text a, ofValue? text = some a → value a = text)
    (h : memberOf b ofValue? v what = .ok a) :
    ∃ text, v.text b.printable = .ok text ∧ normalText b text = value a := by
  obtain ⟨text, htext, h⟩ := bind_eq_ok.mp h
  refine ⟨text, unguarded_eq_ok.mp htext, ?_⟩
  dsimp only at h
  split at h
  · rename_i member hmember
    rw [← Except.ok.inj h]
    exact (hvalue _ _ hmember).symm
  · cases h

theorem mode_value_injective : Function.Injective BaselineMode.value := fun m m' h => by
  cases m <;> cases m' <;> first | rfl | exact absurd h (by decide)

theorem posture_value_injective : Function.Injective DegradedPosture.value := fun d d' h => by
  cases d <;> cases d' <;> first | rfl | exact absurd h (by decide)

theorem severity_value_injective : Function.Injective Severity.value := fun s s' h => by
  cases s <;> cases s' <;> first | rfl | exact absurd h (by decide)

theorem writtenMember_iff {α : Type} {value : α → String} {default a : α}
    (hinjective : Function.Injective value) (hword : (value default).toList.all isPlainChar = true)
    (h : ∃ text, (raw.getD (.str (value default))).text b.printable = .ok text ∧
      normalText b text = value a) :
    Written raw default (MeansMember b value) a ↔ ∀ v ∈ raw, IsText v := by
  obtain ⟨text, htext, ha⟩ := h
  rcases raw with - | v
  · refine iff_of_true (hinjective ?_) fun v hv => (nomatch hv)
    rw [← ha, ← Except.ok.inj htext, normalText_word hword]
  · constructor
    · rintro ⟨s, hs, -⟩ v' hv'
      exact ⟨s, by rw [← Option.some.inj hv', hs]⟩
    · intro htyped
      obtain ⟨s, rfl⟩ := htyped v rfl
      exact ⟨s, rfl, by rwa [Except.ok.inj htext]⟩

theorem writtenMode_iff {baseline : List (Yaml × Yaml)} {mode : BaselineMode}
    (h : modeOf b baseline = .ok mode) :
    Written (lookup baseline "mode") .newOnly (MeansMember b BaselineMode.value) mode ↔
      ∀ v ∈ lookup baseline "mode", IsText v := by
  have hvalue : ∀ text m, BaselineMode.ofValue? text = some m → m.value = text :=
    fun _ _ => value_of_find?
  exact writtenMember_iff mode_value_injective (by decide) (value_of_memberOf hvalue h)

theorem writtenPosture_iff {data : List (Yaml × Yaml)} {posture : DegradedPosture}
    (h : degradedOf b data = .ok posture) :
    Written (lookup data "on_degraded") .fail (MeansMember b DegradedPosture.value) posture ↔
      ∀ v ∈ lookup data "on_degraded", IsText v := by
  have hvalue : ∀ text d, DegradedPosture.ofValue? text = some d → d.value = text :=
    fun _ _ => value_of_find?
  exact writtenMember_iff posture_value_injective (by decide) (value_of_memberOf hvalue h)

/-- What a floor was read as. -/
theorem floorOf_eq_ok {block : List (Yaml × Yaml)} {floor : Option Severity}
    (h : floorOf b block = .ok floor) :
    floorValue block = .null ∧ floor = none ∨
      floorValue block ≠ .null ∧ ∃ text, (floorValue block).text b.printable = .ok text ∧
        (normalText b text ∈ ["none", "off", ""] ∧ floor = none ∨
          normalText b text ∉ ["none", "off", ""] ∧
            ∃ severity : Severity, normalText b text = severity.value ∧ floor = some severity) := by
  by_cases hnull : floorValue block = .null
  · rw [floorOf, ← floorValue, hnull] at h
    exact Or.inl ⟨hnull, (Except.ok.inj h).symm⟩
  · rw [floorOf_of_ne_null hnull] at h
    obtain ⟨text, htext, h⟩ := bind_eq_ok.mp h
    have htext := unguarded_eq_ok.mp htext
    refine Or.inr ⟨hnull, text, htext, ?_⟩
    split at h
    · exact Or.inl ⟨‹_›, (Except.ok.inj h).symm⟩
    · refine Or.inr ⟨‹_›, ?_⟩
      obtain ⟨severity, hseverity, h⟩ := bind_eq_ok.mp h
      cases hmember : Severity.ofValue? (normalText b text) with
      | some member =>
        rw [severityOf_of_some htext hmember] at hseverity
        obtain rfl := Except.ok.inj hseverity
        exact ⟨member, (value_of_find? hmember).symm, (Except.ok.inj h).symm⟩
      | none =>
        rw [severityOf_of_none htext hmember] at hseverity
        obtain ⟨shown, -, hseverity⟩ := bind_eq_ok.mp hseverity
        cases hseverity

theorem writtenFloor_iff {block : List (Yaml × Yaml)} {floor : Option Severity}
    (h : floorOf b block = .ok floor) :
    Written (lookup block "severity_at_or_above") (some .high) (MeansFloor b) floor ↔
      ∀ v ∈ lookup block "severity_at_or_above", v = .null ∨ IsText v := by
  replace h := floorOf_eq_ok h
  rw [floorValue] at h
  generalize lookup block "severity_at_or_above" = raw at h ⊢
  rcases raw with - | v
  · refine iff_of_true ?_ fun v hv => (nomatch hv)
    obtain ⟨hnull, -⟩ | ⟨-, text, htext, hfloor⟩ := h
    · cases hnull
    · obtain rfl : "high" = text := Except.ok.inj htext
      rw [normalText_word (by decide)] at hfloor
      obtain ⟨hoff, -⟩ | ⟨-, severity, hseverity, rfl⟩ := hfloor
      · exact absurd hoff (by decide)
      · exact congrArg some (@severity_value_injective severity .high hseverity.symm)
  · constructor
    · rintro (⟨hv, -⟩ | ⟨text, hv, -⟩) v' hv'
      · exact Or.inl (by rw [← Option.some.inj hv', hv])
      · exact Or.inr ⟨text, by rw [← Option.some.inj hv', hv]⟩
    · intro htyped
      obtain ⟨hnull, hfloor⟩ | ⟨hnull, text, htext, hfloor⟩ := h
      · exact Or.inl ⟨hnull, hfloor⟩
      · obtain hv | ⟨s, hs⟩ := htyped v rfl
        · exact absurd hv hnull
        · refine Or.inr ⟨s, hs, ?_⟩
          rw [Option.getD_some, hs] at htext
          obtain rfl : s = text := Except.ok.inj htext
          exact hfloor.imp id And.right

/-- A name that was read. -/
theorem writtenName_iff {data : List (Yaml × Yaml)} {name : String} (h : nameOf b data = .ok name) :
    Written (lookup data "name") "default" (MeansName b) name ↔
      ∀ v ∈ lookup data "name", IsText v := by
  obtain ⟨text, htext, h⟩ := bind_eq_ok.mp h
  replace htext := unguarded_eq_ok.mp htext
  replace h := (Except.ok.inj h).symm
  generalize lookup data "name" = raw at htext ⊢
  rcases raw with - | v
  · refine iff_of_true ?_ fun v hv => (nomatch hv)
    obtain rfl : "default" = text := Except.ok.inj htext
    rw [stripText_word (by decide)] at h
    exact h
  · constructor
    · rintro ⟨s, hs, -⟩ v' hv'
      exact ⟨s, by rw [← Option.some.inj hv', hs]⟩
    · intro htyped
      obtain ⟨s, rfl⟩ := htyped v rfl
      obtain rfl : s = text := Except.ok.inj htext
      exact ⟨s, rfl, h⟩

/-- A set of texts that was read. -/
theorem writtenTexts_iff {fieldName : String} {set : List String}
    (h : strSet b raw fieldName = .ok set) :
    Written raw [] (MeansTexts b) set ↔ ∀ v ∈ raw, IsTexts v := by
  rcases raw with - | v
  · exact iff_of_true (Except.ok.inj h).symm fun v hv => (nomatch hv)
  · constructor
    · rintro (⟨hv, -⟩ | ⟨texts, hv, -⟩) v' hv'
      · exact Or.inl (by rw [← Option.some.inj hv', hv])
      · exact Or.inr ⟨texts, by rw [← Option.some.inj hv', hv]⟩
    · intro htyped
      obtain rfl | ⟨texts, rfl⟩ := htyped v rfl
      · exact Or.inl ⟨rfl, (Except.ok.inj h).symm⟩
      · refine Or.inr ⟨texts, rfl, fun text => ?_⟩
        obtain ⟨texts', htexts', h⟩ := bind_eq_ok.mp h
        have hread : (texts.map Yaml.str).mapM (Yaml.text b.printable) = .ok texts := by
          have hmap := mapM_eq_ok_of_forall (ε := PyError) (f := Yaml.text b.printable)
            (l := texts.map Yaml.str) (g := fun v => match v with | .str s => s | _ => "")
            fun v hv => by obtain ⟨s, -, rfl⟩ := List.mem_map.mp hv; rfl
          rw [hmap, List.map_map]
          exact congrArg Except.ok (List.map_id texts)
        obtain rfl : texts = texts' :=
          Except.ok.inj (hread.symm.trans (unguarded_eq_ok.mp htexts'))
        rw [← Except.ok.inj h, List.mem_dedup, List.mem_filter, List.mem_map, decide_eq_true_eq,
          and_comm]

/-- A ceiling that was read. -/
theorem budgetOf_eq_ok {entry : Yaml × Yaml} {budget : String × ℤ}
    (h : budgetOf b entry = .ok budget) :
    ∃ text, entry.1.text b.printable = .ok text ∧ budget.1 = normalText b text ∧
      entry.2.toInt b = .ok budget.2 := by
  obtain ⟨text, htext, -⟩ := bind_eq_ok.mp h
  replace htext := unguarded_eq_ok.mp htext
  by_cases hseverity : ∃ severity : Severity, severity.value = normalText b text
  · rw [(budgetOf_of_text htext).1 hseverity] at h
    obtain ⟨limit, hlimit, h⟩ := bind_eq_ok.mp h
    split at h
    · cases h
    · obtain rfl := Except.ok.inj h
      exact ⟨text, htext, rfl, integerOf_eq_ok.mp hlimit⟩
  · obtain ⟨e, he, -⟩ := (budgetOf_of_text htext).2 hseverity
    rw [he] at h
    cases h

theorem limitFor_budgetsWith (values : Dict String ℤ) (severity : Severity) :
    (budgetsWith values).limitFor severity
      = (Dict.get? values severity.value).getD unlimited := by
  cases severity <;> rfl

/-- Ceilings of the expected types are the ones that hold. -/
theorem writtenBudget {data : List (Yaml × Yaml)} {budgets : Budgets}
    (h : budgetsOf b (lookup data "budgets") = .ok budgets)
    (htyped : ∀ entry ∈ entriesOf (lookup data "budgets"), IsText entry.1 ∧ IsInteger entry.2)
    (severity : Severity) :
    Written (ceilingOf b data severity) unlimited (fun v n => v = .int n)
      (budgets.limitFor severity) := by
  obtain ⟨entries, hentries, h⟩ := bind_eq_ok.mp h
  obtain rfl := requireMapping_eq_ok hentries
  obtain ⟨values, hvalues, h⟩ := bind_eq_ok.mp h
  obtain rfl := Except.ok.inj h
  have hpairs : values.map (fun kv => (kv.1, Yaml.int kv.2))
      = (entriesOf (lookup data "budgets")).filterMap fun entry =>
        match entry.1 with
        | .str text => some (normalText b text, entry.2)
        | _ => none := by
    rw [@map_of_mapM_eq_ok _ _ _ _ _ _ (fun entry => (match entry.1 with
      | .str text => normalText b text
      | _ => "", entry.2)) _ _ hvalues fun entry hentry budget hbudget => ?_,
      ← List.filterMap_eq_map]
    · refine List.filterMap_congr fun entry hentry => ?_
      obtain ⟨⟨text, htext⟩, -⟩ := htyped entry hentry
      simp only [Function.comp_apply, htext]
    · obtain ⟨⟨s, hs⟩, n, hn⟩ := htyped entry hentry
      obtain ⟨text, htext, hname, hlimit⟩ := budgetOf_eq_ok hbudget
      rw [hs] at htext
      rw [hn] at hlimit
      obtain rfl : s = text := Except.ok.inj htext
      rw [hname, ← Except.ok.inj hlimit, hs, hn]
  rw [ceilingOf, ← hpairs, Dict.get?_mapValues, limitFor_budgetsWith]
  cases Dict.get? values severity.value with
  | none => rfl
  | some n => rfl

end Typed

/-! ## Failing closed -/

section Main

variable (b : Builtins) (data : List (Yaml × Yaml)) (source : String)

/-- A document fails closed: its loading raises a `PolicyLoadError` and nothing else, or gives the
policy the document says, of which the loader knows every key. -/
structure FailsClosed : Prop where
  error : ∀ e, parsePolicy b data source = .error e → IsLoadError e
  policy : ∀ policy, parsePolicy b data source = .ok policy →
    KnownKeys data ∧ Says b data policy

variable {b data source}

/-- **A policy that loads is the one the document says exactly if the document is of the expected
types.** -/
theorem says_iff {policy : LoadedPolicy} (h : parsePolicy b data source = .ok policy) :
    Says b data policy ↔ WellTyped data := by
  obtain ⟨version, hversion, h⟩ := bind_eq_ok.mp h
  obtain ⟨block, hblock, h⟩ := bind_eq_ok.mp h
  obtain rfl := requireMapping_eq_ok hblock
  obtain ⟨floor, hfloor, h⟩ := bind_eq_ok.mp h
  obtain ⟨baseline, hbaseline, h⟩ := bind_eq_ok.mp h
  obtain rfl := requireMapping_eq_ok hbaseline
  obtain ⟨mode, hmode, h⟩ := bind_eq_ok.mp h
  obtain ⟨degraded, hdegraded, h⟩ := bind_eq_ok.mp h
  obtain ⟨waivers, hwaivers, h⟩ := bind_eq_ok.mp h
  obtain rfl := requireMapping_eq_ok hwaivers
  obtain ⟨maxDays, hmaxDays, h⟩ := bind_eq_ok.mp h
  obtain ⟨name, hname, h⟩ := bind_eq_ok.mp h
  obtain ⟨categories, hcategories, h⟩ := bind_eq_ok.mp h
  obtain ⟨rules, hrules, h⟩ := bind_eq_ok.mp h
  obtain ⟨budgets, hbudgets, h⟩ := bind_eq_ok.mp h
  obtain rfl := Except.ok.inj h
  have hversion := writtenInteger_iff (toInt_of_versionOf hversion)
  have hmaxDays := writtenInteger_iff (toInt_of_maxDaysOf hmaxDays)
  have hname := writtenName_iff hname
  have hfloor := writtenFloor_iff hfloor
  have hcategories := writtenTexts_iff hcategories
  have hrules := writtenTexts_iff hrules
  have hmode := writtenMode_iff hmode
  have hdegraded := writtenPosture_iff hdegraded
  constructor
  · intro h
    exact ⟨hversion.mp h.version, hname.mp h.name, hfloor.mp h.floor, hcategories.mp h.categories,
      hrules.mp h.rules, h.budgetEntries, hmode.mp h.mode, hdegraded.mp h.onDegraded,
      writtenFlag_iff.mp h.trustLlmDismissals, hmaxDays.mp h.maxTtlDays,
      writtenFlag_iff.mp h.requireOwner, writtenFlag_iff.mp h.requireReason⟩
  · intro h
    exact ⟨hversion.mpr h.version, hname.mpr h.name, hfloor.mpr h.floor,
      hcategories.mpr h.categories, hrules.mpr h.rules, writtenBudget hbudgets h.budgets, h.budgets,
      hmode.mpr h.mode, hdegraded.mpr h.onDegraded, writtenFlag_iff.mpr h.trustLlmDismissals,
      hmaxDays.mpr h.maxTtlDays, writtenFlag_iff.mpr h.requireOwner,
      writtenFlag_iff.mpr h.requireReason⟩

end Main

/-- Plain characters come after the blanks and are no capitals. -/
theorem toNat_of_isPlainChar {c : Char} (h : isPlainChar c = true) :
    48 ≤ c.toNat ∧ (c.toNat ≤ 57 ∨ 95 ≤ c.toNat) := by
  rw [isPlainChar, Bool.or_eq_true, Bool.or_eq_true, beq_iff_eq] at h
  obtain (hlower | hdigit) | rfl := h
  · have hle : 97 ≤ c.toNat := UInt32.le_iff_toNat_le.mp (of_decide_eq_true
      (Bool.and_eq_true_iff.mp hlower).1)
    omega
  · simp only [Char.isDigit, Bool.and_eq_true, decide_eq_true_eq] at hdigit
    have hle : 48 ≤ c.toNat := UInt32.le_iff_toNat_le.mp hdigit.1
    have hge : c.toNat ≤ 57 := UInt32.le_iff_toNat_le.mp hdigit.2
    omega
  · decide

/-- An interpreter as far as ASCII goes. -/
def asciiBuiltins : Builtins where
  toUnicode := .ascii
  intOf := Json.intOfText
  lower_word text h := by
    refine (List.map_congr_left fun c hc => dif_neg fun hupper => ?_).trans (List.map_id text)
    have hplain := toNat_of_isPlainChar (List.all_eq_true.mp h c hc)
    have hle : 65 ≤ c.toNat := UInt32.le_iff_toNat_le.mp hupper.1
    have hge : c.toNat ≤ 90 := UInt32.le_iff_toNat_le.mp hupper.2
    omega
  space_word c h := by
    have hle := (toNat_of_isPlainChar h).1
    have hne : ∀ d : Char, d.toNat < 48 → c ≠ d := fun d hd hcd => by
      rw [hcd] at hle
      exact absurd hd (not_lt.mpr hle)
    simp [Unicode.ascii, Char.isWhitespace, hne ' ' (by decide), hne '\t' (by decide),
      hne '\r' (by decide), hne '\n' (by decide)]
    omega

end BareAnalysis.PolicyLoader
