import Mathlib.Data.List.Basic
import Mathlib.Data.List.Forall2

/-!
# Machinery/Fallible — computations that return or raise

    x >>= f = ok b   ↔   x = ok a  and  f a = ok b

A pure computation that may raise is taken apart step by step (`bind_eq_ok`), and a loop that
collects results item by item (`mem_of_mapM_eq_ok`).
-/

namespace BareAnalysis

variable {ε α β : Type}

/-- **A computation that returned went through both parts.** -/
theorem bind_eq_ok {x : Except ε α} {f : α → Except ε β} {b : β} :
    x >>= f = .ok b ↔ ∃ a, x = .ok a ∧ f a = .ok b := by
  cases x with
  | error e => exact ⟨fun h => (nomatch h), fun ⟨_, h, _⟩ => (nomatch h)⟩
  | ok a =>
    constructor
    · intro h
      exact ⟨a, rfl, h⟩
    · rintro ⟨a', ha, h⟩
      obtain rfl := Except.ok.inj ha
      exact h

theorem map_eq_ok {x : Except ε α} {f : α → β} {b : β} :
    x.map f = .ok b ↔ ∃ a, x = .ok a ∧ f a = b := by
  cases x with
  | error e => exact ⟨fun h => (nomatch h), fun ⟨_, h, _⟩ => (nomatch h)⟩
  | ok a =>
    constructor
    · intro h
      exact ⟨a, rfl, Except.ok.inj h⟩
    · rintro ⟨a', ha, rfl⟩
      obtain rfl := Except.ok.inj ha
      rfl

/-- A computation that raised did so in one of its parts. -/
theorem bind_eq_error {x : Except ε α} {f : α → Except ε β} {e : ε} :
    x >>= f = .error e ↔ x = .error e ∨ ∃ a, x = .ok a ∧ f a = .error e := by
  cases x with
  | error e' =>
    constructor
    · intro h
      cases h
      exact Or.inl rfl
    · rintro (h | ⟨a, ha, -⟩)
      · cases h
        rfl
      · cases ha
  | ok a =>
    constructor
    · intro h
      exact Or.inr ⟨a, rfl, h⟩
    · rintro (h | ⟨a', ha, h⟩)
      · cases h
      · obtain rfl := Except.ok.inj ha
        exact h

theorem exists_eq_ok {x : Except ε α} (h : x.isOk) : ∃ a, x = .ok a := by
  cases x with
  | error e => cases h
  | ok a => exact ⟨a, rfl⟩

theorem isOk_iff {x : Except ε α} : x.isOk = true ↔ ∃ a, x = .ok a := by
  constructor
  · exact exists_eq_ok
  · rintro ⟨a, rfl⟩
    rfl

/-- A computation returns when its first part does and the rest does on what that returned. -/
theorem isOk_bind {x : Except ε α} {f : α → Except ε β} :
    (x >>= f).isOk = true ↔ ∃ a, x = .ok a ∧ (f a).isOk = true := by
  rw [isOk_iff]
  simp only [bind_eq_ok, isOk_iff]
  constructor
  · rintro ⟨b, a, ha, hb⟩
    exact ⟨a, ha, b, hb⟩
  · rintro ⟨a, ha, b, hb⟩
    exact ⟨b, a, ha, hb⟩

/-- …when both parts do, if what the rest does hangs on nothing the first part returned. -/
theorem isOk_bind_iff {x : Except ε α} {f : α → Except ε β} {p : Prop}
    (h : ∀ a, (f a).isOk = true ↔ p) : (x >>= f).isOk = true ↔ x.isOk = true ∧ p := by
  rw [isOk_bind, isOk_iff]
  constructor
  · rintro ⟨a, ha, hf⟩
    exact ⟨⟨a, ha⟩, (h a).mp hf⟩
  · rintro ⟨⟨a, ha⟩, hp⟩
    exact ⟨a, ha, (h a).mpr hp⟩

/-- …and when the first part does, if the rest cannot raise. -/
theorem isOk_bind_of_forall {x : Except ε α} {f : α → Except ε β}
    (h : ∀ a, (f a).isOk = true) : (x >>= f).isOk = true ↔ x.isOk = true :=
  (isOk_bind_iff fun a => iff_true_intro (h a)).trans (iff_of_eq (and_true _))

theorem ok_bind (a : α) (f : α → Except ε β) : (Except.ok a : Except ε α) >>= f = f a := rfl

theorem mapError_eq_ok {ε' : Type} {x : Except ε α} {f : ε → ε'} {a : α} :
    x.mapError f = .ok a ↔ x = .ok a := by
  cases x <;> simp [Except.mapError]

theorem mapError_eq_error {ε' : Type} {x : Except ε α} {f : ε → ε'} {e : ε'} :
    x.mapError f = .error e ↔ ∃ e', x = .error e' ∧ f e' = e := by
  cases x <;> simp [Except.mapError]

/-- What is done with a result is done with the last part's. -/
theorem map_bind_eq {γ : Type} (x : Except ε α) (f : α → Except ε β) (φ : β → γ) :
    (x >>= f).map φ = x >>= fun a => (f a).map φ := by
  cases x <;> rfl

theorem bind_map_eq {γ : Type} (x : Except ε α) (φ : α → β) (f : β → Except ε γ) :
    x.map φ >>= f = x >>= fun a => f (φ a) := by
  cases x <;> rfl

/-! ## Loops -/

/-- **Every result of a loop is some item's.** -/
theorem mem_of_mapM_eq_ok {f : α → Except ε β} {l : List α} {bs : List β}
    (h : l.mapM f = .ok bs) {b : β} (hb : b ∈ bs) : ∃ a ∈ l, f a = .ok b := by
  induction l generalizing bs with
  | nil =>
    obtain rfl := Except.ok.inj h
    cases hb
  | cons a l ih =>
    rw [List.mapM_cons] at h
    obtain ⟨b', hb', h⟩ := bind_eq_ok.mp h
    obtain ⟨bs', hbs', h⟩ := bind_eq_ok.mp h
    obtain rfl := Except.ok.inj h
    obtain rfl | hb := List.mem_cons.mp hb
    · exact ⟨a, List.mem_cons_self, hb'⟩
    · obtain ⟨a', ha', h⟩ := ih hbs' hb
      exact ⟨a', List.mem_cons_of_mem a ha', h⟩

/-- …and every item has its result. -/
theorem exists_mem_of_mapM_eq_ok {f : α → Except ε β} {l : List α} {bs : List β}
    (h : l.mapM f = .ok bs) {a : α} (ha : a ∈ l) : ∃ b ∈ bs, f a = .ok b := by
  induction l generalizing bs with
  | nil => cases ha
  | cons a' l ih =>
    rw [List.mapM_cons] at h
    obtain ⟨b', hb', h⟩ := bind_eq_ok.mp h
    obtain ⟨bs', hbs', h⟩ := bind_eq_ok.mp h
    obtain rfl := Except.ok.inj h
    obtain rfl | ha := List.mem_cons.mp ha
    · exact ⟨b', List.mem_cons_self, hb'⟩
    · obtain ⟨b, hb, h⟩ := ih hbs' ha
      exact ⟨b, List.mem_cons_of_mem b' hb, h⟩

/-- What is read off the results can be read off the items. -/
theorem map_of_mapM_eq_ok {γ : Type} {f : α → Except ε β} {g : β → γ} {g' : α → γ} {l : List α}
    {bs : List β} (h : l.mapM f = .ok bs) (hread : ∀ a ∈ l, ∀ b, f a = .ok b → g b = g' a) :
    bs.map g = l.map g' := by
  induction l generalizing bs with
  | nil =>
    obtain rfl := Except.ok.inj h
    rfl
  | cons a l ih =>
    rw [List.mapM_cons] at h
    obtain ⟨b, hb, h⟩ := bind_eq_ok.mp h
    obtain ⟨bs', hbs', h⟩ := bind_eq_ok.mp h
    obtain rfl := Except.ok.inj h
    rw [List.map_cons, List.map_cons, hread a List.mem_cons_self b hb,
      ih hbs' fun a' ha' => hread a' (List.mem_cons_of_mem a ha')]

/-- **A loop whose turns give other results gives the other results.** -/
theorem mapM_map {γ : Type} {f : α → Except ε β} {f' : α → Except ε γ} {φ : β → γ} (l : List α)
    (h : ∀ a ∈ l, f' a = (f a).map φ) : l.mapM f' = (l.mapM f).map (List.map φ) := by
  induction l with
  | nil => rfl
  | cons a l ih =>
    rw [List.mapM_cons, List.mapM_cons, h a List.mem_cons_self,
      ih fun a' ha' => h a' (List.mem_cons_of_mem a ha')]
    cases f a with
    | error e => rfl
    | ok b => cases l.mapM f <;> rfl

theorem mapM_congr {f f' : α → Except ε β} {l : List α} (h : ∀ a ∈ l, f a = f' a) :
    l.mapM f = l.mapM f' := by
  induction l with
  | nil => rfl
  | cons a l ih =>
    rw [List.mapM_cons, List.mapM_cons, h a List.mem_cons_self,
      ih fun a' ha' => h a' (List.mem_cons_of_mem a ha')]

/-- **A loop returns when every turn does.** -/
theorem isOk_mapM {f : α → Except ε β} {l : List α} :
    (l.mapM f).isOk = true ↔ ∀ a ∈ l, (f a).isOk = true := by
  induction l with
  | nil => exact ⟨fun _ a ha => (nomatch ha), fun _ => rfl⟩
  | cons a l ih =>
    rw [List.mapM_cons, isOk_bind, List.forall_mem_cons, ← ih, @isOk_iff _ _ (f a)]
    refine ⟨fun ⟨b, hb, hl⟩ => ⟨⟨b, hb⟩, ?_⟩, fun ⟨⟨b, hb⟩, hl⟩ => ⟨b, hb, ?_⟩⟩
    · exact (isOk_bind_of_forall fun _ => rfl).mp hl
    · exact (isOk_bind_of_forall fun _ => rfl).mpr hl

/-- **A loop's results are those of its turns, in order.** -/
theorem mapM_eq_ok {f : α → Except ε β} {l : List α} {bs : List β} :
    l.mapM f = .ok bs ↔ List.Forall₂ (fun a b => f a = .ok b) l bs := by
  induction l generalizing bs with
  | nil =>
    rw [List.mapM_nil, List.forall₂_nil_left_iff]
    exact ⟨fun h => (Except.ok.inj h).symm, fun h => congrArg Except.ok h.symm⟩
  | cons a l ih =>
    rw [List.mapM_cons, bind_eq_ok, List.forall₂_cons_left_iff]
    refine exists_congr fun b => ?_
    rw [bind_eq_ok]
    constructor
    · rintro ⟨hb, rest, hrest, h⟩
      exact ⟨rest, hb, ih.mp hrest, (Except.ok.inj h).symm⟩
    · rintro ⟨rest, hb, hrest, rfl⟩
      exact ⟨hb, rest, ih.mpr hrest, rfl⟩

/-- A loop none of whose turns raises. -/
theorem mapM_eq_ok_of_forall {f : α → Except ε β} {g : α → β} {l : List α}
    (h : ∀ a ∈ l, f a = .ok (g a)) : l.mapM f = .ok (l.map g) := by
  induction l with
  | nil => rfl
  | cons a l ih =>
    rw [List.mapM_cons, h a List.mem_cons_self, ih fun a' ha' => h a' (List.mem_cons_of_mem a ha')]
    rfl

/-- **A loop that carries a state** returns what the same loop on an image of the state returns the
image of, if every turn does. -/
theorem foldlM_eq_ok_of_forall {σ σ' α' : Type} {f : σ → α → Except ε σ}
    {f' : σ' → α' → Except ε σ'} (φ : σ → σ') (ψ : α → α')
    (hstep : ∀ s a t, f s a = .ok t → f' (φ s) (ψ a) = .ok (φ t)) {l : List α} {s t : σ}
    (h : l.foldlM f s = .ok t) : (l.map ψ).foldlM f' (φ s) = .ok (φ t) := by
  induction l generalizing s with
  | nil =>
    obtain rfl := Except.ok.inj h
    rfl
  | cons a l ih =>
    rw [List.foldlM_cons] at h
    obtain ⟨u, hu, h⟩ := bind_eq_ok.mp h
    rw [List.map_cons, List.foldlM_cons]
    exact bind_eq_ok.mpr ⟨φ u, hstep s a u hu, ih h⟩

/-- **A loop raises at the first item that does.** -/
theorem mapM_eq_error {f : α → Except ε β} {l : List α} {e : ε} :
    l.mapM f = .error e ↔ ∃ before a after, l = before ++ a :: after ∧
      (∀ b ∈ before, (f b).isOk = true) ∧ f a = .error e := by
  induction l with
  | nil =>
    constructor
    · intro h
      cases h
    · rintro ⟨before, a, after, h, -⟩
      exact absurd h.symm (by simp)
  | cons x l ih =>
    rw [List.mapM_cons, bind_eq_error]
    constructor
    · rintro (h | ⟨b, hb, h⟩)
      · exact ⟨[], x, l, rfl, fun b hb => (nomatch hb), h⟩
      · obtain h | ⟨bs, -, h⟩ := bind_eq_error.mp h
        · obtain ⟨before, a, after, rfl, hbefore, ha⟩ := ih.mp h
          refine ⟨x :: before, a, after, rfl, fun y hy => ?_, ha⟩
          obtain rfl | hy := List.mem_cons.mp hy
          · exact isOk_iff.mpr ⟨b, hb⟩
          · exact hbefore y hy
        · cases h
    · rintro ⟨before, a, after, hl, hbefore, ha⟩
      obtain - | ⟨y, before⟩ := before
      · obtain ⟨rfl, rfl⟩ := List.cons.inj hl
        exact Or.inl ha
      · obtain ⟨rfl, rfl⟩ := List.cons.inj hl
        obtain ⟨b, hb⟩ := exists_eq_ok (hbefore x List.mem_cons_self)
        refine Or.inr ⟨b, hb, bind_eq_error.mpr (Or.inl (ih.mpr ⟨before, a, after, rfl, ?_, ha⟩))⟩
        exact fun y hy => hbefore y (List.mem_cons_of_mem x hy)

/-- …with a state: at the first item that does, in the state the items before it lead to. -/
theorem foldlM_eq_error {σ : Type} {f : σ → α → Except ε σ} {l : List α} {s : σ} {e : ε} :
    l.foldlM f s = .error e ↔ ∃ before a after s', l = before ++ a :: after ∧
      before.foldlM f s = .ok s' ∧ f s' a = .error e := by
  induction l generalizing s with
  | nil =>
    constructor
    · intro h
      cases h
    · rintro ⟨before, a, after, s', h, -⟩
      exact absurd h.symm (by simp)
  | cons x l ih =>
    rw [List.foldlM_cons, bind_eq_error]
    constructor
    · rintro (h | ⟨s₁, hs₁, h⟩)
      · exact ⟨[], x, l, s, rfl, rfl, h⟩
      · obtain ⟨before, a, after, s', rfl, hs', ha⟩ := ih.mp h
        refine ⟨x :: before, a, after, s', rfl, ?_, ha⟩
        exact List.foldlM_cons.trans (bind_eq_ok.mpr ⟨s₁, hs₁, hs'⟩)
    · rintro ⟨before, a, after, s', hl, hs', ha⟩
      obtain - | ⟨y, before⟩ := before
      · obtain ⟨rfl, rfl⟩ := List.cons.inj hl
        obtain rfl := Except.ok.inj hs'
        exact Or.inl ha
      · obtain ⟨rfl, rfl⟩ := List.cons.inj hl
        obtain ⟨s₁, hs₁, hs'⟩ := bind_eq_ok.mp (List.foldlM_cons.symm.trans hs')
        exact Or.inr ⟨s₁, hs₁, ih.mpr ⟨before, a, after, s', rfl, hs', ha⟩⟩

/-- **A loop for its effects returns when every turn does.** -/
theorem forM_eq_ok {f : α → Except ε Unit} {l : List α} :
    forM l f = .ok () ↔ ∀ a ∈ l, f a = .ok () := by
  induction l with
  | nil => exact ⟨fun _ a ha => (nomatch ha), fun _ => rfl⟩
  | cons a l ih =>
    rw [List.forM_cons, bind_eq_ok, List.forall_mem_cons, ← ih]
    exact ⟨fun ⟨_, ha, hl⟩ => ⟨ha, hl⟩, fun ⟨ha, hl⟩ => ⟨(), ha, hl⟩⟩

/-- **A loop raises what the first turn raises that does.** -/
theorem forM_eq_error {f : α → Except ε Unit} {l : List α} {e : ε} :
    forM l f = .error e ↔ ∃ before a after, l = before ++ a :: after ∧
      (∀ b ∈ before, f b = .ok ()) ∧ f a = .error e := by
  induction l with
  | nil =>
    constructor
    · intro h
      cases h
    · rintro ⟨before, a, after, hl, -⟩
      exact absurd hl.symm (by simp)
  | cons a l ih =>
    rw [List.forM_cons, bind_eq_error, ih]
    constructor
    · rintro (ha | ⟨_, ha, before, b, after, rfl, hbefore, hb⟩)
      · exact ⟨[], a, l, rfl, fun _ h => (nomatch h), ha⟩
      · exact ⟨a :: before, b, after, rfl, List.forall_mem_cons.mpr ⟨ha, hbefore⟩, hb⟩
    · rintro ⟨- | ⟨c, before⟩, b, after, hl, hbefore, hb⟩
      · obtain ⟨rfl, -⟩ := List.cons.inj hl
        exact Or.inl hb
      · obtain ⟨rfl, rfl⟩ := List.cons.inj hl
        obtain ⟨hc, hbefore⟩ := List.forall_mem_cons.mp hbefore
        exact Or.inr ⟨(), hc, before, b, after, rfl, hbefore, hb⟩

end BareAnalysis
