import BareAnalysis.Machinery.Fallible

/-!
# Machinery/Checks — computations that check one thing after another

    check ─passes─▸ check ─passes─▸ ⋯ ─▸ result
      │ reported      │ something else
      ▾               ▾
    the error that is promised, or another one

A computation that `Performs` a list of checks returns when all of them pass, and raises what is
promised when the first that does not pass is one that is reported.
-/

namespace BareAnalysis

variable {α β ε : Type}

/-- The first item that does not read is one that is reported. -/
def FirstReported (reads reported : α → Prop) (l : List α) : Prop :=
  ∃ before a after, l = before ++ a :: after ∧ (∀ b ∈ before, reads b) ∧ reported a

theorem FirstReported.congr {reads reads' reported reported' : α → Prop} {l : List α}
    (hreads : ∀ a, reads a ↔ reads' a) (hreported : ∀ a, reported a ↔ reported' a) :
    FirstReported reads reported l ↔ FirstReported reads' reported' l := by
  rw [funext fun a => propext (hreads a), funext fun a => propext (hreported a)]

theorem firstReported_cons {reads reported : α → Prop} {a : α} {l : List α} :
    FirstReported reads reported (a :: l) ↔
      reported a ∨ reads a ∧ FirstReported reads reported l := by
  constructor
  · rintro ⟨- | ⟨x, before⟩, b, after, hl, hbefore, hb⟩
    · obtain ⟨rfl, -⟩ := List.cons.inj hl
      exact Or.inl hb
    · obtain ⟨rfl, rfl⟩ := List.cons.inj hl
      obtain ⟨hx, hbefore⟩ := List.forall_mem_cons.mp hbefore
      exact Or.inr ⟨hx, before, b, after, rfl, hbefore, hb⟩
  · rintro (ha | ⟨ha, before, b, after, rfl, hbefore, hb⟩)
    · exact ⟨[], a, l, rfl, fun _ h => (nomatch h), ha⟩
    · exact ⟨a :: before, b, after, rfl, List.forall_mem_cons.mpr ⟨ha, hbefore⟩, hb⟩

theorem firstReported_append {reads reported : α → Prop} {l l' : List α} :
    FirstReported reads reported (l ++ l') ↔
      FirstReported reads reported l ∨ (∀ a ∈ l, reads a) ∧ FirstReported reads reported l' := by
  induction l with
  | nil => simp [FirstReported]
  | cons a l ih =>
    rw [List.cons_append, firstReported_cons, firstReported_cons, ih, List.forall_mem_cons]
    constructor
    · rintro (h | ⟨ha, h | ⟨hl, h⟩⟩)
      · exact Or.inl (Or.inl h)
      · exact Or.inl (Or.inr ⟨ha, h⟩)
      · exact Or.inr ⟨⟨ha, hl⟩, h⟩
    · rintro ((h | ⟨ha, h⟩) | ⟨⟨ha, hl⟩, h⟩)
      · exact Or.inl h
      · exact Or.inr ⟨ha, Or.inl h⟩
      · exact Or.inr ⟨ha, Or.inr ⟨hl, h⟩⟩

/-- The computation ends in one of the promised errors. -/
def Raises (promised : ε → Prop) (x : Except ε α) : Prop := ∃ e, x = .error e ∧ promised e

theorem raises_bind {promised : ε → Prop} {x : Except ε α} {f : α → Except ε β} :
    Raises promised (x >>= f) ↔
      Raises promised x ∨ ∃ a, x = .ok a ∧ Raises promised (f a) := by
  constructor
  · rintro ⟨e, h, he⟩
    obtain h | ⟨a, ha, h⟩ := bind_eq_error.mp h
    · exact Or.inl ⟨e, h, he⟩
    · exact Or.inr ⟨a, ha, e, h, he⟩
  · rintro (⟨e, h, he⟩ | ⟨a, ha, e, h, he⟩)
    · exact ⟨e, bind_eq_error.mpr (Or.inl h), he⟩
    · exact ⟨e, bind_eq_error.mpr (Or.inr ⟨a, ha, h⟩), he⟩

/-- The computation raises nothing but promised errors. -/
def Settled (promised : ε → Prop) (x : Except ε α) : Prop := ∀ e, x = .error e → promised e

theorem settled_ok {promised : ε → Prop} (a : α) : Settled promised (.ok a : Except ε α) :=
  fun _ h => nomatch h

theorem settled_error {promised : ε → Prop} {e : ε} :
    Settled promised (.error e : Except ε α) ↔ promised e :=
  ⟨fun h => h e rfl, fun he _ h => Except.error.inj h ▸ he⟩

theorem settled_bind {promised : ε → Prop} {x : Except ε α} {f : α → Except ε β} :
    Settled promised (x >>= f) ↔ Settled promised x ∧ ∀ a, x = .ok a → Settled promised (f a) := by
  constructor
  · intro h
    exact ⟨fun e he => h e (bind_eq_error.mpr (Or.inl he)),
      fun a ha e he => h e (bind_eq_error.mpr (Or.inr ⟨a, ha, he⟩))⟩
  · rintro ⟨hx, hf⟩ e he
    obtain he | ⟨a, ha, he⟩ := bind_eq_error.mp he
    · exact hx e he
    · exact hf a ha e he

/-- One check: when it passes, and when it is reported. -/
@[ext] structure Check where
  passes : Prop
  reported : Prop

variable {promised : ε → Prop}

/-- **A computation that does what its checks say.** -/
structure Performs (promised : ε → Prop) (x : Except ε α) (checks : List Check) : Prop where
  isOk_iff : x.isOk = true ↔ ∀ c ∈ checks, c.passes
  raises_iff : Raises promised x ↔ FirstReported Check.passes Check.reported checks

/-- **It raises nothing but promised errors if all checks pass or the first that does not is
reported.** -/
theorem Performs.settled_iff {x : Except ε α} {checks : List Check}
    (h : Performs promised x checks) : Settled promised x ↔
      (∀ c ∈ checks, c.passes) ∨ FirstReported Check.passes Check.reported checks := by
  rw [← h.isOk_iff, ← h.raises_iff]
  rcases x with e | a
  · constructor
    · exact fun h => Or.inr ⟨e, rfl, settled_error.mp h⟩
    · rintro (hok | ⟨e', he', hpromised⟩)
      · exact absurd hok Bool.false_ne_true
      · rw [settled_error, Except.error.inj he']
        exact hpromised
  · exact iff_of_true (settled_ok a) (Or.inl rfl)

/-- Nothing is checked. -/
theorem performs_ok (a : α) : Performs promised (.ok a : Except ε α) [] where
  isOk_iff := iff_of_true rfl fun _ h => (nomatch h)
  raises_iff := by
    refine iff_of_false (fun ⟨_, h, _⟩ => (nomatch h)) ?_
    rintro ⟨before, c, after, h, -⟩
    exact absurd h.symm (by simp)

/-- One thing is checked. -/
theorem performs_check {x : Except ε α} {c : Check} (hok : x.isOk = true ↔ c.passes)
    (hraises : Raises promised x ↔ c.reported) : Performs promised x [c] where
  isOk_iff := by rw [hok, List.forall_mem_singleton]
  raises_iff := by
    rw [hraises, firstReported_cons]
    refine (or_iff_left ?_).symm
    rintro ⟨-, before, c, after, h, -⟩
    exact absurd h.symm (by simp)

theorem Performs.isOk_iff_passes {x : Except ε α} {c : Check} (h : Performs promised x [c]) :
    x.isOk = true ↔ c.passes := h.isOk_iff.trans List.forall_mem_singleton

theorem Performs.raises_iff_reported {x : Except ε α} {c : Check} (h : Performs promised x [c]) :
    Raises promised x ↔ c.reported := by
  rw [h.raises_iff, firstReported_cons]
  refine or_iff_left ?_
  rintro ⟨-, before, c, after, h, -⟩
  exact absurd h.symm (by simp)

/-- **One computation after the other checks one thing after the other.** -/
theorem Performs.bind {x : Except ε α} {f : α → Except ε β} {checks checks' : List Check}
    (hx : Performs promised x checks) (hf : ∀ a, x = .ok a → Performs promised (f a) checks') :
    Performs promised (x >>= f) (checks ++ checks') := by
  rcases x with e | a
  · have hnot : ¬∀ c ∈ checks, c.passes := fun h => Bool.false_ne_true (hx.isOk_iff.mpr h)
    constructor
    · refine iff_of_false Bool.false_ne_true fun h => hnot fun c hc => ?_
      exact h c (List.mem_append_left _ hc)
    · rw [firstReported_append, ← hx.raises_iff, or_iff_left fun h => hnot h.1]
      constructor <;> rintro ⟨e', h, he⟩ <;> obtain rfl := Except.error.inj h <;>
        exact ⟨_, rfl, he⟩
  · have hall := hx.isOk_iff.mp rfl
    have hnot : ¬FirstReported Check.passes Check.reported checks := fun h => by
      obtain ⟨e, he, -⟩ := hx.raises_iff.mpr h
      cases he
    obtain ⟨hok, hraises⟩ := hf a rfl
    constructor
    · rw [ok_bind, hok, List.forall_mem_append]
      exact (and_iff_right hall).symm
    · rw [ok_bind, hraises, firstReported_append, or_iff_right hnot, and_iff_right hall]

/-- A check that is known to pass… -/
theorem Performs.cons {x : Except ε α} {c : Check} {checks : List Check}
    (h : Performs promised x checks) (hpasses : c.passes) (hreported : ¬c.reported) :
    Performs promised x (c :: checks) where
  isOk_iff := by rw [h.isOk_iff, List.forall_mem_cons, and_iff_right hpasses]
  raises_iff := by rw [h.raises_iff, firstReported_cons, or_iff_right hreported, and_iff_right hpasses]

/-- …and one that is known not to. -/
theorem performs_error {c : Check} {checks : List Check} {e : ε} (hpasses : ¬c.passes)
    (hreported : promised e ↔ c.reported) :
    Performs promised (.error e : Except ε α) (c :: checks) where
  isOk_iff := iff_of_false Bool.false_ne_true fun h => hpasses (List.forall_mem_cons.mp h).1
  raises_iff := by
    rw [firstReported_cons, or_iff_left fun h => hpasses h.1, ← hreported]
    exact ⟨fun ⟨e', h, he⟩ => Except.error.inj h ▸ he, fun he => ⟨e, rfl, he⟩⟩

/-- What is done with a result does not matter… -/
theorem Performs.map {x : Except ε α} {f : α → β} {checks : List Check}
    (hx : Performs promised x checks) : Performs promised (x.map f) checks := by
  have h := hx.bind fun a _ => performs_ok (f a)
  rwa [List.append_nil] at h

/-- …and a loop checks item by item. -/
theorem performs_mapM {f : α → Except ε β} {check : α → Check} {l : List α}
    (hf : ∀ a ∈ l, Performs promised (f a) [check a]) :
    Performs promised (l.mapM f) (l.map check) := by
  induction l with
  | nil => exact performs_ok []
  | cons a l ih =>
    obtain ⟨ha, hl⟩ := List.forall_mem_cons.mp hf
    rw [List.mapM_cons, List.map_cons]
    exact ha.bind fun b _ => (ih hl).map

end BareAnalysis
