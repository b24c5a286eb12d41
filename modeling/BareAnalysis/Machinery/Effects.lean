import Mathlib.Order.Defs.Unbundled

/-!
# Machinery/Effects — programs that change a state and may raise

    exec x s = (outcome, state)        an exception keeps what was done before it

`Within R` says that a program moves the state along a preorder `R`, whatever its outcome; an
invariant is the case `R s t := I s → I t`.  `Returns` speaks about runs that return.  Each comes
with one rule for every way programs are put together.
-/

namespace BareAnalysis

/-- A program over the state `σ` that returns an `α` or raises an `ε`. -/
abbrev Eff (ε σ α : Type) := ExceptT ε (StateM σ) α

namespace Eff

variable {ε σ α β : Type}

/-- Run a program from a state. -/
def exec (x : Eff ε σ α) (s : σ) : Except ε α × σ := StateT.run (ExceptT.run x) s

@[simp] theorem exec_pure (a : α) (s : σ) : exec (pure a : Eff ε σ α) s = (.ok a, s) := rfl

@[simp] theorem exec_throw (e : ε) (s : σ) :
    exec (throw e : Eff ε σ α) s = (.error e, s) := rfl

@[simp] theorem exec_get (s : σ) : exec (get : Eff ε σ σ) s = (.ok s, s) := rfl

@[simp] theorem exec_modify (f : σ → σ) (s : σ) :
    exec (modify f : Eff ε σ Unit) s = (.ok (), f s) := rfl

theorem exec_bind (x : Eff ε σ α) (f : α → Eff ε σ β) (s : σ) :
    exec (x >>= f) s = match exec x s with
      | (.ok a, t) => exec (f a) t
      | (.error e, t) => (.error e, t) := by
  change StateT.run (ExceptT.run (x >>= f)) s = _
  rw [ExceptT.run_bind, StateT.run_bind]
  unfold exec
  rcases StateT.run (ExceptT.run x) s with ⟨_ | _, _⟩ <;> rfl

theorem exec_tryCatch (x : Eff ε σ α) (h : ε → Eff ε σ α) (s : σ) :
    exec (tryCatch x h) s = match exec x s with
      | (.ok a, t) => (.ok a, t)
      | (.error e, t) => exec (h e) t := by
  change StateT.run (ExceptT.run (ExceptT.tryCatch x h)) s = _
  unfold exec ExceptT.tryCatch
  change StateT.run (ExceptT.run x >>= _) s = _
  rw [StateT.run_bind]
  rcases StateT.run (ExceptT.run x) s with ⟨_ | _, _⟩ <;> rfl

/-- Raise what a pure computation raised. -/
def ofExcept : Except ε α → Eff ε σ α
  | .ok a => pure a
  | .error e => throw e

/-! ## Taking a run that returned apart -/

/-- **A run that returned went through both parts.** -/
theorem exec_bind_ok {x : Eff ε σ α} {f : α → Eff ε σ β} {s u : σ} {b : β}
    (h : exec (x >>= f) s = (.ok b, u)) :
    ∃ a t, exec x s = (.ok a, t) ∧ exec (f a) t = (.ok b, u) := by
  rw [exec_bind] at h
  rcases hx : exec x s with ⟨e | a, t⟩
  · rw [hx] at h
    cases h
  · rw [hx] at h
    exact ⟨a, t, rfl, h⟩

theorem exec_bind_of_ok {x : Eff ε σ α} {s t : σ} {a : α} (h : exec x s = (.ok a, t))
    (f : α → Eff ε σ β) : exec (x >>= f) s = exec (f a) t := by
  rw [exec_bind, h]

theorem exec_ofExcept_ok {r : Except ε α} {s t : σ} {a : α}
    (h : exec (ofExcept r) s = (.ok a, t)) : r = .ok a ∧ t = s := by
  cases r with
  | ok b =>
    obtain ⟨hok, rfl⟩ := Prod.mk.inj h
    exact ⟨congrArg Except.ok (Except.ok.inj hok), rfl⟩
  | error e => cases h

theorem exec_get_ok {s t a : σ} (h : exec (get : Eff ε σ σ) s = (.ok a, t)) : a = s ∧ t = s := by
  obtain ⟨hok, rfl⟩ := Prod.mk.inj h
  exact ⟨(Except.ok.inj hok).symm, rfl⟩

theorem exec_modify_ok {f : σ → σ} {s t : σ} {a : Unit}
    (h : exec (modify f : Eff ε σ Unit) s = (.ok a, t)) : t = f s :=
  (congrArg Prod.snd h).symm

theorem exec_pure_ok {s t : σ} {a b : α} (h : exec (pure a : Eff ε σ α) s = (.ok b, t)) :
    b = a ∧ t = s := by
  obtain ⟨hok, rfl⟩ := Prod.mk.inj h
  exact ⟨(Except.ok.inj hok).symm, rfl⟩

/-- A pure computation at the head of a run that returned. -/
theorem exec_ofExcept_bind_ok {r : Except ε α} {f : α → Eff ε σ β} {s u : σ} {b : β}
    (h : exec (ofExcept r >>= f) s = (.ok b, u)) :
    ∃ a, r = .ok a ∧ exec (f a) s = (.ok b, u) := by
  obtain ⟨a, t, hok, hf⟩ := exec_bind_ok h
  obtain ⟨hr, rfl⟩ := exec_ofExcept_ok hok
  exact ⟨a, hr, hf⟩

/-- A look at the state at the head of a run. -/
theorem exec_get_bind (f : σ → Eff ε σ β) (s : σ) : exec (get >>= f) s = exec (f s) s := by
  rw [exec_bind, exec_get]

/-- A write at the head of a run. -/
theorem exec_modify_bind (g : σ → σ) (f : Unit → Eff ε σ β) (s : σ) :
    exec (modify g >>= f) s = exec (f ()) (g s) := by
  rw [exec_bind, exec_modify]

/-! ## Moving along a preorder -/

/-- The program moves the state along `R`, however it ends. -/
def Within (R : σ → σ → Prop) (x : Eff ε σ α) : Prop := ∀ s, R s (exec x s).2

section Within

variable {R : σ → σ → Prop} [Std.Refl R] [IsTrans σ R]

omit [IsTrans σ R] in
theorem within_pure (a : α) : Within R (pure a : Eff ε σ α) := fun s => Std.Refl.refl s

omit [IsTrans σ R] in
theorem within_throw (e : ε) : Within R (throw e : Eff ε σ α) := fun s => Std.Refl.refl s

omit [IsTrans σ R] in
theorem within_get : Within R (get : Eff ε σ σ) := fun s => Std.Refl.refl s

omit [IsTrans σ R] in
theorem within_ofExcept (r : Except ε α) : Within R (ofExcept r : Eff ε σ α) := by
  cases r with
  | ok a => exact within_pure a
  | error e => exact within_throw e

omit [IsTrans σ R] in
/-- What follows a pure computation may count on its result. -/
theorem within_ofExcept_bind {r : Except ε α} {f : α → Eff ε σ β}
    (h : ∀ a, r = .ok a → Within R (f a)) : Within R (ofExcept r >>= f) := by
  cases r with
  | ok a => exact h a rfl
  | error e => exact within_throw e

omit [Std.Refl R] [IsTrans σ R] in
/-- What follows a look at the state may count on it. -/
theorem within_get_bind {f : σ → Eff ε σ β} (h : ∀ s, R s (exec (f s) s).2) :
    Within R (get >>= f) := fun s => by
  rw [exec_bind, exec_get]
  exact h s

omit [Std.Refl R] [IsTrans σ R] in
theorem within_modify {f : σ → σ} (h : ∀ s, R s (f s)) : Within R (modify f : Eff ε σ Unit) := h

omit [Std.Refl R] in
theorem within_bind {x : Eff ε σ α} {f : α → Eff ε σ β} (hx : Within R x)
    (hf : ∀ a, Within R (f a)) : Within R (x >>= f) := by
  intro s
  have h := hx s
  rw [exec_bind]
  rcases hxs : exec x s with ⟨e | a, t⟩
  · rwa [hxs] at h
  · rw [hxs] at h
    exact IsTrans.trans _ _ _ h (hf a t)

omit [Std.Refl R] in
theorem within_tryCatch {x : Eff ε σ α} {h : ε → Eff ε σ α} (hx : Within R x)
    (hh : ∀ e, Within R (h e)) : Within R (tryCatch x h) := by
  intro s
  have h' := hx s
  rw [exec_tryCatch]
  rcases hxs : exec x s with ⟨e | a, t⟩
  · rw [hxs] at h'
    exact IsTrans.trans _ _ _ h' (hh e t)
  · rwa [hxs] at h'

/-- A loop moves along `R` if every turn does. -/
theorem within_foldlM {f : β → α → Eff ε σ β} (l : List α) (h : ∀ b, ∀ a ∈ l, Within R (f b a))
    (b : β) : Within R (l.foldlM f b) := by
  induction l generalizing b with
  | nil => exact within_pure b
  | cons a l ih =>
    refine within_bind (h b a List.mem_cons_self) fun b' => ?_
    exact ih (fun b' a' ha' => h b' a' (List.mem_cons_of_mem a ha')) b'

theorem within_forM {f : α → Eff ε σ Unit} (l : List α) (h : ∀ a ∈ l, Within R (f a)) :
    Within R (l.forM f) := by
  induction l with
  | nil => exact within_pure ()
  | cons a l ih =>
    refine within_bind (h a List.mem_cons_self) fun _ => ?_
    exact ih fun a' ha' => h a' (List.mem_cons_of_mem a ha')

end Within

/-! ## From a precondition -/

/-- The program moves the state along `R` from every state of `P`, however it ends. -/
def WithinFrom (P : σ → Prop) (R : σ → σ → Prop) (x : Eff ε σ α) : Prop :=
  ∀ s, P s → R s (exec x s).2

section WithinFrom

variable {P : σ → Prop} {R : σ → σ → Prop} [IsTrans σ R]

omit [IsTrans σ R] in
theorem Within.from {x : Eff ε σ α} (h : Within R x) : WithinFrom P R x := fun s _ => h s

/-- A first part that keeps the precondition, from which the rest moves along `R`. -/
theorem withinFrom_bind {x : Eff ε σ α} {f : α → Eff ε σ β} (hx : WithinFrom P R x)
    (hP : ∀ s, P s → P (exec x s).2) (hf : ∀ a, WithinFrom P R (f a)) :
    WithinFrom P R (x >>= f) := by
  intro s hs
  have h := hx s hs
  have ht := hP s hs
  rw [exec_bind]
  rcases hxs : exec x s with ⟨e | a, t⟩
  · rwa [hxs] at h
  · rw [hxs] at h ht
    exact IsTrans.trans _ _ _ h (hf a t ht)

/-- A first part after which the rest needs no precondition. -/
theorem withinFrom_bind_within {x : Eff ε σ α} {f : α → Eff ε σ β} (hx : WithinFrom P R x)
    (hf : ∀ a, Within R (f a)) : WithinFrom P R (x >>= f) := by
  intro s hs
  have h := hx s hs
  rw [exec_bind]
  rcases hxs : exec x s with ⟨e | a, t⟩
  · rwa [hxs] at h
  · rw [hxs] at h
    exact IsTrans.trans _ _ _ h (hf a t)

omit [IsTrans σ R] in
/-- What follows a pure computation may count on its result. -/
theorem withinFrom_ofExcept_bind [Std.Refl R] {r : Except ε α} {f : α → Eff ε σ β}
    (h : ∀ a, r = .ok a → WithinFrom P R (f a)) : WithinFrom P R (ofExcept r >>= f) := by
  cases r with
  | ok a => exact h a rfl
  | error e => exact (within_throw e).from

omit [IsTrans σ R] in
/-- What follows a look at the state may count on it. -/
theorem withinFrom_get_bind {f : σ → Eff ε σ β} (h : ∀ s, P s → R s (exec (f s) s).2) :
    WithinFrom P R (get >>= f) := fun s hs => by
  rw [exec_get_bind]
  exact h s hs

theorem withinFrom_forM [Std.Refl R] {f : α → Eff ε σ Unit} (hf : ∀ a, WithinFrom P R (f a))
    (hP : ∀ a s, P s → P (exec (f a) s).2) (l : List α) : WithinFrom P R (l.forM f) := by
  induction l with
  | nil => exact (within_pure ()).from
  | cons a l ih => exact withinFrom_bind (hf a) (hP a) fun _ => ih

end WithinFrom

/-! ## Programs that agree -/

/-- The program keeps an invariant, however it ends. -/
abbrev Keeps (I : σ → Prop) (x : Eff ε σ α) : Prop := ∀ s, I s → I (exec x s).2

/-- Two programs make the same run from every state of an invariant. -/
def AgreeOn (I : σ → Prop) (x y : Eff ε σ α) : Prop := ∀ s, I s → exec x s = exec y s

section Agree

variable {I : σ → Prop}

theorem agreeOn_rfl {x : Eff ε σ α} : AgreeOn I x x := fun _ _ => rfl

theorem agreeOn_bind {x : Eff ε σ α} {f g : α → Eff ε σ β} (hx : Keeps I x)
    (h : ∀ a, AgreeOn I (f a) (g a)) : AgreeOn I (x >>= f) (x >>= g) := by
  intro s hs
  have ht := hx s hs
  rw [exec_bind, exec_bind]
  rcases hxs : exec x s with ⟨e | a, t⟩
  · rfl
  · rw [hxs] at ht
    exact h a t ht

theorem agreeOn_get_bind {f g : σ → Eff ε σ β} (h : ∀ s, I s → exec (f s) s = exec (g s) s) :
    AgreeOn I (get >>= f) (get >>= g) := fun s hs => by
  rw [exec_bind, exec_bind, exec_get]
  exact h s hs

theorem agreeOn_forM {f g : α → Eff ε σ Unit} (hkeep : ∀ a, Keeps I (f a))
    (h : ∀ a, AgreeOn I (f a) (g a)) (l : List α) : AgreeOn I (l.forM f) (l.forM g) := by
  induction l with
  | nil => exact agreeOn_rfl
  | cons a l ih =>
    intro s hs
    have hrest := agreeOn_bind (hkeep a) (fun _ => ih) s hs
    change exec (f a >>= fun _ => l.forM f) s = exec (g a >>= fun _ => l.forM g) s
    rw [hrest, exec_bind, exec_bind, h a s hs]

end Agree

/-! ## Runs that return -/

/-- Every run that starts in `P` and returns ends in `Q`. -/
def Returns (P : σ → Prop) (x : Eff ε σ α) (Q : α → σ → Prop) : Prop :=
  ∀ s, P s → ∀ a t, exec x s = (.ok a, t) → Q a t

section Returns

variable {P : σ → Prop} {Q : α → σ → Prop}

theorem returns_pure {a : α} (h : ∀ s, P s → Q a s) : Returns P (pure a : Eff ε σ α) Q := by
  intro s hs b t hrun
  obtain ⟨hok, rfl⟩ := Prod.mk.inj (hrun.symm.trans (exec_pure a s))
  obtain rfl := Except.ok.inj hok
  exact h t hs

theorem returns_throw {e : ε} : Returns P (throw e : Eff ε σ α) Q := by
  intro s _ a t hrun
  cases hrun

theorem returns_ofExcept {r : Except ε α} (h : ∀ a, r = .ok a → ∀ s, P s → Q a s) :
    Returns P (ofExcept r : Eff ε σ α) Q := by
  cases r with
  | ok a => exact returns_pure (h a rfl)
  | error e => exact returns_throw

theorem returns_modify {f : σ → σ} {Q : Unit → σ → Prop} (h : ∀ s, P s → Q () (f s)) :
    Returns P (modify f : Eff ε σ Unit) Q := by
  rintro s hs ⟨⟩ t hrun
  obtain rfl := congrArg Prod.snd hrun
  exact h s hs

/-- **One part after the other**, with what holds between them. -/
theorem returns_bind {R : α → σ → Prop} {x : Eff ε σ α} {f : α → Eff ε σ β}
    {Q : β → σ → Prop} (hx : Returns P x R) (hf : ∀ a, Returns (R a) (f a) Q) :
    Returns P (x >>= f) Q := by
  intro s hs b u hrun
  rw [exec_bind] at hrun
  rcases hxs : exec x s with ⟨e | a, t⟩
  · rw [hxs] at hrun
    cases hrun
  · rw [hxs] at hrun
    exact hf a t (hx s hs a t hxs) b u hrun

/-- What follows a pure computation may count on its result. -/
theorem returns_ofExcept_bind {r : Except ε α} {f : α → Eff ε σ β} {Q : β → σ → Prop}
    (h : ∀ a, r = .ok a → Returns P (f a) Q) : Returns P (ofExcept r >>= f) Q := by
  cases r with
  | ok a => exact h a rfl
  | error e => exact returns_throw

theorem returns_get_bind {f : σ → Eff ε σ β} {Q : β → σ → Prop}
    (h : ∀ s, P s → Returns (fun t => t = s) (f s) Q) : Returns P (get >>= f) Q := by
  intro s hs b t hrun
  rw [exec_bind, exec_get] at hrun
  exact h s hs s rfl b t hrun

/-- A weaker precondition. -/
theorem Returns.from {P' : σ → Prop} {x : Eff ε σ α} (h : Returns P' x Q)
    (hP : ∀ s, P s → P' s) : Returns P x Q := fun s hs => h s (hP s hs)

/-- A part that moves along `R` returns along `R`. -/
theorem Within.returns {R : σ → σ → Prop} {x : Eff ε σ α} (hx : Within R x)
    (h : ∀ s a t, P s → R s t → Q a t) : Returns P x Q := by
  intro s hs a t hrun
  have hmove := hx s
  rw [hrun] at hmove
  exact h s a t hs hmove

end Returns

end Eff

end BareAnalysis
