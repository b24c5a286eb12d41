import Mathlib.Data.List.Induction
import Mathlib.Data.List.Infix
import Mathlib.Order.Basic

/-!
# Machinery/History — runs of a deterministic system, and what holds in every state reached

    s ──a₁──▸ s₁ ──a₂──▸ ⋯ ──aₙ──▸ sₙ

A history is the list of acts taken.  `Throughout` says every act was fine in the state it was taken
in; `forall_prefix_iff_throughout` is the exactness rule: when a fine act keeps the invariant and
any other act breaks the property at once, the property holds in every state reached exactly when
the whole history was fine.
-/

namespace BareAnalysis.History

variable {σ α : Type*} (step : σ → α → σ)

/-- The state a history leads to. -/
def after (s : σ) (acts : List α) : σ := acts.foldl step s

@[simp] theorem after_nil (s : σ) : after step s [] = s := rfl

@[simp] theorem after_cons (s : σ) (a : α) (acts : List α) :
    after step s (a :: acts) = after step (step s a) acts := rfl

theorem after_append (s : σ) (xs ys : List α) :
    after step s (xs ++ ys) = after step (after step s xs) ys := List.foldl_append

theorem after_concat (s : σ) (xs : List α) (a : α) :
    after step s (xs ++ [a]) = step (after step s xs) a := by
  rw [after_append, after_cons, after_nil]

/-- Every act of the history is fine in the state it is taken in. -/
def Throughout (ok : σ → α → Prop) : σ → List α → Prop
  | _, [] => True
  | s, a :: acts => ok s a ∧ Throughout ok (step s a) acts

variable {step}

theorem throughout_append {ok : σ → α → Prop} (s : σ) (xs ys : List α) :
    Throughout step ok s (xs ++ ys) ↔
      Throughout step ok s xs ∧ Throughout step ok (after step s xs) ys := by
  induction xs generalizing s with
  | nil => simp [Throughout]
  | cons a xs ih => rw [List.cons_append, Throughout, ih, Throughout, after_cons, and_assoc]

/-- **The same, position by position.** -/
theorem throughout_iff {ok : σ → α → Prop} (s : σ) (acts : List α) :
    Throughout step ok s acts ↔ ∀ pre a, pre ++ [a] <+: acts → ok (after step s pre) a := by
  induction acts generalizing s with
  | nil => simp [Throughout]
  | cons b acts ih =>
    rw [Throughout, ih]
    constructor
    · rintro ⟨hb, hrest⟩ pre a hpre
      cases pre with
      | nil =>
        obtain rfl : a = b := (List.cons_prefix_cons.mp hpre).1
        exact hb
      | cons c pre =>
        obtain ⟨rfl, htail⟩ := List.cons_prefix_cons.mp hpre
        exact hrest pre a htail
    · intro h
      refine ⟨h [] b (List.cons_prefix_cons.mpr ⟨rfl, List.nil_prefix⟩), fun pre a hpre => ?_⟩
      exact h (b :: pre) a (List.cons_prefix_cons.mpr ⟨rfl, hpre⟩)

/-- **The invariant rule**: what a fine act keeps holds after every prefix of a fine history. -/
theorem invariant_of_throughout {I : σ → Prop} {ok : σ → α → Prop}
    (hstep : ∀ s a, I s → ok s a → I (step s a)) {s : σ} {acts : List α} (h0 : I s)
    (hok : Throughout step ok s acts) {pre : List α} (hpre : pre <+: acts) :
    I (after step s pre) := by
  induction acts generalizing s pre with
  | nil =>
    obtain rfl : pre = [] := List.prefix_nil.mp hpre
    exact h0
  | cons a acts ih =>
    cases pre with
    | nil => exact h0
    | cons b pre =>
      obtain ⟨rfl, htail⟩ := List.cons_prefix_cons.mp hpre
      exact ih (hstep s b h0 hok.1) hok.2 htail

/-- An invariant every act keeps holds after every history. -/
theorem invariant_of_step {I : σ → Prop} (hstep : ∀ s a, I s → I (step s a)) {s : σ} (h0 : I s)
    (acts : List α) : I (after step s acts) := by
  induction acts generalizing s with
  | nil => exact h0
  | cons a acts ih => exact ih (hstep s a h0)

/-- **The exactness rule**: with an invariant `I` that gives the property, and acts that either keep
`I` or break the property on the spot, the property holds in every state reached exactly when every
act was fine. -/
theorem forall_prefix_iff_throughout {I P : σ → Prop} {ok : σ → α → Prop}
    (hkeep : ∀ s a, I s → ok s a → I (step s a)) (hI : ∀ s, I s → P s)
    (hbreak : ∀ s a, I s → ¬ ok s a → ¬ P (step s a)) {s : σ} (h0 : I s) (acts : List α) :
    (∀ pre, pre <+: acts → P (after step s pre)) ↔ Throughout step ok s acts := by
  refine ⟨fun h => ?_, fun hok pre hpre => hI _ (invariant_of_throughout hkeep h0 hok hpre)⟩
  induction acts generalizing s with
  | nil => trivial
  | cons a acts ih =>
    have hok : ok s a := by
      by_contra hbad
      exact hbreak s a h0 hbad (h [a] (List.cons_prefix_cons.mpr ⟨rfl, List.nil_prefix⟩))
    refine ⟨hok, ih (hkeep s a h0 hok) fun pre hpre => ?_⟩
    exact h (a :: pre) (List.cons_prefix_cons.mpr ⟨rfl, hpre⟩)

/-- **The rule for what only moves one way**: along a reflexive and transitive relation, every later
state of a history is related to every earlier one exactly when each act relates its two states. -/
theorem forall_later_iff_throughout {R : σ → σ → Prop} (hrefl : ∀ s, R s s)
    (htrans : ∀ s t u, R s t → R t u → R s u) (s : σ) (acts : List α) :
    (∀ pre post, pre <+: post → post <+: acts → R (after step s pre) (after step s post)) ↔
      Throughout step (fun s a => R s (step s a)) s acts := by
  rw [throughout_iff]
  constructor
  · intro h pre a hpre
    have hstep := h pre (pre ++ [a]) (List.prefix_append pre [a]) hpre
    rwa [after_concat] at hstep
  · intro h pre post hpre hpost
    induction post using List.reverseRecOn with
    | nil =>
      obtain rfl : pre = [] := List.prefix_nil.mp hpre
      exact hrefl _
    | append_singleton post a ih =>
      obtain rfl | hshort := List.prefix_concat_iff.mp hpre
      · exact hrefl _
      · rw [after_concat]
        exact htrans _ _ _ (ih hshort ((List.prefix_append post [a]).trans hpost)) (h post a hpost)

section Observation

variable {β : Type*} (step : σ → α → σ) (obs : σ → α → Option β)

/-- What the acts of a history show, in order; an act may show nothing. -/
def observed : σ → List α → List β
  | _, [] => []
  | s, a :: acts => (obs s a).toList ++ observed (step s a) acts

@[simp] theorem observed_nil (s : σ) : observed step obs s [] = [] := rfl

theorem observed_append (s : σ) (xs ys : List α) :
    observed step obs s (xs ++ ys)
      = observed step obs s xs ++ observed step obs (after step s xs) ys := by
  induction xs generalizing s with
  | nil => rfl
  | cons a xs ih => simp [observed, ih]

/-- **The last act shows last.** -/
theorem observed_concat (s : σ) (xs : List α) (a : α) :
    observed step obs s (xs ++ [a])
      = observed step obs s xs ++ (obs (after step s xs) a).toList := by
  rw [observed_append, observed, observed_nil, List.append_nil]

theorem observed_mono (s : σ) {xs ys : List α} (h : xs <+: ys) :
    observed step obs s xs <+: observed step obs s ys := by
  obtain ⟨zs, rfl⟩ := h
  rw [observed_append]
  exact List.prefix_append _ _

end Observation

section Simulation

variable {τ β : Type*} {step' : τ → β → τ}

/-- **A projection that commutes with every act commutes with every history**; an act the small
system does not see is projected to no act at all. -/
theorem after_filterMap (view : σ → τ) (seen : α → Option β)
    (hsee : ∀ s a b, seen a = some b → view (step s a) = step' (view s) b)
    (hskip : ∀ s a, seen a = none → view (step s a) = view s) (s : σ) (acts : List α) :
    view (after step s acts) = after step' (view s) (acts.filterMap seen) := by
  induction acts generalizing s with
  | nil => rfl
  | cons a acts ih =>
    cases hs : seen a with
    | none => rw [after_cons, ih, hskip s a hs, List.filterMap_cons_none hs]
    | some b => rw [after_cons, ih, hsee s a b hs, List.filterMap_cons_some hs, after_cons]

end Simulation

end BareAnalysis.History
