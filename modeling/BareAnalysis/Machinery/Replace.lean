import Mathlib.Data.List.Infix
import Mathlib.Tactic.Common

/-!
# Machinery/Replace — `text.replace(old, new)` and `text.split(old)`

    a b old c old d   ──cut──▸   a b │ c │ d   ──join by new──▸   a b new c new d

Both scan from the left and take occurrences that do not overlap.  Where `new` holds a character
that neither `old` nor what one looks for has, the parts keep apart: what is found in the result is
found in one part, with what `new` adds to its ends.
-/

namespace BareAnalysis

variable {α : Type*}

/-! ## Texts that keep clear of a character -/

section Clear

variable {sep : α} {x a b : List α}

/-- A text without the separator starts ahead of it… -/
theorem prefix_append_cons_iff (hx : sep ∉ x) : x <+: a ++ sep :: b ↔ x <+: a := by
  induction a generalizing x with
  | nil =>
    obtain - | ⟨c, x⟩ := x
    · simp
    · refine ⟨fun h => ?_, fun h => absurd h.length_le (by simp)⟩
      obtain ⟨rfl, -⟩ := List.cons_prefix_cons.mp h
      exact absurd List.mem_cons_self hx
  | cons d a ih =>
    obtain - | ⟨c, x⟩ := x
    · simp
    · rw [List.cons_append, List.cons_prefix_cons, List.cons_prefix_cons,
        ih fun h => hx (List.mem_cons_of_mem c h)]

/-- …and stands on one side of it. -/
theorem infix_append_cons_iff (hx : sep ∉ x) : x <:+: a ++ sep :: b ↔ x <:+: a ∨ x <:+: b := by
  induction a with
  | nil =>
    rw [List.nil_append, List.infix_cons_iff]
    have hpre := prefix_append_cons_iff (a := []) (b := b) hx
    rw [List.nil_append, List.prefix_nil] at hpre
    rw [hpre, List.infix_nil]
  | cons c a ih =>
    have hpre := prefix_append_cons_iff (a := c :: a) (b := b) hx
    rw [List.cons_append] at hpre ⊢
    rw [List.infix_cons_iff, hpre, ih, List.infix_cons_iff, or_assoc]

end Clear

variable [DecidableEq α]

/-! ## Replacing and cutting -/

/-- The scan of `replace`; `skip` characters still belong to the last occurrence. -/
def replaceFrom (old new : List α) : ℕ → List α → List α
  | _, [] => []
  | skip + 1, _ :: s => replaceFrom old new skip s
  | 0, c :: s =>
    if old <+: c :: s then new ++ replaceFrom old new (old.length - 1) s
    else c :: replaceFrom old new 0 s

/-- `text.replace(old, new)`; an empty `old` stands between all characters. -/
def replace (old new s : List α) : List α :=
  if old = [] then new ++ s.flatMap (fun c => c :: new) else replaceFrom old new 0 s

/-- The scan of `split`. -/
def cutFrom (old : List α) : ℕ → List α → List (List α)
  | _, [] => [[]]
  | skip + 1, _ :: s => cutFrom old skip s
  | 0, c :: s =>
    if old <+: c :: s then [] :: cutFrom old (old.length - 1) s
    else (cutFrom old 0 s).modifyHead (c :: ·)

/-- `text.split(old)`, for an `old` that is not empty. -/
def cut (old s : List α) : List (List α) := cutFrom old 0 s

theorem cutFrom_ne_nil (old : List α) (skip : ℕ) (s : List α) : cutFrom old skip s ≠ [] := by
  induction s generalizing skip with
  | nil => exact List.cons_ne_nil _ _
  | cons c s ih =>
    cases skip with
    | succ skip => exact ih skip
    | zero =>
      rw [cutFrom]
      split
      · exact List.cons_ne_nil _ _
      · obtain ⟨p, ps, hcut⟩ := List.exists_cons_of_ne_nil (ih 0)
        rw [hcut]
        exact List.cons_ne_nil _ _

/-- **Replacing joins the parts of the cut by the new text.** -/
theorem replaceFrom_eq_intercalate (old new : List α) (skip : ℕ) (s : List α) :
    replaceFrom old new skip s = new.intercalate (cutFrom old skip s) := by
  induction s generalizing skip with
  | nil => simp [replaceFrom, cutFrom]
  | cons c s ih =>
    cases skip with
    | succ skip => exact ih skip
    | zero =>
      rw [replaceFrom, cutFrom]
      split
      · obtain ⟨p, ps, hcut⟩ := List.exists_cons_of_ne_nil (cutFrom_ne_nil old (old.length - 1) s)
        rw [ih, hcut, List.intercalate_cons_cons, List.nil_append]
      · obtain ⟨p, ps, hcut⟩ := List.exists_cons_of_ne_nil (cutFrom_ne_nil old 0 s)
        rw [ih, hcut, List.modifyHead_cons]
        cases ps with
        | nil => rw [List.intercalate_singleton, List.intercalate_singleton]
        | cons p' ps =>
          rw [List.intercalate_cons_cons, List.intercalate_cons_cons, List.cons_append,
            List.cons_append]

theorem replace_eq_intercalate {old : List α} (hold : old ≠ []) (new s : List α) :
    replace old new s = new.intercalate (cut old s) := by
  rw [replace, if_neg hold, replaceFrom_eq_intercalate]
  rfl

/-- **What a cut leaves**: its first piece starts the text, and no piece holds what was cut out. -/
theorem cutFrom_pieces {old : List α} (hold : old ≠ []) (skip : ℕ) (s : List α) :
    (∀ p ∈ (cutFrom old skip s).head?, p <+: s.drop skip) ∧
      ∀ p ∈ cutFrom old skip s, p <:+: s ∧ ¬old <:+: p := by
  induction s generalizing skip with
  | nil =>
    refine ⟨fun p hp => ?_, fun p hp => ?_⟩
    · obtain rfl := Option.mem_some_iff.mp hp
      exact List.nil_prefix
    · rw [List.mem_singleton.mp hp]
      exact ⟨List.infix_rfl, fun h => hold (List.infix_nil.mp h)⟩
  | cons c s ih =>
    have hmono : ∀ skip, ∀ p ∈ cutFrom old skip s, p <:+: c :: s ∧ ¬old <:+: p := fun skip p hp =>
      ⟨((ih skip).2 p hp).1.trans (List.suffix_cons c s).isInfix, ((ih skip).2 p hp).2⟩
    obtain - | skip := skip
    · rw [cutFrom]
      split
      · refine ⟨fun p hp => ?_, fun p hp => ?_⟩
        · obtain rfl := Option.mem_some_iff.mp hp
          exact List.nil_prefix
        · obtain rfl | hp := List.mem_cons.mp hp
          · exact ⟨List.nil_infix, fun h => hold (List.infix_nil.mp h)⟩
          · exact hmono _ p hp
      · rename_i hstarts
        obtain ⟨p, ps, hcut⟩ := List.exists_cons_of_ne_nil (cutFrom_ne_nil old 0 s)
        have hrest := hmono 0
        obtain ⟨hhead, hpieces⟩ := ih 0
        rw [hcut] at hhead hpieces hrest ⊢
        rw [List.modifyHead_cons]
        have hpre : c :: p <+: c :: s := List.cons_prefix_cons.mpr ⟨rfl, hhead p rfl⟩
        refine ⟨fun q hq => ?_, fun q hq => ?_⟩
        · obtain rfl := Option.mem_some_iff.mp hq
          exact hpre
        · obtain rfl | hq := List.mem_cons.mp hq
          · refine ⟨hpre.isInfix, fun h => ?_⟩
            obtain h | h := List.infix_cons_iff.mp h
            · exact hstarts (h.trans hpre)
            · exact (hpieces p List.mem_cons_self).2 h
          · exact hrest q (List.mem_cons_of_mem p hq)
    · exact ⟨(ih skip).1, hmono skip⟩

theorem infix_of_mem_cut {old s p : List α} (hold : old ≠ []) (h : p ∈ cut old s) : p <:+: s :=
  ((cutFrom_pieces hold 0 s).2 p h).1

theorem not_infix_of_mem_cut {old s p : List α} (hold : old ≠ []) (h : p ∈ cut old s) :
    ¬old <:+: p :=
  ((cutFrom_pieces hold 0 s).2 p h).2

/-- Nothing to replace. -/
theorem replace_eq_self {old s : List α} (hold : old ≠ []) (new : List α) (h : ¬old <:+: s) :
    replace old new s = s := by
  rw [replace, if_neg hold]
  induction s with
  | nil => rfl
  | cons c s ih =>
    rw [List.infix_cons_iff, not_or] at h
    rw [replaceFrom, if_neg h.1, ih h.2]

/-- What a replaced text is made of. -/
theorem mem_replaceFrom {old new : List α} {skip : ℕ} {s : List α} {c : α}
    (h : c ∈ replaceFrom old new skip s) : c ∈ s ∨ c ∈ new := by
  induction s generalizing skip with
  | nil => cases h
  | cons a s ih =>
    have hrest : ∀ {skip}, c ∈ replaceFrom old new skip s → c ∈ a :: s ∨ c ∈ new := fun h =>
      (ih h).imp_left (List.mem_cons_of_mem a)
    obtain - | skip := skip
    · rw [replaceFrom] at h
      split at h
      · obtain h | h := List.mem_append.mp h
        · exact Or.inr h
        · exact hrest h
      · obtain rfl | h := List.mem_cons.mp h
        · exact Or.inl List.mem_cons_self
        · exact hrest h
    · exact hrest h

theorem mem_replace {old new s : List α} (hold : old ≠ []) {c : α} (h : c ∈ replace old new s) :
    c ∈ s ∨ c ∈ new := by
  rw [replace, if_neg hold] at h
  exact mem_replaceFrom h

/-- **Replacing goes part by part**, as far as the parts are kept apart by a character `old` does
not have. -/
theorem replaceFrom_append_cons {sep : α} {old : List α} (hold : old ≠ []) (new : List α)
    (hsep : sep ∉ old) {skip : ℕ} {a : List α} (hskip : skip ≤ a.length) (b : List α) :
    replaceFrom old new skip (a ++ sep :: b)
      = replaceFrom old new skip a ++ sep :: replaceFrom old new 0 b := by
  induction a generalizing skip with
  | nil =>
    obtain rfl : skip = 0 := Nat.le_zero.mp hskip
    have hno : ¬old <+: sep :: b := fun hpre =>
      hold (List.prefix_nil.mp ((prefix_append_cons_iff (a := []) hsep).mp hpre))
    rw [List.nil_append]
    show (if old <+: sep :: b then _ else _) = _
    rw [if_neg hno]
    rfl
  | cons c a ih =>
    cases skip with
    | succ skip => exact ih (Nat.le_of_succ_le_succ hskip)
    | zero =>
      have hpre : old <+: c :: (a ++ sep :: b) ↔ old <+: c :: a := by
        rw [← List.cons_append]
        exact prefix_append_cons_iff hsep
      rw [List.cons_append, replaceFrom, replaceFrom]
      split
      · rename_i hstarts
        have hlen := (hpre.mp hstarts).length_le
        rw [if_pos (hpre.mp hstarts), ih (by rw [List.length_cons] at hlen; omega),
          List.append_assoc]
      · rename_i hstarts
        rw [if_neg fun h => hstarts (hpre.mpr h), ih (Nat.zero_le _), List.cons_append]

theorem replace_append_cons {sep : α} {old : List α} (hold : old ≠ []) (new : List α)
    (hsep : sep ∉ old) (a b : List α) :
    replace old new (a ++ sep :: b) = replace old new a ++ sep :: replace old new b := by
  simp only [replace, if_neg hold]
  exact replaceFrom_append_cons hold new hsep (Nat.zero_le _) b

/-! ## New text with a border on both sides -/

/-- The parts of a cut, each with the ends that the new text puts next to it: `pre` after it, `suf`
ahead of the next one. -/
def bordered (pre suf : List α) : List α → List (List α) → List (List α)
  | front, [] => [front]
  | front, [p] => [front ++ p]
  | front, p :: ps => (front ++ p ++ pre) :: bordered pre suf suf ps

omit [DecidableEq α] in
theorem bordered_ne_nil (pre suf front : List α) (ps : List (List α)) :
    bordered pre suf front ps ≠ [] := by
  obtain - | ⟨p, - | ⟨q, ps⟩⟩ := ps <;> exact List.cons_ne_nil _ _

omit [DecidableEq α] in
/-- Joined by a text with borders, or joined by its middle. -/
theorem intercalate_bordered (pre mid suf front : List α) {ps : List (List α)} (h : ps ≠ []) :
    front ++ (pre ++ mid ++ suf).intercalate ps
      = mid.intercalate (bordered pre suf front ps) := by
  induction ps generalizing front with
  | nil => exact absurd rfl h
  | cons p ps ih =>
    obtain - | ⟨q, ps⟩ := ps
    · rw [bordered, List.intercalate_singleton, List.intercalate_singleton]
    · obtain ⟨b, bs, hb⟩ := List.exists_cons_of_ne_nil (bordered_ne_nil pre suf suf (q :: ps))
      rw [List.intercalate_cons_cons, bordered, hb, List.intercalate_cons_cons, ← hb,
        ← ih suf (List.cons_ne_nil _ _)]
      simp only [List.append_assoc]
      exact fun hnil => (nomatch hnil)

/-- **What the parts of a masked text are**: those of the cut, with the ends the mask keeps. -/
def openParts (pre suf old s : List α) : List (List α) := bordered pre suf [] (cut old s)

/-- A text that keeps no ends leaves the pieces as they are. -/
theorem openParts_nil_nil (old s : List α) : openParts [] [] old s = cut old s := by
  have hbordered : ∀ {ps : List (List α)}, ps ≠ [] → bordered [] [] [] ps = ps := fun {ps} hps => by
    induction ps with
    | nil => exact absurd rfl hps
    | cons p ps ih =>
      obtain - | ⟨q, ps⟩ := ps
      · rfl
      · rw [bordered, List.nil_append, List.append_nil, ih (List.cons_ne_nil _ _)]
        exact fun h => (nomatch h)
  exact hbordered (cutFrom_ne_nil old 0 s)

theorem replace_eq_intercalate_openParts {old : List α} (hold : old ≠ []) (pre mid suf s : List α) :
    replace old (pre ++ mid ++ suf) s = mid.intercalate (openParts pre suf old s) := by
  have hcut : cut old s ≠ [] := cutFrom_ne_nil old 0 s
  rw [replace_eq_intercalate hold, openParts, ← intercalate_bordered pre mid suf [] hcut,
    List.nil_append]

/-! ## What a text shows -/

/-- A text is made of parts, with separators between them. -/
inductive Shows (sep : α) : List α → List (List α) → Prop
  | last (p : List α) : Shows sep p [p]
  | part (p : List α) {s : List α} {ps : List (List α)} :
    Shows sep s ps → Shows sep (p ++ sep :: s) (p :: ps)
  | skip {s : List α} {ps : List (List α)} : Shows sep s ps → Shows sep (sep :: s) ps

namespace Shows

variable {sep : α} {s t : List α} {ps qs : List (List α)}

omit [DecidableEq α]

/-- **What keeps clear of the separator is found in a text** where it is found in a part. -/
theorem infix_iff (h : Shows sep s ps) {x : List α} (hx : sep ∉ x) (hne : x ≠ []) :
    x <:+: s ↔ ∃ p ∈ ps, x <:+: p := by
  induction h with
  | last p => simp
  | part p _ ih => rw [infix_append_cons_iff hx, ih, List.exists_mem_cons_iff]
  | @skip s ps _ ih =>
    have hskip := infix_append_cons_iff (a := []) (b := s) hx
    rw [List.nil_append, List.infix_nil, or_iff_right hne] at hskip
    rw [hskip, ih]

theorem append (h : Shows sep s ps) (h' : Shows sep t qs) : Shows sep (s ++ sep :: t) (ps ++ qs) := by
  induction h with
  | last p => exact .part p h'
  | part p _ ih =>
    rw [List.append_assoc, List.cons_append, List.cons_append]
    exact .part p ih
  | skip _ ih => exact .skip ih

theorem skips (n : ℕ) (h : Shows sep s ps) : Shows sep (List.replicate n sep ++ s) ps := by
  induction n with
  | zero => exact h
  | succ n ih => exact .skip ih

/-- Parts joined by separators. -/
theorem intercalate (n : ℕ) (h : ps ≠ []) :
    Shows sep ((List.replicate (n + 1) sep).intercalate ps) ps := by
  induction ps with
  | nil => exact absurd rfl h
  | cons p ps ih =>
    obtain - | ⟨q, ps⟩ := ps
    · rw [List.intercalate_singleton]
      exact .last p
    · rw [List.intercalate_cons_cons, List.append_assoc, List.replicate_succ, List.cons_append]
      exact .part p (skips n (ih (List.cons_ne_nil _ _)))

variable [DecidableEq α]

/-- **Masking acts on the parts**: each is cut, and the ends the mask keeps stay with the pieces. -/
theorem replace {pre suf old : List α} (n : ℕ) (hold : old ≠ []) (hsep : sep ∉ old)
    (h : Shows sep s ps) :
    Shows sep (BareAnalysis.replace old (pre ++ List.replicate (n + 1) sep ++ suf) s)
      (ps.flatMap (openParts pre suf old)) := by
  induction h with
  | last p =>
    rw [replace_eq_intercalate_openParts hold, List.flatMap_singleton]
    exact .intercalate n (bordered_ne_nil _ _ _ _)
  | part p _ ih =>
    rw [replace_append_cons hold _ hsep, List.flatMap_cons]
    refine Shows.append ?_ ih
    rw [replace_eq_intercalate_openParts hold]
    exact .intercalate n (bordered_ne_nil _ _ _ _)
  | @skip s ps _ ih =>
    have hskip := replace_append_cons hold (pre ++ List.replicate (n + 1) sep ++ suf) hsep [] s
    rw [List.nil_append] at hskip
    rw [hskip, show BareAnalysis.replace old _ [] = ([] : List α) by
      rw [BareAnalysis.replace, if_neg hold]; rfl, List.nil_append]
    exact .skip ih

end Shows

end BareAnalysis
