import BareAnalysis.Recon.Sweep

/-!
# Recon/Collect — the strings the inventory is made of

    file ──extract_for_recon──▸ chunk ──absorb──▸ collected, up to a cap ──▸ sweep

`run_recon` of `sandbox/images/static/analyzer.py`.  The chunks come one after the other, or from a
pool of processes that may fail at any point; then it starts over without the pool.
-/

namespace BareAnalysis.Recon

section Collect

variable {α : Type}

/-- What is collected, and whether something was left out. -/
structure Collected (α : Type) where
  strings : List α := []
  truncated : Bool := false
  deriving DecidableEq

/-- `absorb`: take what fits; nothing more is to be taken once the cap is reached. -/
def absorb (cap : ℕ) (c : Collected α) (chunk : List α) : Collected α × Bool :=
  let room : ℤ := cap - c.strings.length
  if room ≤ 0 then ({ c with truncated := true }, false)
  else if room < chunk.length then
    ({ strings := c.strings ++ chunk.take room.toNat, truncated := true }, false)
  else ({ c with strings := c.strings ++ chunk }, true)

/-- The loop over the files. -/
def sequential (cap : ℕ) : Collected α → List (List α) → Collected α
  | c, [] => c
  | c, chunk :: chunks =>
    match absorb cap c chunk with
    | (c, true) => sequential cap c chunks
    | (c, false) => c

/-- How a pool of processes behaves: it fails when it is asked for a chunk, or when it is left. -/
structure Pool where
  failsAt : Option ℕ := none
  failsOnExit : Bool := false

/-- The loop over the chunks of a pool, of which some were taken before; nothing if the pool
fails. -/
def parallel (cap : ℕ) (pool : Pool) : ℕ → Collected α → List (List α) → Option (Collected α)
  | taken, c, chunks =>
    if pool.failsAt = some taken then none
    else match chunks with
      | [] => if pool.failsOnExit then none else some c
      | chunk :: chunks =>
        match absorb cap c chunk with
        | (c, true) => parallel cap pool (taken + 1) c chunks
        | (c, false) => if pool.failsOnExit then none else some c

/-- The strings `run_recon` hands to `sweep`. -/
def collect (cap : ℕ) (workers : ℤ) (pool : Pool) (chunks : List (List α)) : Collected α :=
  if workers ≤ 1 then sequential cap {} chunks
  else match parallel cap pool 0 {} chunks with
    | some c => c
    | none => sequential cap {} chunks

end Collect

/-- `run_recon`, given what is extracted from each file. -/
def runRecon (search : String → String → Option String) (cap : ℕ) (workers : ℤ) (pool : Pool)
    (chunks : List (List Extracted)) : ReconInventory :=
  let c := collect cap workers pool chunks
  { sweep search c.strings defaultPerCategory with truncated := c.truncated }

/-! ## What is collected -/

section Loop

variable {α : Type} {cap : ℕ} {c : Collected α} {chunk : List α} {chunks : List (List α)}

/-- **The pool that does not fail does what the loop does.** -/
theorem parallel_eq {pool : Pool} {taken : ℕ} {c' : Collected α}
    (h : parallel cap pool taken c chunks = some c') : c' = sequential cap c chunks := by
  induction chunks generalizing taken c with
  | nil =>
    rw [parallel] at h
    split at h
    · cases h
    · split at h
      · cases h
      · exact (Option.some.inj h).symm
  | cons chunk chunks ih =>
    rw [parallel] at h
    split at h
    · cases h
    · rw [sequential]
      split at h
      · exact ih h
      · split at h
        · cases h
        · exact (Option.some.inj h).symm

/-- Parallel and sequential runs collect the same. -/
theorem collect_eq_sequential (cap : ℕ) (workers : ℤ) (pool : Pool) (chunks : List (List α)) :
    collect cap workers pool chunks = sequential cap {} chunks := by
  rw [collect]
  split
  · rfl
  · split
    · rename_i c hc
      exact parallel_eq hc
    · rfl

/-- **What `absorb` can do**: take the chunk, or stop at the cap. -/
theorem absorb_eq (h : c.strings.length ≤ cap) : absorb cap c chunk =
    if c.strings.length = cap ∨ cap < (c.strings ++ chunk).length then
      (⟨(c.strings ++ chunk).take cap, true⟩, false)
    else (⟨c.strings ++ chunk, c.truncated⟩, true) := by
  rw [absorb, List.length_append]
  by_cases hfull : c.strings.length = cap
  · have hroom : (cap : ℤ) - c.strings.length ≤ 0 := by omega
    rw [if_pos hroom, if_pos (Or.inl hfull), ← hfull, List.take_left]
  · have hroom : ¬(cap : ℤ) - c.strings.length ≤ 0 := by omega
    have hnat : ((cap : ℤ) - c.strings.length).toNat = cap - c.strings.length := by omega
    rw [if_neg hroom]
    by_cases hover : cap < c.strings.length + chunk.length
    · have hchunk : (cap : ℤ) - c.strings.length < chunk.length := by omega
      rw [if_pos hchunk, if_pos (Or.inr hover), List.take_append, List.take_of_length_le h, hnat]
    · have hchunk : ¬(cap : ℤ) - c.strings.length < chunk.length := by omega
      rw [if_neg hchunk, if_neg (not_or.mpr ⟨hfull, hover⟩)]

/-- **The loop collects the first strings**… -/
theorem strings_sequential (h : c.strings.length ≤ cap) :
    (sequential cap c chunks).strings = (c.strings ++ chunks.flatten).take cap := by
  induction chunks generalizing c with
  | nil => rw [sequential, List.flatten_nil, List.append_nil, List.take_of_length_le h]
  | cons chunk chunks ih =>
    rw [sequential, absorb_eq h, List.flatten_cons, ← List.append_assoc]
    by_cases hstop : c.strings.length = cap ∨ cap < (c.strings ++ chunk).length
    · have hlen : cap ≤ (c.strings ++ chunk).length := by
        rw [List.length_append] at hstop ⊢
        omega
      rw [if_pos hstop]
      exact (List.take_append_of_le_length hlen).symm
    · rw [if_neg hstop]
      exact ih (not_lt.mp (not_or.mp hstop).2)

/-- …and takes the cap for passed also when empty chunks follow it. -/
theorem truncated_sequential (h : c.strings.length ≤ cap) :
    (sequential cap c chunks).truncated = true ↔ c.truncated = true ∨
      cap < (c.strings ++ chunks.flatten).length ∨
      (c.strings ++ chunks.flatten).length = cap ∧ chunks.getLast? = some [] := by
  induction chunks generalizing c with
  | nil => simp [sequential, h]
  | cons chunk chunks ih =>
    rw [sequential, absorb_eq h, List.flatten_cons, ← List.append_assoc]
    by_cases hstop : c.strings.length = cap ∨ cap < (c.strings ++ chunk).length
    · rw [if_pos hstop]
      refine iff_of_true rfl (Or.inr ?_)
      rw [List.length_append, List.length_append] at *
      by_cases hover : cap < c.strings.length + chunk.length + chunks.flatten.length
      · exact Or.inl hover
      · have hnil : (chunk :: chunks).flatten = [] := by
          rw [← List.length_eq_zero_iff, List.flatten_cons, List.length_append]
          omega
        have hlast : (chunk :: chunks).getLast? = some [] := by
          rw [List.getLast?_eq_some_getLast (List.cons_ne_nil _ _)]
          exact congrArg some (List.flatten_eq_nil_iff.mp hnil _ (List.getLast_mem _))
        rw [List.flatten_cons, List.append_eq_nil_iff] at hnil
        refine Or.inr ⟨?_, hlast⟩
        have hchunk : chunk.length = 0 := by rw [hnil.1, List.length_nil]
        have hrest : chunks.flatten.length = 0 := by rw [hnil.2, List.length_nil]
        omega
    · rw [if_neg hstop]
      obtain ⟨hfull, hroom⟩ := not_or.mp hstop
      refine (ih (not_lt.mp hroom)).trans (or_congr_right (or_congr_right ?_))
      refine and_congr_right fun htotal => ?_
      cases chunks with
      | nil =>
        refine iff_of_false nofun fun hlast => hfull ?_
        have hchunk : chunk = [] := Option.some.inj hlast
        simpa [hchunk] using htotal
      | cons next chunks => rw [List.getLast?_cons_cons]

end Loop

/-! ## Parallel is sequential -/

/-- Every string is collected up to the cap, and it is said if one was left out. -/
structure CollectsFirst (search : String → String → Option String) (cap : ℕ) (workers : ℤ)
    (pool : Pool) (chunks : List (List Extracted)) : Prop where
  inventory : ∃ truncated, runRecon search cap workers pool chunks
    = { sweep search (chunks.flatten.take cap) defaultPerCategory with truncated }
  truncated : (runRecon search cap workers pool chunks).truncated = true ↔
    cap < chunks.flatten.length

/-- **When `run_recon` says what it left out**: not when the files end at the cap and the last one
holds no string. -/
theorem collectsFirst_iff (search : String → String → Option String) (cap : ℕ) (workers : ℤ)
    (pool : Pool) (chunks : List (List Extracted)) :
    CollectsFirst search cap workers pool chunks ↔
      ¬(chunks.flatten.length = cap ∧ chunks.getLast? = some []) := by
  have hstrings : (collect cap workers pool chunks).strings = chunks.flatten.take cap := by
    rw [collect_eq_sequential]
    exact strings_sequential (Nat.zero_le _)
  have htruncated : (runRecon search cap workers pool chunks).truncated = true ↔
      cap < chunks.flatten.length ∨
        chunks.flatten.length = cap ∧ chunks.getLast? = some [] := by
    change (collect cap workers pool chunks).truncated = true ↔ _
    rw [collect_eq_sequential, truncated_sequential (Nat.zero_le _)]
    exact or_iff_right Bool.false_ne_true
  constructor
  · intro h hlast
    have hcap := h.truncated.mp (htruncated.mpr (Or.inr hlast))
    omega
  · intro h
    refine ⟨⟨(collect cap workers pool chunks).truncated, ?_⟩, htruncated.trans (or_iff_left h)⟩
    rw [runRecon, hstrings]

/-- **Nothing was left out, and the inventory is said to be partial.** -/
theorem truncated_without_loss :
    ¬CollectsFirst (fun _ _ => none) 1 1 {} [[⟨⟨"a.bin", 0, "ascii"⟩, "one"⟩], []] := by
  intro h
  have htruncated := h.truncated.mp (by decide)
  exact absurd htruncated (by decide)

end BareAnalysis.Recon
