import BareAnalysis.Triage.Review

/-!
# Triage/ModelAlone — whether passes of a model can open the gate

    open ──false_positive──▸ false_positive / dismissed ──error──▸ false_positive / error

A dismissal below the severity floor closes the row, and the gate reopens it because `llm_verdict`
says the model closed it.  A failed pass overwrites that verdict and leaves the status: from there on
the row reads as closed by a person.  `staysShut_iff` says this is the only way.
-/

namespace BareAnalysis

open History

/-- The gate takes the finding for actionable, whatever baseline it is measured against. -/
def GateActionable (db : Db) (policy : Policy) (runId id : String) : Prop :=
  ∀ baseline, ∃ g ∈ collectGateFindings db runId baseline, g.id = id ∧ isActionable g policy = true

/-- The finding is actionable, and a run it blocked at the start has not come to pass. -/
def StaysShut (start : Db) (policy : Policy) (runId id : String) (db : Db) : Prop :=
  GateActionable db policy runId id ∧
    ∀ waivers baselineRunId baselineFindingIds today verdict ref,
      gateRun start runId policy waivers baselineRunId baselineFindingIds today
          = .ok (verdict, ref) → verdict.BlockedBy id →
        gateDecision db runId policy waivers baselineRunId baselineFindingIds today ≠ some .pass

/-- The pass does not end in an error for a finding whose row stands dismissed. -/
def KeepsDismissal (runId id : String) (db : Db) (pass : TriagePass) : Prop :=
  pass.runId = runId → (pass.outcome id).verdict = .error →
    ∀ f, db.findings.get? (id, runId) = some f → f.status ≠ .falsePositive

section Invariant

variable {policy : Policy} {runId id : String}

theorem gateActionable_iff {db : Db} {f : Finding} (hf : db.findings.get? (id, runId) = some f) :
    GateActionable db policy runId id ↔
      f.status.isClosed = false ∨ (f.llmVerdict = some .falsePositive
        ∧ policy.trustLlmDismissals = false) := by
  have hview : ∀ baseline, isActionable (gateView db runId baseline f) policy = true ↔
      f.status.isClosed = false ∨ (f.llmVerdict = some .falsePositive
        ∧ policy.trustLlmDismissals = false) := fun baseline => by
    rw [gateView, isActionable_gateFinding]
    simp
  constructor
  · intro h
    obtain ⟨g, hg, hid, hact⟩ := h {}
    rw [eq_gateView_of_mem hf hg hid] at hact
    exact (hview _).mp hact
  · intro h baseline
    exact ⟨_, gateView_mem hf baseline, gateView_id hf baseline, (hview baseline).mpr h⟩

/-- The row is open, or closed by the model with its verdict still beside it. -/
def Finding.Unclosed (f : Finding) : Prop :=
  f.status.isClosed = false ∨ (f.status = .falsePositive ∧ f.llmVerdict = some .falsePositive)

/-- The row after any outcome but an error over a dismissal. -/
theorem Finding.Unclosed.applyVerdict {f : Finding} (h : f.Unclosed) {a : Assessment}
    (ha : a.verdict = .error → f.status ≠ .falsePositive) : (applyVerdict f a).Unclosed := by
  unfold Finding.Unclosed
  rw [applyVerdict_status, applyVerdict_llmVerdict]
  cases hv : a.verdict with
  | truePositive => exact Or.inl rfl
  | needsReview => exact Or.inl rfl
  | error => exact Or.inl (h.resolve_right fun hfp => ha hv hfp.1)
  | falsePositive =>
    by_cases hfloor : f.severity.rank ≤ severityFloor.rank
    · exact Or.inl (by rw [statusFor, if_pos hfloor]; rfl)
    · exact Or.inr ⟨if_neg hfloor, rfl⟩

/-- A pass leaves every row the same but for what triage may write. -/
theorem rejudged_step (db : Db) (pass : TriagePass) : db.Rejudged (pass.step db) where
  runs := rfl
  stages := rfl
  locations := rfl
  findings := by
    refine ⟨_, fun f => ?_, rfl⟩
    split
    · unfold applyVerdict
      split <;> exact ⟨rfl, rfl, rfl, rfl, rfl, rfl, rfl⟩
    · exact .refl f

/-- What passes keep: the row is there, unclosed, and the gate reads the rest as at the start. -/
structure StandsOpen (start : Db) (runId id : String) (db : Db) : Prop where
  rejudged : start.Rejudged db
  row : ∃ f, db.findings.get? (id, runId) = some f ∧ f.Unclosed

theorem StandsOpen.step {start db : Db} {pass : TriagePass} (h : StandsOpen start runId id db)
    (hok : KeepsDismissal runId id db pass) : StandsOpen start runId id (pass.step db) where
  rejudged := h.rejudged.trans (rejudged_step db pass)
  row := by
    obtain ⟨f, hf, hun⟩ := h.row
    rw [get?_step, hf]
    refine ⟨_, rfl, ?_⟩
    split
    · rename_i hrun
      exact hun.applyVerdict fun herr => hok hrun herr f hf
    · exact hun

/-- **A standing finding holds the gate shut.** -/
theorem StandsOpen.staysShut {start db : Db} {f : Finding}
    (hf : start.findings.get? (id, runId) = some f) (hopen : f.status = .open)
    (hp : policy.trustLlmDismissals = false) (h : StandsOpen start runId id db) :
    StaysShut start policy runId id db := by
  obtain ⟨f', hf', hun⟩ := h.row
  have hact' : f'.status.isClosed = false ∨ (f'.llmVerdict = some .falsePositive
      ∧ policy.trustLlmDismissals = false) := hun.imp_right fun hfp => ⟨hfp.2, hp⟩
  refine ⟨(gateActionable_iff hf').mpr hact', fun waivers brun bids today verdict ref hrun hblk => ?_⟩
  obtain ⟨f'', hf'', hjudged⟩ := h.rejudged.get?_eq hf
  obtain rfl : f' = f'' := Option.some.inj (hf'.symm.trans hf'')
  have hsame : ∀ baseline, isActionable (gateView db runId baseline f') policy
      = isActionable (gateView start runId baseline f) policy := fun baseline => by
    have hcl : f.status.isClosed = false := by rw [hopen]; rfl
    rw [gateView, gateView, isActionable_gateFinding, isActionable_gateFinding, hcl]
    rcases hact' with hcl' | ⟨hv, ht⟩
    · simp [hcl']
    · simp [hv, ht]
  rw [h.rejudged.gateDecision_of_blockedBy hf hf' hjudged hsame hrun hblk]
  decide

/-- An error over a dismissal closes the finding for good. -/
theorem not_staysShut_of_not_keepsDismissal {start db : Db} {pass : TriagePass}
    (hbad : ¬ KeepsDismissal runId id db pass) :
    ¬ StaysShut start policy runId id (pass.step db) := by
  unfold KeepsDismissal at hbad
  push Not at hbad
  obtain ⟨hrun, herr, f, hf, hfp⟩ := hbad
  have hrow : (pass.step db).findings.get? (id, runId)
      = some (applyVerdict f (pass.outcome id)) := by rw [get?_step, hf, Option.map_some, if_pos hrun]
  rintro ⟨hact, -⟩
  rcases (gateActionable_iff hrow).mp hact with hcl | ⟨hv, -⟩
  · rw [applyVerdict_status, herr, statusFor, hfp] at hcl
    cases hcl
  · rw [applyVerdict_llmVerdict, herr] at hv
    cases hv

end Invariant

/-- **A model alone opens the gate exactly by failing over its own dismissal**: from an open row, and
under a policy that does not trust dismissals, the finding holds the gate shut after every pass if
and only if no pass ended in an error while the row stood dismissed. -/
theorem staysShut_iff_keepsDismissal {db : Db} {policy : Policy} {runId id : String} {f : Finding}
    (hf : db.findings.get? (id, runId) = some f) (hopen : f.status = .open)
    (hp : policy.trustLlmDismissals = false) (passes : List TriagePass) :
    (∀ pre, pre <+: passes → StaysShut db policy runId id (after TriagePass.step db pre)) ↔
      Throughout TriagePass.step (KeepsDismissal runId id) db passes :=
  forall_prefix_iff_throughout (I := StandsOpen db runId id)
    (fun _ _ h hok => h.step hok) (fun _ h => h.staysShut hf hopen hp)
    (fun _ _ _ hbad => not_staysShut_of_not_keepsDismissal hbad)
    ⟨.refl db, f, hf, Or.inl (by rw [hopen]; rfl)⟩ passes

/-! ## A medium finding under a policy that blocks on medium -/

/-- One completed run with one open finding of medium severity. -/
def mediumRun : Db where
  runs := .single { id := "run", status := .completed }
  findings := .single
    { id := "finding", runId := "run", ruleId := "generic-password", category := "credential"
      title := "Password", severity := .medium, confidence := 1, valueMasked := "pa…rd"
      valueHash := "c0ffee" }

def blockOnMedium : Policy := { blockAtOrAbove := some .medium }

/-- A pass over the run in which every finding gets this verdict. -/
def passOf (verdict : LlmVerdict) : TriagePass := ⟨"run", fun _ => ⟨verdict, "", "model", 0⟩⟩

/-- Two passes that keep the row open hold the gate shut throughout. -/
theorem staysShut_iff_keepsDismissal_mediumRun :
    Throughout TriagePass.step (KeepsDismissal "run" "finding") mediumRun
        [passOf .truePositive, passOf .error] ∧
      StaysShut mediumRun blockOnMedium "run" "finding"
        (after TriagePass.step mediumRun [passOf .truePositive, passOf .error]) := by
  have hkeeps : Throughout TriagePass.step (KeepsDismissal "run" "finding") mediumRun
      [passOf .truePositive, passOf .error] :=
    ⟨fun _ h => absurd h (by decide), fun _ _ f hf => by cases hf; decide, trivial⟩
  exact ⟨hkeeps, (staysShut_iff_keepsDismissal (f := mediumRun.findings.rows.head (by decide)) rfl rfl
    rfl [passOf .truePositive, passOf .error]).mpr hkeeps _ List.prefix_rfl⟩

/-- **A dismissal and then a failed call**: the run was blocked, and two passes of the model later it
passes, though no person ever touched the finding. -/
theorem dismissal_then_error_opens_gate :
    gateDecision mediumRun "run" blockOnMedium [] none none ⟨2026, 1, 1, by decide, by decide,
        by decide⟩ = some .blocked ∧
      gateDecision (after TriagePass.step mediumRun [passOf .falsePositive, passOf .error]) "run"
        blockOnMedium [] none none ⟨2026, 1, 1, by decide, by decide, by decide⟩ = some .pass ∧
      ¬ ∀ pre, pre <+: [passOf .falsePositive, passOf .error] →
        StaysShut mediumRun blockOnMedium "run" "finding" (after TriagePass.step mediumRun pre) := by
  refine ⟨by decide +kernel, by decide +kernel, fun h => ?_⟩
  obtain ⟨g, hg, -, hact⟩ := (h _ List.prefix_rfl).1 {}
  obtain rfl := List.mem_singleton.mp hg
  revert hact
  decide

end BareAnalysis
