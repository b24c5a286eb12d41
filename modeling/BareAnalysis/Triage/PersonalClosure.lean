import BareAnalysis.Triage.Review

/-!
# Triage/PersonalClosure — whether a person's closure is respected

    patch fixed ──▸ fixed ──triage──▸ confirmed          the pass overwrites the person
    triage fp ──▸ fp / dismissed ──patch fp──▸ fp / dismissed    the gate credits the model

The database keeps no record of who set a status.  `Watched` adds one that the program does not have:
the last status a person set on the finding.  Against it, `closureRespected_iff` says on which
histories the program's inference is right.
-/

namespace BareAnalysis

open History

/-- The database, beside the last status a person set on one finding. -/
structure Watched where
  db : Db
  personal : Option FindingStatus := none

/-- An act, with the watched finding's record kept up to date. -/
def Watched.step (runId id : String) (w : Watched) (act : ReviewAct) : Watched where
  db := act.step w.db
  personal := (act.sets w.db runId id).or w.personal

/-- The record only watches: the databases are those of the plain history. -/
theorem Watched.after_db (runId id : String) (w : Watched) (acts : List ReviewAct) :
    (after (Watched.step runId id) w acts).db = after ReviewAct.step w.db acts := by
  have h : (after (Watched.step runId id) w acts).db
      = after ReviewAct.step w.db (acts.filterMap some) :=
    after_filterMap Watched.db some (fun w a b h => by cases h; rfl) (fun w a h => by cases h) w acts
  rwa [List.filterMap_some] at h

/-- The status of a person's closure, while it is the last word of a person on the finding. -/
def Watched.closedAs (w : Watched) (s : FindingStatus) : Prop :=
  w.personal = some s ∧ s.isClosed = true

/-- **A person's closure is respected**: the row still has the status, and the gate, under every
policy and against every baseline, does not take the finding for actionable. -/
def ClosureRespected (runId id : String) (w : Watched) : Prop :=
  ∀ s, w.closedAs s → (∃ f, w.db.findings.get? (id, runId) = some f ∧ f.status = s) ∧
    ∀ policy baseline, ∀ g ∈ collectGateFindings w.db runId baseline,
      g.id = id → isActionable g policy = false

/-- The act lets a person's closure of the finding stand: a pass ends in an error for it while it is
closed by a person, and a person closes it only while the model's verdict is no dismissal. -/
def HonoursClosure (runId id : String) (w : Watched) : ReviewAct → Prop
  | .triage pass =>
    pass.runId = runId → (∃ s, w.closedAs s) → (pass.outcome id).verdict = .error
  | .patch r i request =>
    ∀ s, (ReviewAct.patch r i request).sets w.db runId id = some s → s.isClosed = true →
      ∀ f, w.db.findings.get? (id, runId) = some f → f.llmVerdict ≠ some .falsePositive

section Invariant

variable {runId id : String} {w : Watched}

/-- What acts keep: a person's closure stands on the row, and no dismissal beside it. -/
def ClosureStands (runId id : String) (w : Watched) : Prop :=
  ∃ f, w.db.findings.get? (id, runId) = some f ∧
    ∀ s, w.closedAs s → f.status = s ∧ f.llmVerdict ≠ some .falsePositive

theorem ClosureStands.respected (h : ClosureStands runId id w) : ClosureRespected runId id w := by
  obtain ⟨f, hf, hstands⟩ := h
  intro s hs
  obtain ⟨hstatus, hverdict⟩ := hstands s hs
  refine ⟨⟨f, hf, hstatus⟩, fun policy baseline g hg hid => ?_⟩
  rw [eq_gateView_of_mem hf hg hid, gateView, isActionable_gateFinding, hstatus, hs.2]
  simpa using fun h => absurd h hverdict

theorem step_triage_row {f : Finding} (hf : w.db.findings.get? (id, runId) = some f)
    (pass : TriagePass) :
    (w.step runId id (.triage pass)).db.findings.get? (id, runId)
      = some (if pass.runId = runId then applyVerdict f (pass.outcome id) else f) := by
  rw [Watched.step, ReviewAct.step, get?_step, hf, Option.map_some]

theorem closedAs_step_triage {pass : TriagePass} {s : FindingStatus} :
    (w.step runId id (.triage pass)).closedAs s ↔ w.closedAs s := Iff.rfl

theorem ClosureStands.step {act : ReviewAct} (h : ClosureStands runId id w)
    (hok : HonoursClosure runId id w act) : ClosureStands runId id (w.step runId id act) := by
  obtain ⟨f, hf, hstands⟩ := h
  cases act with
  | triage pass =>
    refine ⟨_, step_triage_row hf pass, fun s hs => ?_⟩
    have hs : w.closedAs s := hs
    split
    · rename_i hrun
      have herr := hok hrun ⟨s, hs⟩
      rw [applyVerdict_status, applyVerdict_llmVerdict, herr]
      exact ⟨(hstands s hs).1, by decide⟩
    · exact hstands s hs
  | patch r i request =>
    refine ⟨_, get?_step_patch hf r i request, fun s hs => ?_⟩
    obtain ⟨hpersonal, hclosed⟩ := hs
    cases hset : (ReviewAct.patch r i request).sets w.db runId id with
    | none =>
      have : w.closedAs s := ⟨by simpa [Watched.step, hset] using hpersonal, hclosed⟩
      exact hstands s this
    | some s' =>
      obtain rfl : s' = s := by simpa [Watched.step, hset] using hpersonal
      exact ⟨rfl, hok s' hset hclosed f hf⟩

/-- A dismissal beside a closed row reopens it under a policy that does not trust dismissals. -/
theorem not_respected_of_dismissed {f : Finding}
    (hf : w.db.findings.get? (id, runId) = some f) (hv : f.llmVerdict = some .falsePositive)
    {s : FindingStatus} (hs : w.closedAs s) : ¬ ClosureRespected runId id w := by
  intro h
  have hact := (h s hs).2 {} {} _ (gateView_mem hf {}) (gateView_id hf {})
  rw [gateView, isActionable_gateFinding, hv] at hact
  simp at hact

/-- **An act that does not honour a closure breaks it on the spot.** -/
theorem not_respected_step {act : ReviewAct} (h : ClosureStands runId id w)
    (hbad : ¬ HonoursClosure runId id w act) :
    ¬ ClosureRespected runId id (w.step runId id act) := by
  obtain ⟨f, hf, hstands⟩ := h
  cases act with
  | triage pass =>
    unfold HonoursClosure at hbad
    push Not at hbad
    obtain ⟨hrun, ⟨s, hs⟩, hne⟩ := hbad
    have hrow := step_triage_row hf pass
    rw [if_pos hrun] at hrow
    by_cases hfp : (pass.outcome id).verdict = .falsePositive
    · exact not_respected_of_dismissed hrow (by rw [applyVerdict_llmVerdict, hfp])
        (closedAs_step_triage.mpr hs)
    · -- any verdict but these two leaves an open status
      intro hresp
      obtain ⟨f', hf', hstatus⟩ := (hresp s (closedAs_step_triage.mpr hs)).1
      obtain rfl := Option.some.inj (hrow.symm.trans hf')
      have hclosed := hs.2
      rw [← hstatus, applyVerdict_status] at hclosed
      cases hv : (pass.outcome id).verdict with
      | error => exact hne hv
      | falsePositive => exact hfp hv
      | truePositive => rw [hv] at hclosed; cases hclosed
      | needsReview => rw [hv] at hclosed; cases hclosed
  | patch r i request =>
    unfold HonoursClosure at hbad
    push Not at hbad
    obtain ⟨s, hset, hclosed, f', hf', hv⟩ := hbad
    have hrow := get?_step_patch hf' r i request
    rw [hset] at hrow
    exact not_respected_of_dismissed (w := w.step runId id (.patch r i request)) hrow hv
      ⟨by rw [Watched.step, hset]; rfl, hclosed⟩

end Invariant

/-- **A person's closure is respected exactly on the histories that honour it**: in every state
reached the closure stands and the gate leaves the finding alone, if and only if every pass over a
finding closed by a person ended in an error, and no person closed it over a model's dismissal. -/
theorem closureRespected_iff_honoursClosure {db : Db} {runId id : String} {f : Finding}
    (hf : db.findings.get? (id, runId) = some f) (acts : List ReviewAct) :
    (∀ pre, pre <+: acts → ClosureRespected runId id (after (Watched.step runId id) ⟨db, none⟩ pre)) ↔
      Throughout (Watched.step runId id) (HonoursClosure runId id) ⟨db, none⟩ acts :=
  forall_prefix_iff_throughout (I := ClosureStands runId id)
    (fun _ _ h hok => h.step hok) (fun _ h => h.respected)
    (fun _ _ h hbad => not_respected_step h hbad)
    ⟨f, hf, fun _ hs => by cases hs.1⟩ acts

/-! ## One finding, a person and a model -/

/-- A run with one open finding of low severity. -/
def lowRun : Db where
  runs := .single { id := "run", status := .completed }
  findings := .single
    { id := "finding", runId := "run", ruleId := "internal-hostname", category := "disclosure"
      title := "Host name", severity := .low, confidence := 1, valueMasked := "bu…al"
      valueHash := "c0ffee" }

/-- A person closes the finding as this status. -/
def closeAs (s : FindingStatus) : ReviewAct := .patch "run" "finding" { status := some s.value }

/-- Every finding of the run gets this verdict. -/
def judgeAs (verdict : LlmVerdict) : ReviewAct := .triage ⟨"run", fun _ => ⟨verdict, "", "model", 0⟩⟩

/-- A closure over a finding the model confirmed stands through a failed pass. -/
theorem closureRespected_iff_honoursClosure_lowRun :
    Throughout (Watched.step "run" "finding") (HonoursClosure "run" "finding") ⟨lowRun, none⟩
        [judgeAs .truePositive, closeAs .fixed, judgeAs .error] ∧
      ClosureRespected "run" "finding" (after (Watched.step "run" "finding") ⟨lowRun, none⟩
        [judgeAs .truePositive, closeAs .fixed, judgeAs .error]) := by
  have hhonours : Throughout (Watched.step "run" "finding") (HonoursClosure "run" "finding")
      ⟨lowRun, none⟩ [judgeAs .truePositive, closeAs .fixed, judgeAs .error] := by
    refine ⟨?_, ?_, ?_, trivial⟩
    · rintro - ⟨s, hs, -⟩
      cases hs
    · rintro s - - f hf
      cases hf
      decide
    · rintro - -
      rfl
  exact ⟨hhonours, (closureRespected_iff_honoursClosure (f := lowRun.findings.rows.head (by decide))
    rfl [judgeAs .truePositive, closeAs .fixed, judgeAs .error]).mpr hhonours _ List.prefix_rfl⟩

/-- **Two ways to undo a person**: a later pass reopens what a person fixed, and the gate reopens
what a person closed after the model had dismissed it. -/
theorem persons_closure_undone :
    (¬ ClosureRespected "run" "finding"
      (after (Watched.step "run" "finding") ⟨lowRun, none⟩ [closeAs .fixed, judgeAs .truePositive])) ∧
    ¬ ClosureRespected "run" "finding" (after (Watched.step "run" "finding") ⟨lowRun, none⟩
      [judgeAs .falsePositive, closeAs .falsePositive]) := by
  constructor
  · intro h
    obtain ⟨f, hf, hstatus⟩ := (h .fixed ⟨by decide, rfl⟩).1
    cases hf
    revert hstatus
    decide
  · intro h
    have hact := (h .falsePositive ⟨by decide, rfl⟩).2 {} {} _ List.mem_cons_self (by decide)
    revert hact
    decide

end BareAnalysis
