import BareAnalysis.Pipeline.Gate
import BareAnalysis.Policy.Decision

/-!
# Pipeline/NoResults — gating a run that stopped before it had results

`gate_run` gives a failed run one degraded stage to be judged on, and a cancelled run whatever its
stages and findings happen to say.  Both reach PASS: the first under a posture that ignores degraded
stages, the second whenever nothing was recorded against it (`refusesToPass_iff`).
-/

namespace BareAnalysis

/-- The gate does not pass the run: it raises, or its decision is another. -/
def RefusesToPass (db : Db) (runId : String) (policy : Policy) (waivers : List Waiver)
    (baselineRunId : Option String) (baselineFindingIds : Option (List String)) (today : Date) :
    Prop :=
  ∀ verdict baseline, gateRun db runId policy waivers baselineRunId baselineFindingIds today
    = .ok (verdict, baseline) → verdict.decision ≠ .pass

/-- What keeps a stopped run from passing: for a failed one the posture alone, for a cancelled one
what was recorded before it stopped. -/
def RecordedAgainst (db : Db) (run : Run) (policy : Policy) (waivers : List Waiver)
    (baselineRunId : Option String) (baselineFindingIds : Option (List String)) (today : Date) :
    Prop :=
  (run.status = .failed ∧ policy.onDegraded ≠ .pass) ∨
    (run.status = .cancelled ∧
      (HasBlocker (collectGateFindings db run.id
          (resolveBaseline db run baselineRunId baselineFindingIds)) policy waivers today ∨
        LeavesOpen policy (describeDegraded (degradedStages db run.id))))

theorem not_hasBlocker_nil (p : Policy) (waivers : List Waiver) (today : Date) :
    ¬HasBlocker [] p waivers today := by
  rintro (⟨f, hf, -⟩ | ⟨severity, hpos, -⟩)
  · cases hf
  · exact absurd hpos (Nat.lt_irrefl 0)

theorem leavesOpen_iff_of_ne_nil {p : Policy} {stages : List String} (h : stages ≠ []) :
    LeavesOpen p stages ↔ p.onDegraded ≠ .pass := by
  rw [LeavesOpen]
  rcases p.onDegraded with - | - | - <;> simp [h]

theorem decision_ne_pass_iff (fs : List GateFinding) (p : Policy) (waivers : List Waiver)
    (stages : List String) (today : Date) :
    (evaluate fs p waivers stages today).decision ≠ .pass ↔
      HasBlocker fs p waivers today ∨ LeavesOpen p stages := by
  rw [Ne, decision_eq_pass_iff, not_and_or, not_not, not_not]

section StoppedRun

variable {db : Db} {runId : String} {run : Run} (hrun : db.runs.get? runId = some run)
  (policy : Policy) (waivers : List Waiver) (baselineRunId : Option String)
  (baselineFindingIds : Option (List String)) (today : Date)

include hrun in
/-- **A run without results is kept from passing exactly by what is recorded against it.** -/
theorem refusesToPass_iff (hstatus : run.status = .failed ∨ run.status = .cancelled) :
    RefusesToPass db runId policy waivers baselineRunId baselineFindingIds today ↔
      RecordedAgainst db run policy waivers baselineRunId baselineFindingIds today := by
  have hid : run.id = runId := Table.key_of_get? hrun
  have hok : ∀ (v : GateVerdict) (ref : BaselineRef),
      gateRun db runId policy waivers baselineRunId baselineFindingIds today = .ok (v, ref) →
      (RefusesToPass db runId policy waivers baselineRunId baselineFindingIds today ↔
        v.decision ≠ .pass) := fun v ref hgate => by
    rw [RefusesToPass, hgate]
    constructor
    · exact fun h => h v ref rfl
    · rintro h _ _ heq
      cases heq
      exact h
  rcases hstatus with hfailed | hcancelled
  · have hgate : gateRun db runId policy waivers baselineRunId baselineFindingIds today
        = .ok (evaluate [] policy waivers
            ["run failed: " ++ (nonempty? run.error).getD "unknown error"] today, {}) := by
      simp only [gateRun, hrun, hfailed]
      rfl
    rw [hok _ _ hgate, decision_ne_pass_iff, leavesOpen_iff_of_ne_nil (List.cons_ne_nil _ _),
      RecordedAgainst, hfailed]
    simp [not_hasBlocker_nil]
  · have hgate : gateRun db runId policy waivers baselineRunId baselineFindingIds today
        = .ok (evaluate (collectGateFindings db runId
              (resolveBaseline db run baselineRunId baselineFindingIds)) policy waivers
            (describeDegraded (degradedStages db runId)) today,
          resolveBaseline db run baselineRunId baselineFindingIds) := by
      simp only [gateRun, hrun, hcancelled]
      rfl
    rw [hok _ _ hgate, decision_ne_pass_iff, RecordedAgainst, hcancelled, hid]
    simp

end StoppedRun

/-- A run that stopped with this status, and nothing recorded for it. -/
def stoppedRun (status : RunStatus) : Db where
  runs := .single { id := "run", status := status, error := some "worker died" }

/-- Under the shipping policy the failed run is kept from passing. -/
theorem refusesToPass_iff_stoppedRun :
    RefusesToPass (stoppedRun .failed) "run" {} [] none none
        ⟨2026, 1, 1, by decide, by decide, by decide⟩ := by
  have hrun : (stoppedRun .failed).runs.get? "run"
      = some { id := "run", status := .failed, error := some "worker died" } := rfl
  exact (refusesToPass_iff hrun {} [] none none ⟨2026, 1, 1, by decide, by decide, by decide⟩
    (Or.inl rfl)).mpr (Or.inl ⟨rfl, by decide⟩)

/-- **Two runs without results that pass**: a failed one under the posture that ignores degraded
stages, and a cancelled one under the shipping policy. -/
theorem stopped_runs_pass :
    gateDecision (stoppedRun .failed) "run" { onDegraded := .pass } [] none none
        ⟨2026, 1, 1, by decide, by decide, by decide⟩ = some .pass ∧
      gateDecision (stoppedRun .cancelled) "run" {} [] none none
        ⟨2026, 1, 1, by decide, by decide, by decide⟩ = some .pass ∧
      ¬ ∀ db run policy waivers baselineRunId baselineFindingIds today,
        db.runs.get? "run" = some run → run.status = .failed ∨ run.status = .cancelled →
        RefusesToPass db "run" policy waivers baselineRunId baselineFindingIds today := by
  refine ⟨by decide +kernel, by decide +kernel, fun h => ?_⟩
  have hrefuses := h (stoppedRun .cancelled)
    { id := "run", status := .cancelled, error := some "worker died" } {} [] none none
    ⟨2026, 1, 1, by decide, by decide, by decide⟩ rfl (Or.inr rfl)
  exact hrefuses _ _ rfl (by decide +kernel)

end BareAnalysis
