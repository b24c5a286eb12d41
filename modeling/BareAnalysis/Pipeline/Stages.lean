import BareAnalysis.Foundations.Session
import BareAnalysis.Machinery.Sorting

/-!
# Pipeline/Stages — which analyzer stages did not finish

`core/pipeline/stages.py`.  One definition, read by the pipeline for the run's status and by the
gate for its verdict.
-/

namespace BareAnalysis

/-- `ENRICHMENT_ANALYZERS`: their failure does not make a scan incomplete. -/
def enrichmentAnalyzers : List String := ["ghidra"]

/-- The stage leaves the scan incomplete. -/
def RunStage.leavesIncomplete (s : RunStage) : Bool :=
  s.status.isDegraded && !enrichmentAnalyzers.contains s.analyzer

/-- `degraded_stages`, sorted by analyzer. -/
def degradedStages (db : Db) (runId : String) : List RunStage :=
  sortBy RunStage.analyzer ((db.stagesOf runId).filter RunStage.leavesIncomplete)

/-- `describe_degraded`: `static (failed)`. -/
def describeDegraded (stages : List RunStage) : List String :=
  stages.map fun s => s.analyzer ++ " (" ++ s.status.value ++ ")"

theorem mem_degradedStages {db : Db} {runId : String} {s : RunStage} :
    s ∈ degradedStages db runId ↔ s ∈ db.stagesOf runId ∧ s.leavesIncomplete = true := by
  simp [degradedStages]

theorem degradedStages_eq_nil {db : Db} {runId : String} :
    degradedStages db runId = [] ↔ ∀ s ∈ db.stagesOf runId, s.leavesIncomplete = false := by
  rw [List.eq_nil_iff_forall_not_mem]
  simp [mem_degradedStages]

theorem describeDegraded_eq_nil {stages : List RunStage} :
    describeDegraded stages = [] ↔ stages = [] := by
  simp [describeDegraded]

end BareAnalysis
