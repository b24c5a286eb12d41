import BareAnalysis.Enrichment.Deliveries
import BareAnalysis.Pipeline.Gate

/-!
# Api/Record — what the release record says did not finish

    stage rows ──degradedStages──▸ run status, gate
        │
        └──written out again──▸ the printed record

`get_pdf_report` of `api/routers/gate.py` against `core/pipeline/stages.py`.  Rows of enrichment
analyzers come after the run's status is set, and the one definition leaves them out.
-/

namespace BareAnalysis

open History

/-- The stage is of an analyzer that neither creates nor removes findings. -/
def RunStage.isEnrichment (s : RunStage) : Bool := enrichmentAnalyzers.contains s.analyzer

/-- `static (failed)`. -/
def RunStage.described (s : RunStage) : String := s.analyzer ++ " (" ++ s.status.value ++ ")"

/-- The `degraded_stages` of the record. -/
def recordStages (db : Db) (runId : String) : List String :=
  sortBy id (((db.stagesOf runId).filter fun s => s.status.isDegraded).map RunStage.described)

/-- **The run, the gate and the record agree** on what did not finish. -/
structure RecordsAgree (db : Db) (runId : String) : Prop where
  /-- Whatever the policy, the verdict names the stages of the record… -/
  stages : ∀ policy waivers baselineRunId ids today verdict ref,
    gateRun db runId policy waivers baselineRunId ids today = .ok (verdict, ref) →
      ∀ text, text ∈ verdict.degradedStages ↔ text ∈ recordStages db runId
  /-- …and the run is degraded when there are any. -/
  status : ∀ run, db.runs.get? runId = some run →
    (run.status = .degraded ↔ recordStages db runId ≠ [])

/-! ## A description tells the stage -/

theorem eq_of_suffix_value (s t : StageStatus)
    (h : (" (" ++ s.value ++ ")").toList <:+ (" (" ++ t.value ++ ")").toList) : s = t := by
  cases s <;> cases t <;> first | rfl | exact absurd h (by decide)

/-- No status ends in another, so a description is read from its end. -/
theorem analyzer_of_described {s t : RunStage} (h : s.described = t.described) :
    s.analyzer = t.analyzer := by
  have hlist := congrArg String.toList h
  simp only [RunStage.described, String.append_assoc, String.toList_append] at hlist
  have hstatus : s.status = t.status := by
    have hs := List.suffix_append s.analyzer.toList (" (" ++ s.status.value ++ ")").toList
    have ht := List.suffix_append t.analyzer.toList (" (" ++ t.status.value ++ ")").toList
    simp only [String.append_assoc, String.toList_append] at hs ht
    rw [hlist] at hs
    obtain hsuffix | hsuffix := List.suffix_or_suffix_of_suffix hs ht
    · exact eq_of_suffix_value _ _ (by simpa only [String.append_assoc, String.toList_append])
    · exact (eq_of_suffix_value _ _
        (by simpa only [String.append_assoc, String.toList_append])).symm
  rw [hstatus] at hlist
  exact String.toList_inj.mp (List.append_cancel_right hlist)

/-! ## The status of a run that ran through -/

/-- The status is what `run_scan` makes of the stages. -/
def StatusByRule (db : Db) (runId : String) : Prop :=
  ∃ run, db.runs.get? runId = some run ∧
    run.status = if degradedStages db runId = [] then .completed else .degraded

section Rule

variable {db db' : Db} {runId : String}

theorem mem_recordStages {text : String} :
    text ∈ recordStages db runId ↔
      ∃ s ∈ db.stagesOf runId, s.status.isDegraded = true ∧ s.described = text := by
  simp only [recordStages, mem_sortBy, List.mem_map, List.mem_filter, and_assoc]

theorem mem_describeDegraded {text : String} :
    text ∈ describeDegraded (degradedStages db runId) ↔ ∃ s ∈ db.stagesOf runId,
      s.status.isDegraded = true ∧ s.isEnrichment = false ∧ s.described = text := by
  simp only [describeDegraded, List.mem_map, mem_degradedStages, RunStage.leavesIncomplete,
    Bool.and_eq_true, Bool.not_eq_true', RunStage.isEnrichment, RunStage.described, and_assoc]

theorem degradedStages_congr (h : ∀ s : RunStage, s.isEnrichment = false →
    (s ∈ db'.stagesOf runId ↔ s ∈ db.stagesOf runId)) :
    degradedStages db' runId = [] ↔ degradedStages db runId = [] := by
  have hleaves : ∀ s : RunStage, s.leavesIncomplete = true → s.isEnrichment = false := by
    intro s hs
    rw [RunStage.leavesIncomplete, Bool.and_eq_true, Bool.not_eq_true'] at hs
    exact hs.2
  simp only [degradedStages_eq_nil]
  constructor
  · intro hnone s hs
    by_contra hbad
    have hbad := Bool.eq_true_of_not_eq_false hbad
    exact absurd (hnone s ((h s (hleaves s hbad)).mpr hs)) (by rw [hbad]; decide)
  · intro hnone s hs
    by_contra hbad
    have hbad := Bool.eq_true_of_not_eq_false hbad
    exact absurd (hnone s ((h s (hleaves s hbad)).mp hs)) (by rw [hbad]; decide)

theorem statusByRule_conclude {run : Run} (hrun : db.runs.get? runId = some run) (moment : ℕ) :
    StatusByRule (conclude db runId moment) runId := by
  refine ⟨run.concluded (degradedStages db runId) moment, ?_, Run.concluded_status ..⟩
  rw [conclude, Db.get?_writeRun, if_pos rfl, hrun, Option.map_some]

/-- A delivery adds no row but its own. -/
theorem mem_stagesOf_enrichRun {lib : Enricher} {d : Delivery} {s : RunStage}
    (hs : s.isEnrichment = false) :
    s ∈ (enrichRun lib runId db d).db.stagesOf runId ↔ s ∈ db.stagesOf runId := by
  rw [enrichRun]
  split
  · rfl
  · split
    · rfl
    · split
      · rfl
      · split
        · rfl
        · rename_i opened hinsert
          obtain ⟨stages, rfl, hrows⟩ := insertStage_eq_some hinsert
          obtain ⟨t, hrows', hsame, -⟩ :=
            @closes_startStage lib { db with stages } _ (ghidraStage db runId d) d hrows
          rw [Db.mem_stagesOf, Db.mem_stagesOf, hrows', List.mem_append, List.mem_singleton,
            or_iff_left]
          rintro rfl
          rw [RunStage.isEnrichment, hsame.analyzer] at hs
          exact absurd hs (show ¬enrichmentAnalyzers.contains ghidra = false by decide)

/-- **Enrichment does not change what the rule says.** -/
theorem StatusByRule.enrichRun (h : StatusByRule db runId) (lib : Enricher) (d : Delivery) :
    StatusByRule (enrichRun lib runId db d).db runId := by
  obtain ⟨run, hrun, hstatus⟩ := h
  refine ⟨run, by rw [(untouched_enrichRun runId db d).runs, hrun], ?_⟩
  rw [hstatus]
  exact if_congr (degradedStages_congr fun s hs => mem_stagesOf_enrichRun hs).symm rfl rfl

/-- The gate of a run whose status is by the rule names the stages the rule counts. -/
theorem mem_degradedStages_of_gateRun (h : StatusByRule db runId) {policy : Policy}
    {waivers : List Waiver} {baselineRunId : Option String} {ids : Option (List String)}
    {today : Date} {verdict : GateVerdict} {ref : BaselineRef}
    (hgate : gateRun db runId policy waivers baselineRunId ids today = .ok (verdict, ref))
    (text : String) :
    text ∈ verdict.degradedStages ↔ text ∈ describeDegraded (degradedStages db runId) := by
  obtain ⟨run, hrun, hstatus⟩ := h
  have hterminal : run.status.isTerminal = true ∧ run.status ≠ .failed := by
    rw [hstatus]
    split <;> decide
  rw [gateRun, hrun] at hgate
  dsimp only at hgate
  rw [if_neg (by rw [hterminal.1]; decide), if_neg hterminal.2] at hgate
  cases hgate
  exact (mem_sortBy ..).trans List.mem_dedup

theorem exists_gateRun (h : StatusByRule db runId) (today : Date) :
    ∃ verdict ref, gateRun db runId {} [] none none today = .ok (verdict, ref) := by
  obtain ⟨run, hrun, hstatus⟩ := h
  have hterminal : run.status.isTerminal = true ∧ run.status ≠ .failed := by
    rw [hstatus]
    split <;> decide
  rw [gateRun, hrun]
  dsimp only
  rw [if_neg (by rw [hterminal.1]; decide), if_neg hterminal.2]
  exact ⟨_, _, rfl⟩

/-- Where the rule gave the status, the three agree unless an enrichment stage is degraded. -/
theorem StatusByRule.agree_iff (h : StatusByRule db runId) :
    RecordsAgree db runId ↔
      ∀ s ∈ db.stagesOf runId, s.isEnrichment = true → s.status.isDegraded = false := by
  constructor
  · intro hagree s hs henrichment
    by_contra hbad
    have hbad := Bool.eq_true_of_not_eq_false hbad
    obtain ⟨verdict, ref, hgate⟩ := exists_gateRun h { year := 2026, month := 1, day := 1 }
    have hrecord : s.described ∈ recordStages db runId := mem_recordStages.mpr ⟨s, hs, hbad, rfl⟩
    rw [← hagree.stages _ _ _ _ _ _ _ hgate, mem_degradedStages_of_gateRun h hgate,
      mem_describeDegraded] at hrecord
    obtain ⟨t, -, -, hplain, hsame⟩ := hrecord
    rw [RunStage.isEnrichment, analyzer_of_described hsame] at hplain
    exact absurd (henrichment.symm.trans hplain) (by decide)
  · intro hnone
    have hsame : ∀ text,
        text ∈ describeDegraded (degradedStages db runId) ↔ text ∈ recordStages db runId := by
      intro text
      rw [mem_describeDegraded, mem_recordStages]
      constructor
      · rintro ⟨s, hs, hbad, -, htext⟩
        exact ⟨s, hs, hbad, htext⟩
      · rintro ⟨s, hs, hbad, htext⟩
        refine ⟨s, hs, hbad, Bool.eq_false_iff.mpr fun henrichment => ?_, htext⟩
        exact absurd (hnone s hs henrichment) (by rw [hbad]; decide)
    refine ⟨fun _ _ _ _ _ _ _ hgate text => ?_, fun run' hrun' => ?_⟩
    · rw [mem_degradedStages_of_gateRun h hgate, hsame]
    · obtain ⟨run, hrun, hstatus⟩ := h
      obtain rfl := Option.some_inj.mp (hrun.symm.trans hrun')
      have hnil : recordStages db runId = [] ↔ degradedStages db runId = [] := by
        rw [← describeDegraded_eq_nil, List.eq_nil_iff_forall_not_mem,
          List.eq_nil_iff_forall_not_mem]
        exact forall_congr' fun text => not_congr (hsame text).symm
      rw [hstatus, Ne, hnil]
      by_cases hstages : degradedStages db runId = []
      · rw [if_pos hstages]
        exact iff_of_false (by decide) (not_not_intro hstages)
      · rw [if_neg hstages]
        exact iff_of_true rfl hstages

/-- **After a scan that ran through and any deliveries**, the run, the gate and the record agree
exactly when no enrichment stage is degraded. -/
theorem recordsAgree_iff {run : Run} (hrun : db.runs.get? runId = some run) (moment : ℕ)
    (lib : Enricher) (deliveries : List Delivery) :
    let later := after (fun db d => (enrichRun lib runId db d).db) (conclude db runId moment)
      deliveries
    RecordsAgree later runId ↔
      ∀ s ∈ later.stagesOf runId, s.isEnrichment = true → s.status.isDegraded = false := by
  have hrule : ∀ db, StatusByRule db runId → StatusByRule
      (after (fun db d => (enrichRun lib runId db d).db) db deliveries) runId := by
    induction deliveries with
    | nil => exact fun _ h => h
    | cons d deliveries ih => exact fun db h => ih _ (h.enrichRun lib d)
  exact (hrule _ (statusByRule_conclude hrun moment)).agree_iff

end Rule

/-! ## Ghidra could not start -/

/-- A scan of one executable that is about to conclude. -/
def brokerScanned : Db :=
  { brokerScan with
    runs := Table.single { id := "run", status := .running }
    stages := Table.single
      { id := "s0", runId := "run", artifactId := some "root", analyzer := "static",
        status := .completed } }

theorem recordsAgree_broker :
    RecordsAgree (after (fun db d => (enrichRun asciiEnricher "run" db d).db)
      (conclude brokerScanned "run" 5) [deliveryOf "s1" (.parsed (.obj []))]) "run" :=
  (@recordsAgree_iff brokerScanned "run" _ rfl 5 asciiEnricher
    [deliveryOf "s1" (.parsed (.obj []))]).mpr (by decide +kernel)

/-- The record of a completed run names a stage. -/
theorem record_names_ghidra :
    ¬∀ (db : Db) (runId : String) (run : Run) (moment : ℕ) (lib : Enricher)
      (deliveries : List Delivery), db.runs.get? runId = some run →
        RecordsAgree (after (fun db d => (enrichRun lib runId db d).db) (conclude db runId moment)
          deliveries) runId := by
  intro hclaim
  have hagree := hclaim brokerScanned "run" _ 5 asciiEnricher [deliveryRaising "s1"] rfl
  have hrecord : recordStages (after (fun db d => (enrichRun asciiEnricher "run" db d).db)
      (conclude brokerScanned "run" 5) [deliveryRaising "s1"]) "run" = ["ghidra (failed)"] := by
    decide +kernel
  have hstatus : ((after (fun db d => (enrichRun asciiEnricher "run" db d).db)
      (conclude brokerScanned "run" 5) [deliveryRaising "s1"]).runs.get? "run").map Run.status
        = some .completed := by
    decide +kernel
  obtain ⟨run, hrun, hcompleted⟩ := Option.map_eq_some_iff.mp hstatus
  have hdegraded := (hagree.status run hrun).mpr (by rw [hrecord]; exact List.cons_ne_nil _ _)
  exact absurd (hcompleted.symm.trans hdegraded) (by decide)

end BareAnalysis
