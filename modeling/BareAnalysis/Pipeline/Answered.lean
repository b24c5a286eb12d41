import BareAnalysis.Pipeline.Faults
import BareAnalysis.Pipeline.Incomplete

/-!
# Pipeline/Answered — when a claimed run reaches an answer

    raised inside the `try`, by anything but the database ──▸ FAILED, with the error
    raised by a flush or a commit, or after the `try`     ──▸ RUNNING, as it was claimed

The `except` branch writes to the session of the scan, so what it writes is kept exactly when that
session still takes a commit.
-/

namespace BareAnalysis

open Eff

/-! ## What every part of a scan keeps -/

/-- From a session that takes commits: afterwards it does unless the database raised, the run is
still running, and the scan has not left the `try`. -/
structure SteadyFrom {α : Type} (runId : String) (s : LiveSession) (out : Except PyError α)
    (t : LiveSession) : Prop where
  broken : t.broken = raisedDatabase out
  running : IsRunning runId s.toScanSession → IsRunning runId t.toScanSession
  inExecute : s.reached.inExecute = true → t.reached.inExecute = true

/-- The part keeps this, however it ends. -/
def Steady {α : Type} (runId : String) (x : Live α) : Prop :=
  ∀ s, s.broken = false → SteadyFrom runId s (exec x s).1 (exec x s).2

section Steady

variable {faults : Faults} {runId : String} {α β : Type}

theorem steady_pure (a : α) : Steady runId (pure a : Live α) := fun _ hs => ⟨hs, fun h => h, fun h => h⟩

theorem steady_bind {x : Live α} {f : α → Live β} (hx : Steady runId x)
    (hf : ∀ a, Steady runId (f a)) : Steady runId (x >>= f) := by
  intro s hs
  have h := hx s hs
  rw [exec_bind]
  rcases hxs : exec x s with ⟨e | a, t⟩
  · rw [hxs] at h
    exact ⟨h.broken, h.running, h.inExecute⟩
  · rw [hxs] at h
    have hrest := hf a t h.broken
    exact ⟨hrest.broken, fun hs => hrest.running (h.running hs),
      fun hs => hrest.inExecute (h.inExecute hs)⟩

theorem steady_step (step : ScanStep) {part : Scan α} (h : Within (StaysRunning runId) part)
    (hstep : step.inExecute = true := by rfl) : Steady runId (liveStep faults step part) := by
  intro s hs
  rw [exec_liveStep]
  refine ⟨by rw [hs, Bool.false_or], fun hrunning => ?_, fun _ => hstep⟩
  rw [stepOutcome]
  cases faults step with
  | some e => exact hrunning
  | none => exact h s.toScanSession hrunning

theorem steady_pureStep (step : ScanStep) (a : α) (hstep : step.inExecute = true := by rfl) :
    Steady runId (liveStep faults step (pure a)) := steady_step step (within_pure a) hstep

theorem steady_readStep (step : ScanStep) (r : Except PyError α)
    (hstep : step.inExecute = true := by rfl) :
    Steady runId (liveStep faults step (Eff.ofExcept r)) :=
  steady_step step (within_ofExcept r) hstep

theorem steady_commit (step : ScanStep) (hstep : step.inExecute = true := by rfl) :
    Steady runId (liveStep faults step checkpoint) := steady_step step staysRunning_checkpoint hstep

/-- What writes to the stages alone is steady. -/
theorem steady_stages (step : ScanStep) {part : Scan α} (h : Within OnlyStages part)
    (hstep : step.inExecute = true := by rfl) : Steady runId (liveStep faults step part) :=
  steady_step step (staysRunning_of_onlyStages h) hstep

variable (w : ScanWorld) (run : Run) (root : Artifact)

theorem onlyStages_recordUnpack (analysis : Analysis) (result : SandboxResult) :
    Within OnlyStages (recordUnpack w analysis result) := by
  refine within_bind (onlyStages_writeStage _ _ _) fun _ => ?_
  refine within_bind (within_ofExcept _) fun payload => ?_
  refine within_bind (within_ofExcept _) fun count => ?_
  refine within_bind (onlyStages_writeStage _ _ _) fun _ => ?_
  refine within_bind (within_ofExcept _) fun truncated => ?_
  split
  · refine within_bind (onlyStages_writeStage _ _ _) fun _ => ?_
    refine within_bind (within_ofExcept _) fun _ => ?_
    exact within_bind (onlyStages_writeStage _ _ _) fun _ => within_pure _
  · exact within_pure _

theorem steady_liveUnpack (content : Bytes) :
    Steady runId (liveUnpack faults w run root content) := by
  refine steady_bind (steady_stages _ (onlyStages_openStage w run root "unpack")) fun _ => ?_
  refine steady_bind (steady_readStep _ _) fun result => ?_
  exact steady_bind (steady_stages _ (onlyStages_recordUnpack w _ result)) fun _ => steady_pure _

theorem onlyStages_recordStatic (analysis : Analysis) (result : SandboxResult) :
    Within OnlyStages (recordStatic w analysis result) := by
  refine within_bind (onlyStages_writeStage _ _ _) fun _ => ?_
  refine within_bind (within_ofExcept _) fun payload => ?_
  refine within_bind (within_ofExcept _) fun count => ?_
  exact within_bind (onlyStages_writeStage _ _ _) fun _ => within_pure _

theorem steady_liveStatic (staged : Staged) : Steady runId (liveStatic faults w run root staged) := by
  refine steady_bind (steady_stages _ (onlyStages_openStage w run root "static")) fun _ => ?_
  refine steady_bind (steady_readStep _ _) fun result => ?_
  exact steady_bind (steady_stages _ (onlyStages_recordStatic w _ result)) fun _ => steady_pure _

theorem steady_liveReport (pack : RulePack) (evidence : List Evidence) (results : ScanResults) :
    Steady runId (liveReport faults w run root pack evidence results) := by
  refine steady_bind (steady_step _ (staysRunning_writeDb fun _ h => h)) fun _ => ?_
  refine steady_bind (steady_pureStep _ _) fun _ => ?_
  refine steady_bind (steady_pureStep _ _) fun _ => ?_
  refine steady_bind (steady_step _ (within_bind within_get fun _ => within_pure _)) fun result => ?_
  refine steady_bind (steady_step _ (staysRunning_flush fun db db' h => ?_)) fun _ => ?_
  · obtain ⟨findings, -, h⟩ := Option.bind_eq_some_iff.mp h
    obtain rfl := Option.some.inj h
    rfl
  refine steady_bind (steady_step _ (within_bind (within_ofExcept _) fun _ =>
    within_bind (within_ofExcept _) fun _ => within_pure _)) fun tools => ?_
  refine steady_bind (steady_step _ (staysRunning_flush fun db db' h => ?_)) fun _ => ?_
  · obtain ⟨manifests, -, h⟩ := Option.bind_eq_some_iff.mp h
    obtain rfl := Option.some.inj h
    rfl
  refine steady_bind (steady_step _ (staysRunning_writeDb fun _ h => h.linkPreviousRun _ _))
    fun _ => steady_pure _

/-- **Until `run_scan` has the last word**, the run is running, and only the database breaks the
session. -/
theorem steady_liveExecute : Steady runId (liveExecute faults w run) := by
  refine steady_bind (steady_readStep _ _) fun pack => ?_
  refine steady_bind (steady_step _ (within_bind within_get fun _ => within_ofExcept _))
    fun root => ?_
  refine steady_bind (steady_pureStep _ _) fun _ => ?_
  refine steady_bind (steady_pureStep _ _) fun _ => ?_
  refine steady_bind (steady_readStep _ _) fun content => ?_
  refine steady_bind (steady_liveUnpack w run root content) ?_
  rintro ⟨unpacked, unpackPayload, tree⟩
  refine steady_bind (steady_commit _) fun _ => ?_
  refine steady_bind (steady_readStep _ _) fun nodes => ?_
  refine steady_bind (steady_step _ (staysRunning_materialiseTree w run root nodes)) fun byPath => ?_
  refine steady_bind (steady_commit _) fun _ => ?_
  refine steady_bind (steady_readStep _ _) fun _ => ?_
  refine steady_bind (steady_liveStatic w run root _) ?_
  rintro ⟨scanned, staticPayload⟩
  refine steady_bind (steady_commit _) fun _ => ?_
  refine steady_bind (steady_readStep _ _) fun evidence => ?_
  exact steady_bind (steady_liveReport w run root pack evidence _) fun _ => steady_pure _

end Steady

/-! ## The last word -/

/-- The run has failed, and the exception is on record. -/
def RecordsFailure (db : Db) (runId : String) (e : PyError) : Prop :=
  ∃ run, db.runs.get? runId = some run ∧ run.status = .failed ∧ run.error = some (clip e.message)

section Answer

variable {faults : Faults} {w : ScanWorld} {run : Run} {db : Db} {step : ScanStep} {e : PyError}

theorem recordsFailure_abandon {runId : String} (h : StatusIs db runId .running) (moment : ℕ) :
    RecordsFailure (abandon db runId e.message moment) runId e := by
  obtain ⟨run, hrun, -⟩ := h
  refine ⟨run.abandoned e.message moment, ?_, rfl, rfl⟩
  rw [abandon, Db.get?_writeRun, if_pos rfl, hrun, Option.map_some]

theorem not_recordsFailure_of_running {runId : String} (h : StatusIs db runId .running) :
    ¬ RecordsFailure db runId e := by
  obtain ⟨run, hrun, hstatus⟩ := h
  rintro ⟨run', hrun', hfailed, -⟩
  obtain rfl := Option.some.inj (hrun.symm.trans hrun')
  rw [hstatus] at hfailed
  cases hfailed

/-- The tail of a scan that raises commits nothing. -/
theorem liveConclude_error {s t : LiveSession}
    (h : exec (liveConclude faults w run) s = (.error e, t)) :
    t.committed = s.committed ∧ t.reached.inExecute = false := by
  rw [liveConclude, exec_bind, exec_liveStep, stepOutcome] at h
  cases hdegraded : faults .degradedStages with
  | some e' =>
    rw [hdegraded] at h
    obtain ⟨-, rfl⟩ := Prod.mk.inj h
    exact ⟨rfl, rfl⟩
  | none =>
    rw [hdegraded] at h
    change exec (liveStep faults .status _ >>= fun _ => _) _ = _ at h
    rw [exec_bind, exec_liveStep, stepOutcome] at h
    cases hstatus : faults .status with
    | some e' =>
      rw [hstatus] at h
      obtain ⟨-, rfl⟩ := Prod.mk.inj h
      exact ⟨rfl, rfl⟩
    | none =>
      rw [hstatus] at h
      change exec (liveStep faults .finalCommit checkpoint) _ = _ at h
      rw [exec_liveStep, stepOutcome] at h
      cases hcommit : faults .finalCommit with
      | some e' =>
        rw [hcommit] at h
        obtain ⟨-, rfl⟩ := Prod.mk.inj h
        exact ⟨rfl, rfl⟩
      | none =>
        rw [hcommit] at h
        cases h

/-- **A claimed run reaches an answer** on an exception exactly when that was raised inside the
`try`, and not by a flush or a commit; otherwise it stays running. -/
theorem recordsFailure_iff (hrun : db.runs.get? run.id = some run) (hclaimed : run.status = .running)
    (hraises : RaisesAt faults w run db step e) :
    (RecordsFailure (scanTask faults w run db).2 run.id e ↔
        step.inExecute = true ∧ e.isDatabase = false) ∧
      (RecordsFailure (scanTask faults w run db).2 run.id e ∨
        StatusIs (scanTask faults w run db).2 run.id .running) := by
  obtain ⟨s, hexec, rfl⟩ := hraises
  have hrunning : IsRunning run.id (LiveSession.start db).toScanSession :=
    ⟨⟨run, hrun, hclaimed⟩, ⟨run, hrun, hclaimed⟩⟩
  have hsteady := @steady_liveExecute faults run.id w run (.start db) rfl
  have hkept := hsteady.running hrunning
  rw [exec_bind] at hexec
  rw [scanTask]
  rcases hscan : exec (liveExecute faults w run) (.start db) with ⟨e' | outcome, t⟩
  · rw [hscan] at hexec hsteady hkept
    obtain ⟨he, rfl⟩ := Prod.mk.inj hexec
    obtain rfl := Except.error.inj he
    have hinside : t.reached.inExecute = true := hsteady.inExecute rfl
    have hbroken : t.broken = e'.isDatabase := hsteady.broken
    dsimp only
    split
    · rename_i hdatabase
      refine ⟨iff_of_false (not_recordsFailure_of_running hkept.2) fun h => ?_, Or.inr hkept.2⟩
      rw [← hbroken, hdatabase] at h
      cases h.2
    · rename_i hother
      have hfailure := @recordsFailure_abandon t.db e' run.id hkept.1 (w.clock "finish")
      refine ⟨iff_of_true hfailure ⟨hinside, ?_⟩, Or.inl hfailure⟩
      rw [← hbroken]
      simpa using hother
  · rw [hscan] at hexec hkept
    dsimp only at hexec ⊢
    obtain ⟨hcommitted, houtside⟩ := liveConclude_error hexec
    rw [hexec]
    dsimp only
    rw [hcommitted, houtside]
    exact ⟨iff_of_false (not_recordsFailure_of_running hkept.2) fun h => (nomatch h.1),
      Or.inr hkept.2⟩

end Answer

/-! ## Without faults, the scan as it was -/

/-- Two parts of a scan that end alike, with the same rows. -/
def Follows {α : Type} (x : Live α) (y : Scan α) : Prop :=
  ∀ s, (exec x s).1 = (exec y s.toScanSession).1 ∧
    (exec x s).2.toScanSession = (exec y s.toScanSession).2

section Follows

variable {α β : Type} {w : ScanWorld} {run : Run} {root : Artifact}

theorem follows_pure (a : α) : Follows (pure a : Live α) (pure a) := fun _ => ⟨rfl, rfl⟩

theorem follows_step (step : ScanStep) (part : Scan α) :
    Follows (liveStep (fun _ => none) step part) part := fun _ => ⟨rfl, rfl⟩

theorem follows_bind {x : Live α} {y : Scan α} {f : α → Live β} {g : α → Scan β}
    (hx : Follows x y) (hf : ∀ a, Follows (f a) (g a)) : Follows (x >>= f) (y >>= g) := by
  intro s
  obtain ⟨hout, hsession⟩ := hx s
  rw [exec_bind, exec_bind]
  rcases hxs : exec x s with ⟨e | a, t⟩
  · rcases hys : exec y s.toScanSession with ⟨e' | a', t'⟩
    · rw [hxs, hys] at hout hsession
      exact ⟨congrArg Except.error (Except.error.inj hout), hsession⟩
    · rw [hxs, hys] at hout
      cases hout
  · rcases hys : exec y s.toScanSession with ⟨e' | a', t'⟩
    · rw [hxs, hys] at hout
      cases hout
    · rw [hxs, hys] at hout hsession
      obtain rfl := Except.ok.inj hout
      obtain rfl : t.toScanSession = t' := hsession
      exact hf a t

/-- A step without a part of its own. -/
theorem follows_idle {step : ScanStep} {x : Live α} {y : Scan α} (h : Follows x y) :
    Follows (liveStep (fun _ => none) step (pure ()) >>= fun _ => x) y := by
  have := follows_bind (follows_step step (pure ())) fun _ => h
  exact this

theorem runUnpack_eq (content : Bytes) :
    runUnpack w run root content = do
      openStage w run root "unpack"
      let result ← Eff.ofExcept (w.unpack root.name content).1.result
      let payload ← recordUnpack w (w.unpack root.name content).1 result
      return (result, payload, (w.unpack root.name content).2) := by
  rw [runUnpack]
  refine bind_congr fun _ => bind_congr fun result => ?_
  rw [recordUnpack, bind_assoc]
  refine bind_congr fun _ => ?_
  rw [bind_assoc]
  refine bind_congr fun payload => ?_
  rw [bind_assoc]
  refine bind_congr fun count => ?_
  rw [bind_assoc]
  refine bind_congr fun _ => ?_
  rw [bind_assoc]
  refine bind_congr fun truncated => ?_
  split
  · simp only [bind_assoc, pure_bind]
  · rw [pure_bind]

theorem runStatic_eq (staged : Staged) :
    runStatic w run root staged = do
      openStage w run root "static"
      let result ← Eff.ofExcept (w.static staged run.retainPlaintext).result
      let payload ← recordStatic w (w.static staged run.retainPlaintext) result
      return (result, payload) := by
  simp only [runStatic, recordStatic, bind_assoc, pure_bind]

theorem follows_liveUnpack (content : Bytes) :
    Follows (liveUnpack (fun _ => none) w run root content) (runUnpack w run root content) := by
  rw [runUnpack_eq]
  refine follows_bind (follows_step _ _) fun _ => follows_bind (follows_step _ _) fun result => ?_
  exact follows_bind (follows_step _ _) fun _ => follows_pure _

theorem follows_liveStatic (staged : Staged) :
    Follows (liveStatic (fun _ => none) w run root staged) (runStatic w run root staged) := by
  rw [runStatic_eq]
  refine follows_bind (follows_step _ _) fun _ => follows_bind (follows_step _ _) fun result => ?_
  exact follows_bind (follows_step _ _) fun _ => follows_pure _

theorem reportPhase_eq (pack : RulePack) (evidence : List Evidence) (results : ScanResults) :
    reportPhase w run root pack evidence results = do
      writeDb fun db => { db with evidence := db.evidence ++ evidence }
      let result ← (return correlate run.id (correlationInput (← get).db run pack evidence) : Scan _)
      flush fun db => do
        let findings ← db.findings.insertAll result.findings
        pure { db with findings, locations := db.locations ++ result.locations }
      let tools ← (do
        let unpackTools ← Eff.ofExcept (toolVersions results.unpackPayload)
        let staticTools ← Eff.ofExcept (toolVersions results.staticPayload)
        return unpackTools ++ staticTools : Scan _)
      flush fun db => do
        let manifests ← db.manifests.insert (manifestOf w run root pack results.unpacked
          results.scanned tools)
        pure { db with manifests }
      writeDb fun db => linkPreviousRun db run.id root
      return result := by
  simp only [reportPhase, bind_assoc, pure_bind]

theorem follows_liveReport (pack : RulePack) (evidence : List Evidence) (results : ScanResults) :
    Follows (liveReport (fun _ => none) w run root pack evidence results)
      (reportPhase w run root pack evidence results) := by
  rw [reportPhase_eq]
  refine follows_bind (follows_step _ _) fun _ => follows_idle (follows_idle ?_)
  refine follows_bind (follows_step _ _) fun result => follows_bind (follows_step _ _) fun _ => ?_
  refine follows_bind (follows_step _ _) fun tools => follows_bind (follows_step _ _) fun _ => ?_
  exact follows_bind (follows_step _ _) fun _ => follows_pure _

theorem execute_eq :
    execute w run = do
      let pack ← Eff.ofExcept w.pack
      let root ← (do Eff.ofExcept (scanRoot (← get).db run) : Scan _)
      let content ← Eff.ofExcept (w.download root)
      let (unpacked, unpackPayload, tree) ← runUnpack w run root content
      checkpoint
      let nodes ← Eff.ofExcept (unpackNodes unpackPayload)
      let byPath ← materialiseTree w run root nodes
      checkpoint
      Eff.ofExcept w.staging
      let (scanned, staticPayload) ← runStatic w run root ⟨root.name, content, tree⟩
      checkpoint
      let evidence ← Eff.ofExcept
        (toEvidence run staticPayload (stagedPaths root tree nodes byPath) root)
      let result ← reportPhase w run root pack evidence
        ⟨unpacked, unpackPayload, scanned, staticPayload⟩
      return { runId := run.id
               status := .completed
               findingCount := result.findings.length
               evidenceCount := evidence.length
               suppressedCount := result.suppressed
               artifactCount := 1 + (byPath.map Prod.fst).dedup.length } := by
  rw [execute]
  refine bind_congr fun pack => ?_
  rw [bind_assoc]

/-- **Without faults the steps make the scan they are steps of.** -/
theorem follows_liveExecute : Follows (liveExecute (fun _ => none) w run) (execute w run) := by
  rw [execute_eq]
  refine follows_bind (follows_step _ _) fun pack => follows_bind (follows_step _ _) fun root => ?_
  refine follows_idle (follows_idle (follows_bind (follows_step _ _) fun content => ?_))
  refine follows_bind (follows_liveUnpack content) ?_
  rintro ⟨unpacked, unpackPayload, tree⟩
  refine follows_bind (follows_step _ _) fun _ => follows_bind (follows_step _ _) fun nodes => ?_
  refine follows_bind (follows_step _ _) fun byPath => follows_bind (follows_step _ _) fun _ => ?_
  refine follows_bind (follows_step _ _) fun _ => follows_bind (follows_liveStatic _) ?_
  rintro ⟨scanned, staticPayload⟩
  refine follows_bind (follows_step _ _) fun _ => follows_bind (follows_step _ _) fun evidence => ?_
  exact follows_bind (follows_liveReport pack evidence _) fun _ => follows_pure _

/-- **…and the task answers and leaves what `run_scan` does**, once it has claimed the run. -/
theorem scanTask_eq_runScan {db claimed : Db} {runId : String}
    (hclaim : claim db runId (w.clock "claim") = (claimed, true))
    (hrun : claimed.runs.get? runId = some run) :
    runScan w db runId = scanTask (fun _ => none) w run claimed := by
  obtain rfl : run.id = runId := Table.key_of_get? hrun
  obtain ⟨hout, hsession⟩ := @follows_liveExecute w run (.start claimed)
  have hbroken := (@steady_liveExecute (fun _ => none) run.id w run (.start claimed) rfl).broken
  rw [runScan, scanTask, hclaim]
  dsimp only
  rw [hrun]
  dsimp only
  have hexec : exec (execute w run) ⟨claimed, claimed⟩
      = ((exec (liveExecute (fun _ => none) w run) (.start claimed)).1,
        (exec (liveExecute (fun _ => none) w run) (.start claimed)).2.toScanSession) :=
    Prod.ext hout.symm hsession.symm
  rw [hexec]
  rcases hlive : exec (liveExecute (fun _ => none) w run) (.start claimed) with ⟨e | outcome, s⟩
  · rw [hlive] at hbroken
    change s.broken = e.isDatabase at hbroken
    cases e with
    | database message => simp only [hbroken, PyError.isDatabase, if_true]
    | _ => simp only [hbroken, PyError.isDatabase, Bool.false_eq_true, if_false]
  · rfl

end Follows

/-! ## A commit that fails, and a query after the `try` -/

/-- The run, claimed. -/
def claimedScan : Db where
  runs := .single { id := "run", status := .running }
  artifacts := .single
    { id := "root", runId := "run", parentId := none, name := "app.exe", pathInTree := "app.exe" }

/-- One exception, at one step. -/
def faultAt (step : ScanStep) (e : PyError) : Faults := fun step' => if step' = step then some e else none

/-- A download that raises. -/
theorem recordsFailure_download :
    RecordsFailure (scanTask (faultAt .download (.external "no such key"))
        (worldOf .missing .missing) { id := "run", status := .running } claimedScan).2 "run"
      (.external "no such key") := by
  have hraises : RaisesAt (faultAt .download (.external "no such key")) (worldOf .missing .missing)
      { id := "run", status := .running } claimedScan .download (.external "no such key") :=
    ⟨_, rfl, rfl⟩
  exact (recordsFailure_iff rfl rfl hraises).1.mpr ⟨rfl, rfl⟩

/-- **Two exceptions after which the run stays running**: the commit of the phase "index", and the
query for the degraded stages. -/
theorem exception_leaves_running :
    ((scanTask (faultAt .indexCommit (.database "could not write to file")) (worldOf .missing .missing)
        { id := "run", status := .running } claimedScan).2.runs.get? "run").map Run.status
      = some .running ∧
    ((scanTask (faultAt .degradedStages (.database "connection lost")) (worldOf .missing .missing)
        { id := "run", status := .running } claimedScan).2.runs.get? "run").map Run.status
      = some .running ∧
    ¬ ∀ (faults : Faults) (w : ScanWorld) (run : Run) (db : Db) (step : ScanStep) (e : PyError),
      db.runs.get? run.id = some run → run.status = .running → RaisesAt faults w run db step e →
        RecordsFailure (scanTask faults w run db).2 run.id e := by
  have hcommit : ((scanTask (faultAt .indexCommit (.database "could not write to file"))
      (worldOf .missing .missing) { id := "run", status := .running } claimedScan).2.runs.get?
        "run").map Run.status = some .running := by
    decide +kernel
  refine ⟨hcommit, by decide +kernel, fun h => ?_⟩
  obtain ⟨row, hrow, hfailed, -⟩ := h (faultAt .indexCommit (.database "could not write to file"))
    (worldOf .missing .missing) { id := "run", status := .running } claimedScan .indexCommit _ rfl rfl
    ⟨_, rfl, rfl⟩
  rw [hrow, Option.map_some, hfailed] at hcommit
  cases hcommit

end BareAnalysis
