import BareAnalysis.Pipeline.NoResults
import BareAnalysis.Pipeline.Trace

/-!
# Pipeline/Incomplete — which incomplete scans are kept from passing

    container failed, timed out    stage degraded     ─┐
    unpack document truncated      stage TRUNCATED    ─┼─▸ run DEGRADED or FAILED ──▸ no PASS
    an exception                   run FAILED         ─┘
    document missing, unparseable  read as {}         ───▸ run COMPLETED
    scanned file truncated, error  not read           ───▸ run COMPLETED

`neverPasses_iff_noticed` says that the first three are all that is noticed.
-/

namespace BareAnalysis

open Eff

/-! ## What goes missing -/

/-- The container exited with 0. -/
def Analysis.ExitedZero (a : Analysis) : Prop := ∃ r, a.result = .ok r ∧ r.exitCode = some 0

/-- There is no document that parses. -/
def ResultDocument.IsLost : ResultDocument → Prop
  | .missing | .unparseable | .unreadable _ => True
  | .parsed _ => False

/-- `payload.get("truncated")` is true of this document. -/
def reportsTruncated (payload : Json) : Bool :=
  match payload.getOrNull "truncated" with
  | .ok v => v.truthy
  | .error _ => false

/-- The static result has an entry for a file it did not read to the end. -/
def ListsIncompleteFile (payload : Json) : Prop :=
  ∃ files entry, payload.get? "files" = .ok (some (.arr files)) ∧ .obj entry ∈ files ∧
    (Dict.get? entry "truncated" = some (.bool true) ∨ (Dict.get? entry "error").isSome = true)

/-- A document that parses says this. -/
def ResultDocument.Says (P : Json → Prop) : ResultDocument → Prop
  | .parsed payload => P payload
  | _ => False

/-- Something that the two containers were to look at was not looked at. -/
def IsIncomplete (unpacked scanned : Analysis) : Prop :=
  (unpacked.ExitedZero ∧ unpacked.document.IsLost) ∨
    (scanned.ExitedZero ∧ scanned.document.IsLost) ∨
    unpacked.document.Says (reportsTruncated · = true) ∨
    scanned.document.Says ListsIncompleteFile

/-- The run is not completed, and the gate does not pass it under the shipping policy. -/
structure NeverPasses (db : Db) (runId : String) : Prop where
  notCompleted : ∀ run, db.runs.get? runId = some run → run.status ≠ .completed
  notPassed : ∀ waivers baselineRunId ids today,
    gateDecision db runId {} waivers baselineRunId ids today ≠ some .pass

/-! ## From the status to the gate -/

section Status

variable {db : Db} {runId : String} {run : Run}

/-- What the gate says of a finished run is a decision of the engine over its stages. -/
theorem gateDecision_eq (hrun : db.runs.get? runId = some run) (waivers : List Waiver)
    (baselineRunId : Option String) (ids : Option (List String)) (today : Date) :
    gateDecision db runId {} waivers baselineRunId ids today
      = if !run.status.isTerminal then none
        else if run.status = .failed then
          some (evaluate [] {} waivers ["run failed: " ++ (nonempty? run.error).getD "unknown error"]
            today).decision
        else
          some (evaluate (collectGateFindings db runId (resolveBaseline db run baselineRunId ids)) {}
            waivers (describeDegraded (degradedStages db runId)) today).decision := by
  rw [gateDecision, gateRun, hrun]
  dsimp only
  by_cases hterm : (!run.status.isTerminal) = true
  · rw [if_pos hterm, if_pos hterm]
  · rw [if_neg hterm, if_neg hterm]
    by_cases hfailed : run.status = .failed
    · rw [if_pos hfailed, if_pos hfailed]
    · rw [if_neg hfailed, if_neg hfailed]

/-- The shipping policy never passes a scan with a stage to report. -/
theorem decision_ne_pass_of_stages {stages : List String} (h : stages ≠ []) (fs : List GateFinding)
    (waivers : List Waiver) (today : Date) :
    (evaluate fs {} waivers stages today).decision ≠ .pass := by
  rw [decision_ne_pass_iff, leavesOpen_iff_of_ne_nil h]
  exact Or.inr (by decide)

/-- **A run that is not completed does not pass**, if a degraded one has a degraded stage. -/
theorem neverPasses_of_status (hrun : db.runs.get? runId = some run)
    (hstatus : run.status = .running ∨ run.status = .failed ∨
      (run.status = .degraded ∧ degradedStages db runId ≠ [])) : NeverPasses db runId := by
  refine ⟨fun run' hrun' => ?_, fun waivers baselineRunId ids today => ?_⟩
  · obtain rfl := Option.some.inj (hrun.symm.trans hrun')
    obtain h | h | ⟨h, -⟩ := hstatus <;> rw [h] <;> decide
  · rw [gateDecision_eq hrun]
    obtain h | h | ⟨h, hstages⟩ := hstatus
    · rw [h]
      exact fun hpass => by cases hpass
    · rw [h]
      intro hpass
      exact decision_ne_pass_of_stages (List.cons_ne_nil _ _) _ _ _ (Option.some.inj hpass)
    · rw [h]
      intro hpass
      exact decision_ne_pass_of_stages (fun hnil => hstages (describeDegraded_eq_nil.mp hnil)) _ _ _
        (Option.some.inj hpass)

/-- A scan that raised does not pass. -/
theorem neverPasses_abandon (hrun : db.runs.get? runId = some run) (message : String) (moment : ℕ) :
    NeverPasses (abandon db runId message moment) runId := by
  have hrow : (abandon db runId message moment).runs.get? runId
      = some (run.abandoned message moment) := by
    rw [abandon, Db.get?_writeRun, if_pos rfl, hrun, Option.map_some]
  exact neverPasses_of_status hrow (Or.inr (Or.inl rfl))

/-- **A scan that ran through passes exactly when no stage is degraded.** -/
theorem neverPasses_conclude_iff (hrun : db.runs.get? runId = some run) (moment : ℕ) :
    NeverPasses (conclude db runId moment) runId ↔ degradedStages db runId ≠ [] := by
  have hrow : (conclude db runId moment).runs.get? runId
      = some (run.concluded (degradedStages db runId) moment) := by
    rw [conclude, Db.get?_writeRun, if_pos rfl, hrun, Option.map_some]
  constructor
  · intro hnever hnil
    refine hnever.notCompleted _ hrow ?_
    rw [Run.concluded_status, if_pos hnil]
  · intro hstages
    refine neverPasses_of_status hrow (Or.inr (Or.inr ⟨?_, hstages⟩))
    rw [Run.concluded_status, if_neg hstages]

end Status

/-! ## The run's row during a scan -/

/-- The run has this status. -/
def StatusIs (db : Db) (runId : String) (status : RunStatus) : Prop :=
  ∃ run, db.runs.get? runId = some run ∧ run.status = status

/-- The run is running, for the transaction and for everybody else. -/
def IsRunning (runId : String) (s : ScanSession) : Prop :=
  StatusIs s.db runId .running ∧ StatusIs s.committed runId .running

/-- A part of a scan keeps the run running. -/
abbrev StaysRunning (runId : String) (s t : ScanSession) : Prop :=
  IsRunning runId s → IsRunning runId t

section Running

variable {runId : String}

instance : Std.Refl (StaysRunning runId) := ⟨fun _ h => h⟩

instance : IsTrans ScanSession (StaysRunning runId) := ⟨fun _ _ _ h h' hs => h' (h hs)⟩

theorem staysRunning_writeDb {f : Db → Db}
    (hf : ∀ db, StatusIs db runId .running → StatusIs (f db) runId .running) :
    Within (StaysRunning runId) (writeDb f) :=
  within_modify fun s h => ⟨hf s.db h.1, h.2⟩

theorem staysRunning_checkpoint : Within (StaysRunning runId) checkpoint :=
  within_modify fun _ h => ⟨h.1, h.1⟩

theorem staysRunning_flush {f : Db → Option Db}
    (hf : ∀ db db', f db = some db' → db'.runs = db.runs) :
    Within (StaysRunning runId) (flush f) := by
  refine within_get_bind fun s => ?_
  rcases hs : f s.db with - | db'
  · exact fun h => h
  · refine fun h => ⟨?_, h.2⟩
    change StatusIs db' runId .running
    rw [StatusIs, hf s.db db' hs]
    exact h.1

/-- What writes to the stages alone keeps the run running. -/
theorem staysRunning_of_onlyStages {α : Type} {x : Scan α} (hx : Within OnlyStages x) :
    Within (StaysRunning runId) x := by
  rintro s ⟨hdb, hcommitted⟩
  have hmove := hx s
  refine ⟨?_, ?_⟩
  · rw [hmove.db]
    exact hdb
  · obtain hsame | hcommit := hmove.committed
    · rw [hsame]
      exact hcommitted
    · rw [hcommit]
      exact hdb

theorem staysRunning_materialiseTree (w : ScanWorld) (run : Run) (root : Artifact)
    (nodes : List UnpackNode) : Within (StaysRunning runId) (materialiseTree w run root nodes) := by
  refine within_bind (staysRunning_flush fun db db' h => ?_) fun _ => within_pure _
  obtain ⟨rows, -, h⟩ := Option.bind_eq_some_iff.mp h
  obtain rfl := Option.some.inj h
  rfl

/-- A link leaves every status alone. -/
theorem StatusIs.linkPreviousRun {db : Db} {status : RunStatus} (h : StatusIs db runId status)
    (linked : String) (root : Artifact) : StatusIs (linkPreviousRun db linked root) runId status := by
  obtain ⟨run, hrun, hstatus⟩ := h
  rw [BareAnalysis.linkPreviousRun]
  split
  · exact ⟨run, hrun, hstatus⟩
  · rw [StatusIs, Db.get?_writeRun, hrun]
    split
    · exact ⟨_, rfl, hstatus⟩
    · exact ⟨run, rfl, hstatus⟩

theorem staysRunning_reportPhase (w : ScanWorld) (run : Run) (root : Artifact) (pack : RulePack)
    (evidence : List Evidence) (results : ScanResults) :
    Within (StaysRunning runId) (reportPhase w run root pack evidence results) := by
  refine within_bind (staysRunning_writeDb fun _ h => h) fun _ => ?_
  refine within_bind within_get fun s => ?_
  refine within_bind (staysRunning_flush fun db db' h => ?_) fun _ => ?_
  · obtain ⟨findings, -, h⟩ := Option.bind_eq_some_iff.mp h
    obtain rfl := Option.some.inj h
    rfl
  refine within_bind (within_ofExcept _) fun _ => ?_
  refine within_bind (within_ofExcept _) fun _ => ?_
  refine within_bind (staysRunning_flush fun db db' h => ?_) fun _ => ?_
  · obtain ⟨manifests, -, h⟩ := Option.bind_eq_some_iff.mp h
    obtain rfl := Option.some.inj h
    rfl
  exact within_bind (staysRunning_writeDb fun _ h => h.linkPreviousRun _ _) fun _ => within_pure _

/-- **A scan leaves its run running until `run_scan` has the last word.** -/
theorem staysRunning_execute (w : ScanWorld) (run : Run) :
    Within (StaysRunning runId) (execute w run) := by
  refine within_bind (within_ofExcept _) fun pack => ?_
  refine within_bind within_get fun s => ?_
  refine within_bind (within_ofExcept _) fun root => ?_
  refine within_bind (within_ofExcept _) fun content => ?_
  refine within_bind (staysRunning_of_onlyStages (onlyStages_runUnpack w run root content)) ?_
  rintro ⟨unpacked, unpackPayload, tree⟩
  refine within_bind staysRunning_checkpoint fun _ => ?_
  refine within_bind (within_ofExcept _) fun nodes => ?_
  refine within_bind (staysRunning_materialiseTree w run root nodes) fun byPath => ?_
  refine within_bind staysRunning_checkpoint fun _ => ?_
  refine within_bind (within_ofExcept _) fun _ => ?_
  refine within_bind (staysRunning_of_onlyStages (onlyStages_runStatic w run root _)) ?_
  rintro ⟨scanned, staticPayload⟩
  refine within_bind staysRunning_checkpoint fun _ => ?_
  refine within_bind (within_ofExcept _) fun evidence => ?_
  exact within_bind (staysRunning_reportPhase w run root pack evidence _) fun _ => within_pure _

end Running

/-! ## The stages a scan leaves -/

/-- Beside these rows, one more stage is stored: with this id, run, analyzer and status. -/
def LastStage (rows : List RunStage) (id runId analyzer : String) (status : StageStatus)
    (s : ScanSession) : Prop :=
  ∃ stage, s.db.stages.rows = rows ++ [stage] ∧ stage.id = id ∧ stage.runId = runId ∧
    stage.analyzer = analyzer ∧ stage.status = status

/-- The status the unpack stage ends with. -/
def unpackStatus (result : SandboxResult) (payload : Json) : StageStatus :=
  if reportsTruncated payload then .truncated else result.stageStatus

section Stages

variable {rows : List RunStage} {w : ScanWorld} {run : Run} {root : Artifact}

theorem returns_openStage (analyzer : String) :
    Returns (fun s => s.db.stages.rows = rows) (openStage w run root analyzer)
      fun _ => LastStage rows (w.stageId analyzer) run.id analyzer .running := by
  refine returns_bind (R := fun _ => LastStage rows (w.stageId analyzer) run.id analyzer .running)
    ?_ fun _ => returns_modify fun s h => h
  refine returns_get_bind fun s hrows => ?_
  dsimp only
  rcases hins : s.db.stages.insert (stageRow w run root analyzer) with - | stages
  · exact returns_throw
  · refine returns_modify ?_
    rintro t rfl
    refine ⟨stageRow w run root analyzer, ?_, rfl, rfl, rfl, rfl⟩
    rw [← hrows]
    exact Table.rows_of_insert hins

theorem returns_writeStage {id runId analyzer : String} {status : StageStatus}
    {f : RunStage → RunStage} {hf : ∀ s, (f s).id = s.id} (status' : StageStatus)
    (hsame : ∀ s, (f s).runId = s.runId ∧ (f s).analyzer = s.analyzer)
    (hstatus : ∀ s, s.status = status → (f s).status = status') :
    Returns (LastStage rows id runId analyzer status) (writeStage id f hf)
      fun _ => LastStage rows id runId analyzer status' := by
  refine returns_modify ?_
  rintro s ⟨stage, hrows, rfl, rfl, rfl, hst⟩
  exact ⟨f stage, Table.rows_modify_concat hrows f hf, hf stage, (hsame stage).1, (hsame stage).2,
    hstatus stage hst⟩

/-- **What the unpack container said is in its stage.** -/
theorem returns_runUnpack (content : Bytes) :
    Returns (fun s => s.db.stages.rows = rows) (runUnpack w run root content) fun out t =>
      LastStage rows (w.stageId "unpack") run.id "unpack" (unpackStatus out.1 out.2.1) t ∧
        (w.unpack root.name content).1.result = .ok out.1 ∧
        payloadOf (w.unpack root.name content).1.document = .ok out.2.1 ∧
        out.2.2 = (w.unpack root.name content).2 := by
  refine returns_bind (returns_openStage "unpack") fun _ => ?_
  refine returns_ofExcept_bind fun result hresult => ?_
  refine returns_bind (returns_writeStage result.stageStatus (fun _ => ⟨rfl, rfl⟩)
    fun _ _ => rfl) fun _ => ?_
  refine returns_ofExcept_bind fun payload hpayload => ?_
  refine returns_ofExcept_bind fun count _ => ?_
  refine returns_bind (returns_writeStage _ (fun _ => ⟨rfl, rfl⟩) fun _ h => h) fun _ => ?_
  refine returns_ofExcept_bind fun truncated htruncated => ?_
  have hreports : reportsTruncated payload = truncated.truthy := by
    rw [reportsTruncated, htruncated]
  split
  · rename_i htrue
    refine returns_bind (returns_writeStage .truncated (fun _ => ⟨rfl, rfl⟩)
      fun _ _ => rfl) fun _ => ?_
    refine returns_ofExcept_bind fun reasons _ => ?_
    refine returns_bind (returns_writeStage _ (fun _ => ⟨rfl, rfl⟩) fun _ h => h) fun _ => ?_
    refine returns_pure fun s hs => ⟨?_, hresult, hpayload, rfl⟩
    rw [unpackStatus, hreports, if_pos htrue]
    exact hs
  · rename_i hfalse
    refine returns_pure fun s hs => ⟨?_, hresult, hpayload, rfl⟩
    rw [unpackStatus, hreports, if_neg hfalse]
    exact hs

/-- **…and what the static container said in its own.** -/
theorem returns_runStatic (staged : Staged) :
    Returns (fun s => s.db.stages.rows = rows) (runStatic w run root staged) fun out t =>
      LastStage rows (w.stageId "static") run.id "static" out.1.stageStatus t ∧
        (w.static staged run.retainPlaintext).result = .ok out.1 ∧
        payloadOf (w.static staged run.retainPlaintext).document = .ok out.2 := by
  refine returns_bind (returns_openStage "static") fun _ => ?_
  refine returns_ofExcept_bind fun result hresult => ?_
  refine returns_bind (returns_writeStage result.stageStatus (fun _ => ⟨rfl, rfl⟩)
    fun _ _ => rfl) fun _ => ?_
  refine returns_ofExcept_bind fun payload hpayload => ?_
  refine returns_ofExcept_bind fun count _ => ?_
  refine returns_bind (returns_writeStage _ (fun _ => ⟨rfl, rfl⟩) fun _ h => h) fun _ => ?_
  exact returns_pure fun s hs => ⟨hs, hresult, hpayload⟩

end Stages

/-- A part of a scan leaves the stages alone. -/
abbrev SameStages (s t : ScanSession) : Prop := t.db.stages = s.db.stages

instance : Std.Refl SameStages := ⟨fun _ => rfl⟩

instance : IsTrans ScanSession SameStages := ⟨fun _ _ _ h h' => h'.trans h⟩

section SameStages

variable {w : ScanWorld} {run : Run} {root : Artifact}

theorem sameStages_flush {f : Db → Option Db}
    (hf : ∀ db db', f db = some db' → db'.stages = db.stages) : Within SameStages (flush f) := by
  refine within_get_bind fun s => ?_
  rcases hs : f s.db with - | db'
  · rfl
  · exact hf s.db db' hs

theorem sameStages_materialiseTree (nodes : List UnpackNode) :
    Within SameStages (materialiseTree w run root nodes) := by
  refine within_bind (sameStages_flush fun db db' h => ?_) fun _ => within_pure _
  obtain ⟨rows, -, h⟩ := Option.bind_eq_some_iff.mp h
  obtain rfl := Option.some.inj h
  rfl

theorem stages_linkPreviousRun (db : Db) (runId : String) (root : Artifact) :
    (linkPreviousRun db runId root).stages = db.stages := by
  rw [linkPreviousRun]
  split <;> rfl

theorem sameStages_reportPhase (pack : RulePack) (evidence : List Evidence)
    (results : ScanResults) : Within SameStages (reportPhase w run root pack evidence results) := by
  refine within_bind (within_modify fun _ => rfl) fun _ => ?_
  refine within_bind within_get fun s => ?_
  refine within_bind (sameStages_flush fun db db' h => ?_) fun _ => ?_
  · obtain ⟨findings, -, h⟩ := Option.bind_eq_some_iff.mp h
    obtain rfl := Option.some.inj h
    rfl
  refine within_bind (within_ofExcept _) fun _ => ?_
  refine within_bind (within_ofExcept _) fun _ => ?_
  refine within_bind (sameStages_flush fun db db' h => ?_) fun _ => ?_
  · obtain ⟨manifests, -, h⟩ := Option.bind_eq_some_iff.mp h
    obtain rfl := Option.some.inj h
    rfl
  refine within_bind (within_modify fun s => ?_) fun _ => within_pure _
  exact stages_linkPreviousRun s.db run.id root

/-- A part that leaves the stages alone keeps what is known of them. -/
theorem returns_of_sameStages {α : Type} {rows : List RunStage} {x : Scan α}
    (hx : Within SameStages x) :
    Returns (fun s => s.db.stages.rows = rows) x fun _ s => s.db.stages.rows = rows :=
  hx.returns fun _ _ _ hs hsame => (congrArg Table.rows hsame).trans hs

end SameStages

/-- The two stages of a scan that ran through. -/
def TwoStages (rows : List RunStage) (runId : String) (unpacked scanned : StageStatus) (db : Db) :
    Prop :=
  ∃ u v : RunStage, db.stages.rows = rows ++ [u] ++ [v] ∧
    (u.runId = runId ∧ u.analyzer = "unpack" ∧ u.status = unpacked) ∧
    v.runId = runId ∧ v.analyzer = "static" ∧ v.status = scanned

/-- **A scan that runs through leaves two stages**, with what its two containers said. -/
theorem returns_execute {w : ScanWorld} {run : Run} {root : Artifact} {content : Bytes}
    {s₀ : ScanSession} (hroot : rootArtifact s₀.db run.id = some root)
    (hcontent : w.download root = .ok content) :
    Returns (fun s => s = s₀) (execute w run) fun _ t => ∃ unpacked payload scanned,
      (w.unpack root.name content).1.result = .ok unpacked ∧
      payloadOf (w.unpack root.name content).1.document = .ok payload ∧
      (w.static ⟨root.name, content, (w.unpack root.name content).2⟩ run.retainPlaintext).result
        = .ok scanned ∧
      TwoStages s₀.db.stages.rows run.id (unpackStatus unpacked payload) scanned.stageStatus
        t.db := by
  refine returns_ofExcept_bind fun pack _ => ?_
  refine returns_get_bind ?_
  rintro s rfl
  refine returns_ofExcept_bind fun root' hroot' => ?_
  rw [scanRoot, hroot] at hroot'
  obtain rfl := Except.ok.inj hroot'
  refine returns_ofExcept_bind fun content' hcontent' => ?_
  obtain rfl := Except.ok.inj (hcontent.symm.trans hcontent')
  refine returns_bind ((returns_runUnpack content).from fun t ht => congrArg
    (fun s : ScanSession => s.db.stages.rows) ht) ?_
  rintro ⟨unpacked, payload, tree⟩
  rintro t ⟨⟨u, hrows, -, hu⟩, hunpacked, hpayload, rfl⟩
  refine (?_ : Returns (fun t => t.db.stages.rows = s.db.stages.rows ++ [u]) _ _) t hrows
  refine returns_bind (returns_of_sameStages (within_modify fun _ => rfl)) fun _ => ?_
  refine returns_ofExcept_bind fun nodes _ => ?_
  refine returns_bind (returns_of_sameStages (sameStages_materialiseTree nodes)) fun byPath => ?_
  refine returns_bind (returns_of_sameStages (within_modify fun _ => rfl)) fun _ => ?_
  refine returns_ofExcept_bind fun _ _ => ?_
  refine returns_bind (returns_runStatic _) ?_
  rintro ⟨scanned, staticPayload⟩
  rintro t ⟨⟨v, hrows, -, hv⟩, hscanned, -⟩
  refine (?_ : Returns (fun t => t.db.stages.rows = s.db.stages.rows ++ [u] ++ [v]) _ _) t hrows
  refine returns_bind (returns_of_sameStages (within_modify fun _ => rfl)) fun _ => ?_
  refine returns_ofExcept_bind fun evidence _ => ?_
  refine returns_bind (returns_of_sameStages (sameStages_reportPhase pack evidence _)) fun _ => ?_
  exact returns_pure fun t hrows =>
    ⟨unpacked, payload, scanned, hunpacked, hpayload, hscanned, u, v, hrows, hu, hv⟩

/-! ## What a scan comes to -/

/-- The container ended otherwise than by exiting with 0. -/
def Analysis.EndedBadly (a : Analysis) : Prop :=
  ∃ r, a.result = .ok r ∧ (r.status ≠ .completed ∨ r.exitCode ≠ some 0)

/-- An exception ends `_execute` on the claimed run. -/
def ScanRaises (w : ScanWorld) (db : Db) (runId : String) : Prop :=
  ∃ run e s, (claim db runId (w.clock "claim")).1.runs.get? runId = some run ∧
    exec (execute w run) ⟨(claim db runId (w.clock "claim")).1,
      (claim db runId (w.clock "claim")).1⟩ = (.error e, s)

/-- All that keeps a scan from being completed. -/
def IsNoticed (w : ScanWorld) (db : Db) (runId : String) (unpacked scanned : Analysis) : Prop :=
  ScanRaises w db runId ∨ unpacked.EndedBadly ∨
    unpacked.document.Says (reportsTruncated · = true) ∨ scanned.EndedBadly ∨
    degradedStages db runId ≠ []

theorem endedBadly_iff {a : Analysis} {r : SandboxResult} (h : a.result = .ok r) :
    a.EndedBadly ↔ r.status ≠ .completed ∨ r.exitCode ≠ some 0 := by
  constructor
  · rintro ⟨r', hr', hbad⟩
    obtain rfl := Except.ok.inj (h.symm.trans hr')
    exact hbad
  · intro hbad
    exact ⟨r, h, hbad⟩

theorem isDegraded_stageStatus (r : SandboxResult) :
    r.stageStatus.isDegraded = true ↔ r.status ≠ .completed ∨ r.exitCode ≠ some 0 := by
  rw [SandboxResult.stageStatus]
  rcases r.status with - | - | - | - | -
  · by_cases hexit : r.exitCode = some 0 <;> simp [hexit, StageStatus.isDegraded]
  all_goals simp [StageStatus.isDegraded]

/-- A result that is not truncated is as good as its container. -/
theorem isDegraded_unpackStatus (r : SandboxResult) (payload : Json) :
    (unpackStatus r payload).isDegraded = true ↔
      reportsTruncated payload = true ∨ r.status ≠ .completed ∨ r.exitCode ≠ some 0 := by
  rw [unpackStatus]
  split
  · rename_i htruncated
    exact iff_of_true rfl (Or.inl htruncated)
  · rename_i hfull
    rw [isDegraded_stageStatus]
    exact ⟨Or.inr, fun h => h.resolve_left hfull⟩

/-- A document that is read as `{}` reports nothing. -/
theorem reportsTruncated_payloadOf {document : ResultDocument} {payload : Json}
    (h : payloadOf document = .ok payload) :
    reportsTruncated payload = true ↔ document.Says (reportsTruncated · = true) := by
  rcases document with - | - | e | value
  · obtain rfl := Except.ok.inj h
    exact iff_of_false (by decide) id
  · obtain rfl := Except.ok.inj h
    exact iff_of_false (by decide) id
  · cases h
  · obtain rfl : value.orElse (.obj []) = payload := Except.ok.inj h
    rw [ResultDocument.Says, Json.orElse]
    split
    · rfl
    · rename_i hfalse
      refine iff_of_false (by decide) fun htrue => ?_
      rw [reportsTruncated] at htrue
      rcases value with - | b | n | ⟨q, repr⟩ | repr | text | items | fields
      case obj =>
        rcases fields with - | ⟨field, rest⟩
        · revert htrue
          decide
        · exact hfalse rfl
      all_goals exact absurd htrue Bool.false_ne_true

/-- **The degraded stages after a scan that ran through**: those from before, and its own two. -/
theorem degradedStages_eq_nil_iff {db db' : Db} {runId : String} {unpacked scanned : StageStatus}
    (h : TwoStages db.stages.rows runId unpacked scanned db') :
    degradedStages db' runId = [] ↔ degradedStages db runId = [] ∧
      unpacked.isDegraded = false ∧ scanned.isDegraded = false := by
  obtain ⟨u, v, hrows, ⟨rfl, hua, rfl⟩, hvr, hva, rfl⟩ := h
  have hleaves : ∀ s : RunStage, s.analyzer = "unpack" ∨ s.analyzer = "static" →
      s.leavesIncomplete = s.status.isDegraded := by
    intro s hs
    rw [RunStage.leavesIncomplete]
    obtain hs | hs := hs <;> rw [hs] <;> simp [enrichmentAnalyzers]
  have hmem : ∀ s, s ∈ db'.stagesOf u.runId ↔ s ∈ db.stagesOf u.runId ∨ s = u ∨ s = v := by
    intro s
    rw [Db.mem_stagesOf, Db.mem_stagesOf, hrows]
    simp only [List.mem_append, List.mem_singleton]
    constructor
    · rintro ⟨(hold | rfl) | rfl, hrun⟩
      · exact Or.inl ⟨hold, hrun⟩
      · exact Or.inr (Or.inl rfl)
      · exact Or.inr (Or.inr rfl)
    · rintro (⟨hold, hrun⟩ | rfl | rfl)
      · exact ⟨Or.inl (Or.inl hold), hrun⟩
      · exact ⟨Or.inl (Or.inr rfl), rfl⟩
      · exact ⟨Or.inr rfl, hvr⟩
  rw [degradedStages_eq_nil, degradedStages_eq_nil, ← hleaves u (Or.inl hua),
    ← hleaves v (Or.inr hva)]
  constructor
  · intro hall
    exact ⟨fun s hs => hall s ((hmem s).mpr (Or.inl hs)),
      hall u ((hmem u).mpr (Or.inr (Or.inl rfl))), hall v ((hmem v).mpr (Or.inr (Or.inr rfl)))⟩
  · rintro ⟨hold, hu, hv⟩ s hs
    obtain hs | rfl | rfl := (hmem s).mp hs
    · exact hold s hs
    · exact hu
    · exact hv

section Scan

variable {w : ScanWorld} {db : Db} {runId : String} {run : Run} {root : Artifact} {content : Bytes}
  (hrun : db.runs.get? runId = some run) (hqueued : run.status = .queued)
  (hroot : rootArtifact db runId = some root) (hcontent : w.download root = .ok content)

include hrun hqueued in
/-- A queued run is claimed. -/
theorem claim_of_queued (moment : ℕ) :
    claim db runId moment
        = (db.writeRun runId (·.claimed moment) fun r => r.claimed_id moment, true) ∧
      (db.writeRun runId (·.claimed moment) fun r => r.claimed_id moment).runs.get? runId
        = some (run.claimed moment) := by
  constructor
  · rw [claim, hrun]
    exact if_pos hqueued
  · rw [Db.get?_writeRun, if_pos rfl, hrun, Option.map_some]

include hrun hqueued hroot hcontent in
/-- **Exactly what is noticed keeps a scan from passing.** -/
theorem neverPasses_iff_isNoticed :
    NeverPasses (runScan w db runId).2 runId ↔
      IsNoticed w db runId (w.unpack root.name content).1
        (w.static ⟨root.name, content, (w.unpack root.name content).2⟩ run.retainPlaintext) := by
  obtain ⟨hclaim, hclaimed⟩ := claim_of_queued hrun hqueued (w.clock "claim")
  have hid : run.id = runId := Table.key_of_get? hrun
  generalize hdb₁ : (db.writeRun runId (·.claimed (w.clock "claim")) fun r =>
    r.claimed_id (w.clock "claim")) = db₁ at hclaim hclaimed
  have hraises : ScanRaises w db runId ↔ ∃ e s,
      exec (execute w (run.claimed (w.clock "claim"))) ⟨db₁, db₁⟩ = (.error e, s) := by
    rw [ScanRaises, hclaim]
    constructor
    · rintro ⟨run', e, s, hrun', hexec⟩
      obtain rfl := Option.some.inj (hclaimed.symm.trans hrun')
      exact ⟨e, s, hexec⟩
    · rintro ⟨e, s, hexec⟩
      exact ⟨_, e, s, hclaimed, hexec⟩
  have hstages : db₁.stages = db.stages := by rw [← hdb₁]; rfl
  have hroot₁ : rootArtifact db₁ (run.claimed (w.clock "claim")).id = some root := by
    rw [← hdb₁, Run.claimed_id, hid]
    exact hroot
  have hrunning : IsRunning runId (exec (execute w (run.claimed (w.clock "claim"))) ⟨db₁, db₁⟩).2 :=
    staysRunning_execute w _ ⟨db₁, db₁⟩ ⟨⟨_, hclaimed, rfl⟩, ⟨_, hclaimed, rfl⟩⟩
  have hreturns := @returns_execute w _ root content ⟨db₁, db₁⟩ hroot₁ hcontent ⟨db₁, db₁⟩ rfl
  rw [runScan, hclaim]
  dsimp only
  rw [hclaimed]
  dsimp only
  rcases hexec : exec (execute w (run.claimed (w.clock "claim"))) ⟨db₁, db₁⟩ with ⟨e | outcome, s⟩
  · rw [hexec] at hrunning
    have hnoticed : ScanRaises w db runId := hraises.mpr ⟨e, s, hexec⟩
    refine iff_of_true ?_ (Or.inl hnoticed)
    rcases e with m | m | m | m | m | m | m
    case database =>
      obtain ⟨run', hrun', hstatus⟩ := hrunning.2
      exact neverPasses_of_status hrun' (Or.inl hstatus)
    all_goals
      obtain ⟨run', hrun', -⟩ := hrunning.1
      exact neverPasses_abandon hrun' _ _
  · rw [hexec] at hrunning
    obtain ⟨unpacked, payload, scanned, hunpacked, hpayload, hscanned, htwo⟩ :=
      hreturns outcome s hexec
    obtain ⟨run', hrun', -⟩ := hrunning.1
    rw [Run.claimed_id, hid, hstages] at htwo
    have hquiet : ¬ScanRaises w db runId := by
      rw [hraises]
      rintro ⟨e, t, h⟩
      rw [hexec] at h
      cases h
    have hunpackBad : (w.unpack root.name content).1.EndedBadly ↔
        unpacked.status ≠ .completed ∨ unpacked.exitCode ≠ some 0 := endedBadly_iff hunpacked
    have hstaticBad := endedBadly_iff hscanned
    refine (neverPasses_conclude_iff hrun' _).trans ?_
    rw [Ne, degradedStages_eq_nil_iff htwo, ← Bool.not_eq_true, ← Bool.not_eq_true,
      isDegraded_unpackStatus, isDegraded_stageStatus, reportsTruncated_payloadOf hpayload,
      ← hunpackBad]
    change _ ↔ _ ∨ _ ∨ _ ∨ (w.static _ (run.claimed (w.clock "claim")).retainPlaintext).EndedBadly
      ∨ _
    rw [hstaticBad, or_iff_right hquiet, not_and_or, not_and_or, not_not, not_not]
    constructor
    · rintro (hold | (hstates | hbad) | hbad)
      · exact Or.inr (Or.inr (Or.inr hold))
      · exact Or.inr (Or.inl hstates)
      · exact Or.inl hbad
      · exact Or.inr (Or.inr (Or.inl hbad))
    · rintro (hbad | hstates | hbad | hold)
      · exact Or.inr (Or.inl (Or.inr hbad))
      · exact Or.inr (Or.inl (Or.inl hstates))
      · exact Or.inr (Or.inr hbad)
      · exact Or.inl hold

end Scan

/-! ## Documents that say little -/

/-- A world whose containers exit with 0 and leave these documents. -/
def worldOf (unpacked scanned : ResultDocument) : ScanWorld where
  bareVersion := "1.0"
  pack := .ok ⟨"1", [], "c0ffee"⟩
  download _ := .ok []
  unpack _ _ := (⟨.ok { status := .completed, exitCode := some 0 }, unpacked⟩, none)
  static _ _ := ⟨.ok { status := .completed, exitCode := some 0 }, scanned⟩
  stageId analyzer := analyzer
  artifactId n := toString n
  clock _ := 0

/-- One uploaded file. -/
def uploaded : Db where
  runs := .single { id := "run" }
  artifacts := .single
    { id := "root", runId := "run", parentId := none, name := "app.exe", pathInTree := "app.exe" }

end BareAnalysis
