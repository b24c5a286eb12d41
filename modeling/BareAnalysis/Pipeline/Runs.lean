import BareAnalysis.Machinery.History
import BareAnalysis.Pipeline.Recovery
import BareAnalysis.Pipeline.Stages

/-!
# Pipeline/Runs — a run's row, from the upload to its last word

    ingestArtifact      claim         linkPreviousRun     conclude | abandon
    ──────────────▸ queued ───▸ running ─────────────▸ completed | degraded | failed

`core/pipeline/ingest.py` and the writes of `core/pipeline/scan.py` to the run it executes.  A
`RunEvent` is one such write, or a sweep; the events of different runs come in any order.
-/

namespace BareAnalysis

open History

/-- An accepted upload, with the ids and the moment the database gives its rows. -/
structure Upload where
  runId : String
  artifactId : String
  filename : String
  sha256 : String := ""
  sizeBytes : ℤ := 0
  storageKey : Option String := none
  retainPlaintext : Bool := false
  createdAt : ℕ := 0
  deriving DecidableEq, Repr

/-- The run `ingest_artifact` creates. -/
def Upload.run (upload : Upload) : Run where
  id := upload.runId
  retainPlaintext := upload.retainPlaintext
  createdAt := upload.createdAt

/-- …and its root artifact. -/
def Upload.artifact (upload : Upload) : Artifact where
  id := upload.artifactId
  runId := upload.runId
  parentId := none
  name := upload.filename
  pathInTree := upload.filename
  sha256 := upload.sha256
  sizeBytes := upload.sizeBytes
  storageKey := upload.storageKey

/-- The rows `ingest_artifact` stores; ids already in use abort the transaction. -/
def ingestArtifact (db : Db) (upload : Upload) : Option Db := do
  let runs ← db.runs.insert upload.run
  let artifacts ← db.artifacts.insert upload.artifact
  pure { db with runs, artifacts }

/-- Write to the row of a run. -/
def Db.writeRun (db : Db) (runId : String) (f : Run → Run) (hf : ∀ r, (f r).id = r.id) : Db :=
  { db with runs := db.runs.modify runId f hf }

/-- `status=RUNNING, started_at=now`. -/
def Run.claimed (run : Run) (moment : ℕ) : Run :=
  { run with status := .running, startedAt := some moment }

@[simp] theorem Run.claimed_id (run : Run) (moment : ℕ) : (run.claimed moment).id = run.id := rfl

/-- `_claim`: from `queued` to `running`, unless somebody else got there first. -/
def claim (db : Db) (runId : String) (moment : ℕ) : Db × Bool :=
  match db.runs.get? runId with
  | none => (db, false)
  | some run =>
    if run.status = .queued then
      (db.writeRun runId (·.claimed moment) fun run => run.claimed_id moment, true)
    else (db, false)

/-- The root artifact `_execute` reads. -/
def rootArtifact (db : Db) (runId : String) : Option Artifact :=
  (db.artifactsOf runId).find? fun a => a.parentId.isNone

/-- The run has a root artifact of this name. -/
def hasRootNamed (db : Db) (runId name : String) : Bool :=
  (db.artifactsOf runId).any fun a => a.parentId.isNone && a.name == name

/-- The completed runs of a same-named artifact, the last created first. -/
def linkCandidates (db : Db) (runId : String) (root : Artifact) : List Run :=
  sortBy (fun run => OrderDual.toDual run.createdAt) (db.runs.select fun run =>
    run.id != runId && run.status == .completed && hasRootNamed db run.id root.name)

/-- `_link_previous_run`. -/
def linkPreviousRun (db : Db) (runId : String) (root : Artifact) : Db :=
  match linkCandidates db runId root with
  | [] => db
  | previous :: _ =>
    db.writeRun runId (fun run => { run with previousRunId := some previous.id }) fun _ => rfl

/-- `text[:2000]`. -/
def clip (text : String) : String := String.ofList (text.toList.take 2000)

/-- The status `run_scan` gives a scan that ran through. -/
def Run.concluded (run : Run) (degraded : List RunStage) (moment : ℕ) : Run :=
  if degraded = [] then { run with status := .completed, finishedAt := some moment }
  else
    { run with
      status := .degraded
      error := some (clip ("; ".intercalate (describeDegraded degraded)))
      finishedAt := some moment }

@[simp] theorem Run.concluded_id (run : Run) (degraded : List RunStage) (moment : ℕ) :
    (run.concluded degraded moment).id = run.id := by
  rw [Run.concluded]
  split <;> rfl

@[simp] theorem Run.concluded_status (run : Run) (degraded : List RunStage) (moment : ℕ) :
    (run.concluded degraded moment).status = if degraded = [] then .completed else .degraded := by
  rw [Run.concluded]
  split <;> rfl

/-- The tail of `run_scan`: completed, or degraded if a stage did not finish. -/
def conclude (db : Db) (runId : String) (moment : ℕ) : Db :=
  db.writeRun runId (·.concluded (degradedStages db runId) moment) fun run =>
    run.concluded_id (degradedStages db runId) moment

/-- The status `run_scan` gives a scan that raised. -/
def Run.abandoned (run : Run) (message : String) (moment : ℕ) : Run :=
  { run with status := .failed, error := some (clip message), finishedAt := some moment }

@[simp] theorem Run.abandoned_id (run : Run) (message : String) (moment : ℕ) :
    (run.abandoned message moment).id = run.id := rfl

/-- The `except` branch of `run_scan`. -/
def abandon (db : Db) (runId message : String) (moment : ℕ) : Db :=
  db.writeRun runId (·.abandoned message moment) fun run => run.abandoned_id message moment

/-- The rows a scan adds at a checkpoint. -/
def publish (db : Db) (artifacts : List Artifact) (stages : List RunStage)
    (findings : List Finding) : Option Db := do
  let artifacts ← db.artifacts.insertAll artifacts
  let stages ← db.stages.insertAll stages
  let findings ← db.findings.insertAll findings
  pure { db with artifacts, stages, findings }

/-- What happens to the runs of a database. -/
inductive RunEvent
  | ingest (upload : Upload)
  | claim (runId : String) (moment : ℕ)
  | publish (artifacts : List Artifact) (stages : List RunStage) (findings : List Finding)
  /-- The read of the completed runs; the write becomes visible with the run's last one. -/
  | link (runId : String)
  | conclude (runId : String) (moment : ℕ)
  | abandon (runId message : String) (moment : ℕ)
  | sweep (moment : ℕ)

/-- A transaction that cannot commit changes nothing. -/
def RunEvent.step (settings : SweepSettings) (db : Db) : RunEvent → Db
  | .ingest upload => (ingestArtifact db upload).getD db
  | .claim runId moment => (BareAnalysis.claim db runId moment).1
  | .publish artifacts stages findings =>
    (BareAnalysis.publish db artifacts stages findings).getD db
  | .link runId =>
    match rootArtifact db runId with
    | none => db
    | some root => linkPreviousRun db runId root
  | .conclude runId moment => BareAnalysis.conclude db runId moment
  | .abandon runId message moment => BareAnalysis.abandon db runId message moment
  | .sweep moment => (sweepOrphanedRuns db settings moment).1

/-! ## What an event does to one row -/

theorem Db.get?_writeRun (db : Db) (runId : String) (f : Run → Run) (hf : ∀ r, (f r).id = r.id)
    (id : String) : (db.writeRun runId f hf).runs.get? id
      = if id = runId then (db.runs.get? id).map f else db.runs.get? id :=
  Table.get?_modify db.runs runId f hf id

theorem runs_publish {db db' : Db} {artifacts : List Artifact} {stages : List RunStage}
    {findings : List Finding} (h : publish db artifacts stages findings = some db') :
    db'.runs = db.runs ∧ db'.recoveries = db.recoveries := by
  obtain ⟨a, -, h⟩ := Option.bind_eq_some_iff.mp h
  obtain ⟨s, -, h⟩ := Option.bind_eq_some_iff.mp h
  obtain ⟨f, -, h⟩ := Option.bind_eq_some_iff.mp h
  obtain rfl := Option.some.inj h
  exact ⟨rfl, rfl⟩

theorem ingestArtifact_eq_some {db db' : Db} {upload : Upload}
    (h : ingestArtifact db upload = some db') :
    db.runs.insert upload.run = some db'.runs ∧ db'.recoveries = db.recoveries := by
  obtain ⟨runs, hruns, h⟩ := Option.bind_eq_some_iff.mp h
  obtain ⟨artifacts, -, h⟩ := Option.bind_eq_some_iff.mp h
  obtain rfl := Option.some.inj h
  exact ⟨hruns, rfl⟩

theorem get?_claim (db : Db) (runId : String) (moment : ℕ) (id : String) :
    (claim db runId moment).1.runs.get? id
      = if id = runId then (db.runs.get? id).map fun run =>
          if run.status = .queued then run.claimed moment else run
        else db.runs.get? id := by
  rw [claim]
  rcases hget : db.runs.get? runId with - | run
  · by_cases hid : id = runId
    · simp [hid, hget]
    · simp [hid]
  · by_cases hq : run.status = .queued
    · simp only [if_pos hq, Db.get?_writeRun]
      by_cases hid : id = runId
      · simp [hid, hget, hq]
      · simp [hid]
    · simp only [if_neg hq]
      by_cases hid : id = runId
      · simp [hid, hget, hq]
      · simp [hid]

/-- The baseline a link writes. -/
def linkedPrevious (db : Db) (runId : String) : Option Run :=
  (rootArtifact db runId).bind fun root => (linkCandidates db runId root).head?

/-- A run as an event finds it; uploads aside, an event rewrites the rows in place. -/
def RunEvent.rewrite (settings : SweepSettings) (db : Db) (id : String) : RunEvent → Run → Run
  | .ingest _ | .publish _ _ _ => fun run => run
  | .claim runId moment => fun run =>
    if id = runId ∧ run.status = .queued then run.claimed moment else run
  | .link runId => fun run =>
    if id = runId then
      { run with previousRunId := ((linkedPrevious db runId).map Run.id).or run.previousRunId }
    else run
  | .conclude runId moment => fun run =>
    if id = runId then run.concluded (degradedStages db runId) moment else run
  | .abandon runId message moment => fun run =>
    if id = runId then run.abandoned message moment else run
  | .sweep moment => fun run =>
    match judgeStored db settings moment id with
    | .fail reason => run.orphaned moment reason
    | _ => run

section Rows

variable (settings : SweepSettings) (db : Db) (id : String)

/-- **A row after an event** is the row before it, rewritten; or the event uploaded it. -/
theorem RunEvent.get?_step (e : RunEvent) :
    (e.step settings db).runs.get? id = (db.runs.get? id).map (e.rewrite settings db id) ∨
      db.runs.get? id = none ∧ ∃ upload, e = .ingest upload ∧ upload.runId = id ∧
        (e.step settings db).runs.get? id = some upload.run := by
  rcases e with upload | ⟨runId, moment⟩ | ⟨artifacts, stages, findings⟩ | runId |
    ⟨runId, moment⟩ | ⟨runId, message, moment⟩ | moment
  · rw [step]
    rcases hing : ingestArtifact db upload with - | db'
    · exact Or.inl (Option.map_id' ..).symm
    · obtain ⟨hins, -⟩ := ingestArtifact_eq_some hing
      rw [Option.getD_some, Table.get?_of_insert hins]
      by_cases hid : id = upload.run.id
      · refine Or.inr ⟨?_, upload, rfl, hid.symm, if_pos hid⟩
        rw [hid, Table.get?_eq_none]
        intro r hr hkey
        rw [Table.insert, dif_neg (not_not_intro (hkey ▸ List.mem_map_of_mem hr))] at hins
        cases hins
      · rw [if_neg hid]
        exact Or.inl (Option.map_id' ..).symm
  · refine Or.inl ?_
    rw [step, get?_claim]
    by_cases hid : id = runId <;> simp [rewrite, hid]
  · refine Or.inl ?_
    rw [step]
    rcases hpub : BareAnalysis.publish db artifacts stages findings with - | db'
    · exact (Option.map_id' ..).symm
    · rw [Option.getD_some, (runs_publish hpub).1]
      exact (Option.map_id' ..).symm
  · refine Or.inl ?_
    rw [step]
    rcases hroot : rootArtifact db runId with - | root
    · simp [rewrite, linkedPrevious, hroot]
    · dsimp only
      rw [linkPreviousRun]
      rcases hcand : linkCandidates db runId root with - | ⟨previous, rest⟩
      · simp [rewrite, linkedPrevious, hroot, hcand]
      · dsimp only
        rw [Db.get?_writeRun]
        by_cases hid : id = runId <;> simp [rewrite, linkedPrevious, hroot, hcand, hid]
  · refine Or.inl ?_
    rw [step, BareAnalysis.conclude, Db.get?_writeRun]
    by_cases hid : id = runId <;> simp [rewrite, hid]
  · refine Or.inl ?_
    rw [step, BareAnalysis.abandon, Db.get?_writeRun]
    by_cases hid : id = runId <;> simp [rewrite, hid]
  · refine Or.inl ?_
    rw [step, get?_sweepOrphanedRuns]
    rcases hjudge : judgeStored db settings moment id with - | - | reason <;> simp [rewrite, hjudge]

/-- **Only its own link writes a run's predecessor.** -/
theorem RunEvent.previousRunId_rewrite (e : RunEvent) (run : Run) :
    (e.rewrite settings db id run).previousRunId = run.previousRunId ∨
      ∃ previous, e = .link id ∧ linkedPrevious db id = some previous ∧
        (e.rewrite settings db id run).previousRunId = some previous.id := by
  rcases e with upload | ⟨runId, moment⟩ | ⟨artifacts, stages, findings⟩ | runId |
    ⟨runId, moment⟩ | ⟨runId, message, moment⟩ | moment
  case ingest | publish => exact Or.inl rfl
  case link =>
    by_cases hid : id = runId
    · subst hid
      rcases hprev : linkedPrevious db id with - | previous
      · exact Or.inl (by simp [rewrite, hprev])
      · exact Or.inr ⟨previous, rfl, rfl, by simp [rewrite, hprev]⟩
    · exact Or.inl (by simp [rewrite, hid])
  all_goals
    refine Or.inl ?_
    simp only [rewrite, Run.concluded]
    (repeat' split) <;> rfl

/-- No event moves a run's creation. -/
@[simp] theorem RunEvent.createdAt_rewrite (e : RunEvent) (run : Run) :
    (e.rewrite settings db id run).createdAt = run.createdAt := by
  rcases e with upload | ⟨runId, moment⟩ | ⟨artifacts, stages, findings⟩ | runId |
    ⟨runId, moment⟩ | ⟨runId, message, moment⟩ | moment <;>
    simp only [rewrite, Run.concluded] <;> (repeat' split) <;> rfl

/-- A stored run stays stored, and keeps its creation. -/
theorem RunEvent.get?_step_of_some (e : RunEvent) {run : Run} (hrun : db.runs.get? id = some run) :
    (e.step settings db).runs.get? id = some (e.rewrite settings db id run) := by
  obtain hmap | ⟨hnone, -⟩ := e.get?_step settings db id
  · rw [hmap, hrun, Option.map_some]
  · rw [hrun] at hnone
    cases hnone

end Rows

end BareAnalysis
