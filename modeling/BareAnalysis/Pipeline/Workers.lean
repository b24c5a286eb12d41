import BareAnalysis.Pipeline.Runs

/-!
# Pipeline/Workers — who executes a run, and who has the last word on it

    worker   deliver ─claim▸ executing ─▸ finish | crash | die
    sweep    read ──────────────────────▸ commit

The claim is a guarded update; the writes of a worker's answer and of a sweep are not, and a sweep
commits what it decided on the rows it read.  `oneAnswer_iff` says which interleavings leave every
answer standing; that a run has one executor holds in all of them.
-/

namespace BareAnalysis

open History

/-- A run a worker claimed. -/
structure Job where
  worker : ℕ
  runId : String
  deriving DecidableEq, Repr

/-- A sweep that has read and not committed. -/
structure OpenSweep where
  id : ℕ
  moment : ℕ
  read : Db

/-- The committed rows, the workers inside `run_scan`, and the sweeps in progress. -/
structure Workshop where
  db : Db := {}
  executing : List Job := []
  sweeps : List OpenSweep := []
  /-- Every claim that ever succeeded; no step reads it. -/
  claims : List Job := []

namespace Workshop

variable (w : Workshop)

def jobOf (worker : ℕ) : Option Job := w.executing.find? fun job => job.worker == worker

def sweepOf (id : ℕ) : Option OpenSweep := w.sweeps.find? fun sweep => sweep.id == id

/-- The worker leaves `run_scan`. -/
def release (worker : ℕ) : Workshop :=
  { w with executing := w.executing.filter fun job => job.worker != worker }

end Workshop

/-- What a sweep's transaction writes: the columns of the runs it failed, and its audit rows. -/
def OpenSweep.commit (settings : SweepSettings) (sweep : OpenSweep) (db : Db) : Db :=
  let swept := sweepOrphanedRuns sweep.read settings sweep.moment
  { db with
    runs := db.runs.mapRows (fun run =>
      if swept.2.failed.contains run.id then
        match swept.1.runs.get? run.id with
        | some row =>
          { run with status := row.status, finishedAt := row.finishedAt, error := row.error }
        | none => run
      else run) fun run => by
        split
        · split <;> rfl
        · rfl
    recoveries := db.recoveries ++ swept.1.recoveries.drop sweep.read.recoveries.length }

/-- What happens in the workshop; the broker delivers a run to any worker, any number of times. -/
inductive WorkEvent
  | ingest (upload : Upload)
  | deliver (worker : ℕ) (runId : String) (moment : ℕ)
  | checkpoint (worker : ℕ) (artifacts : List Artifact) (stages : List RunStage)
      (findings : List Finding)
  | finish (worker : ℕ) (moment : ℕ)
  | crash (worker : ℕ) (message : String) (moment : ℕ)
  /-- The process is killed, and its open transaction with it. -/
  | die (worker : ℕ)
  | readSweep (id : ℕ) (moment : ℕ)
  | commitSweep (id : ℕ)

/-- A worker is in one `run_scan` at a time; an event about an idle one is none. -/
def WorkEvent.step (settings : SweepSettings) (w : Workshop) : WorkEvent → Workshop
  | .ingest upload => { w with db := (ingestArtifact w.db upload).getD w.db }
  | .deliver worker runId moment =>
    match w.jobOf worker with
    | some _ => w
    | none =>
      if (claim w.db runId moment).2 then
        { w with
          db := (claim w.db runId moment).1
          executing := ⟨worker, runId⟩ :: w.executing
          claims := ⟨worker, runId⟩ :: w.claims }
      else w
  | .checkpoint worker artifacts stages findings =>
    match w.jobOf worker with
    | none => w
    | some _ => { w with db := (publish w.db artifacts stages findings).getD w.db }
  | .finish worker moment =>
    match w.jobOf worker with
    | none => w
    | some job =>
      { w.release worker with
        db := conclude ((RunEvent.link job.runId).step settings w.db) job.runId moment }
  | .crash worker message moment =>
    match w.jobOf worker with
    | none => w
    | some job => { w.release worker with db := abandon w.db job.runId message moment }
  | .die worker => w.release worker
  | .readSweep id moment => { w with sweeps := ⟨id, moment, w.db⟩ :: w.sweeps }
  | .commitSweep id =>
    match w.sweepOf id with
    | none => w
    | some sweep =>
      { w with
        db := sweep.commit settings w.db
        sweeps := w.sweeps.filter fun other => other.id != id }

/-- A status that stands: no later state of the history has another. -/
def FinalAnswers (settings : SweepSettings) (events : List WorkEvent) : Prop :=
  ∀ pre post, pre <+: post → post <+: events → ∀ id run,
    (after (WorkEvent.step settings) {} pre).db.runs.get? id = some run →
    run.status.isTerminal = true →
    ∃ run', (after (WorkEvent.step settings) {} post).db.runs.get? id = some run' ∧
      run'.status = run.status

/-- The workers that ever executed a run. -/
def Workshop.executorsOf (w : Workshop) (runId : String) : List ℕ :=
  (w.claims.filter fun job => job.runId == runId).map Job.worker

/-- A worker that ends its scan finds the run not failed under it, and a sweep that commits finds
nothing finished that it read as orphaned. -/
def Undisturbed (settings : SweepSettings) (w : Workshop) : WorkEvent → Prop
  | .finish worker _ => ∀ job run, w.jobOf worker = some job →
      w.db.runs.get? job.runId = some run → run.status ≠ .failed
  | .commitSweep id => ∀ sweep runId reason run, w.sweepOf id = some sweep →
      judgeStored sweep.read settings sweep.moment runId = .fail reason →
      w.db.runs.get? runId = some run → run.status.isTerminal = true → run.status = .failed
  | _ => True

/-! ## The row of a run across an event -/

section Rows

variable (settings : SweepSettings)

/-- **A commit fails what the sweep judged on its own reading.** -/
theorem OpenSweep.get?_commit (sweep : OpenSweep) (db : Db) (id : String) :
    (sweep.commit settings db).runs.get? id = (db.runs.get? id).map fun run =>
      match judgeStored sweep.read settings sweep.moment id with
      | .fail reason => run.orphaned sweep.moment reason
      | _ => run := by
  rw [commit]
  dsimp only
  rw [Table.get?_mapRows]
  rcases hget : db.runs.get? id with - | run
  · rfl
  · obtain rfl : run.id = id := Table.key_of_get? hget
    rw [Option.map_some, Option.map_some]
    have hfailed := mem_failed_sweepOrphanedRuns settings sweep.moment sweep.read run.id
    have hrow := get?_sweepOrphanedRuns settings sweep.moment sweep.read run.id
    rcases hjudge : judgeStored sweep.read settings sweep.moment run.id with - | - | reason
    · rw [if_neg]
      rw [List.contains_iff_mem, hfailed, hjudge]
      rintro ⟨reason, h⟩
      cases h
    · rw [if_neg]
      rw [List.contains_iff_mem, hfailed, hjudge]
      rintro ⟨reason, h⟩
      cases h
    · rw [hjudge] at hfailed hrow
      dsimp only at hrow
      have hread : (sweep.read.runs.get? run.id).isSome = true := by
        rcases hnone : sweep.read.runs.get? run.id with - | read
        · rw [judgeStored, hnone] at hjudge
          cases hjudge
        · rfl
      obtain ⟨read, hread⟩ := Option.isSome_iff_exists.mp hread
      rw [if_pos (List.contains_iff_mem.mpr (hfailed.mpr ⟨reason, rfl⟩)), hrow, hread]
      rfl

/-- A finish answers the run of its job. -/
theorem get?_finish (db : Db) (runId : String) (moment : ℕ) {id : String} {run : Run}
    (hrun : db.runs.get? id = some run) :
    ∃ run', (conclude ((RunEvent.link runId).step settings db) runId moment).runs.get? id
        = some run' ∧
      (id ≠ runId → run'.status = run.status) ∧
      (id = runId → run'.status = .completed ∨ run'.status = .degraded) := by
  have hlink := RunEvent.get?_step_of_some settings db id (.link runId) hrun
  rw [conclude, Db.get?_writeRun, hlink]
  by_cases hid : id = runId
  · rw [if_pos hid, Option.map_some]
    refine ⟨_, rfl, fun hne => absurd hid hne, fun _ => ?_⟩
    rw [Run.concluded_status]
    split
    · exact Or.inl rfl
    · exact Or.inr rfl
  · rw [if_neg hid]
    refine ⟨_, rfl, fun _ => ?_, fun h => absurd h hid⟩
    simp [RunEvent.rewrite, hid]

end Rows

/-! ## One executor -/

section Invariant

variable {settings : SweepSettings} {w : Workshop}

/-- What holds of every workshop reached. -/
structure Orderly (w : Workshop) : Prop where
  once : (w.claims.map Job.runId).Nodup
  claimed : ∀ job ∈ w.claims, ∃ run, w.db.runs.get? job.runId = some run ∧ run.status ≠ .queued
  executing : w.executing.Sublist w.claims
  unanswered : ∀ job ∈ w.executing, ∀ run, w.db.runs.get? job.runId = some run →
    run.status = .running ∨ run.status = .failed

/-- A write that keeps the rows of the workers' runs as they must be keeps the order. -/
theorem Orderly.write (h : Orderly w) {db : Db} {executing : List Job}
    (hsub : executing.Sublist w.executing)
    (hclaimed : ∀ job ∈ w.claims, ∀ run, w.db.runs.get? job.runId = some run →
      run.status ≠ .queued → ∃ run', db.runs.get? job.runId = some run' ∧ run'.status ≠ .queued)
    (hopen : ∀ job ∈ executing, ∀ run run', w.db.runs.get? job.runId = some run →
      run.status = .running ∨ run.status = .failed → db.runs.get? job.runId = some run' →
      run'.status = .running ∨ run'.status = .failed) (sweeps : List OpenSweep) :
    Orderly ⟨db, executing, sweeps, w.claims⟩ where
  once := h.once
  claimed job hjob := by
    obtain ⟨run, hrun, hne⟩ := h.claimed job hjob
    exact hclaimed job hjob run hrun hne
  executing := hsub.trans h.executing
  unanswered job hjob run' hrun' := by
    have hmem : job ∈ w.executing := hsub.subset hjob
    obtain ⟨run, hrun, -⟩ := h.claimed job (h.executing.subset hmem)
    exact hopen job hjob run run' hrun (h.unanswered job hmem run hrun) hrun'

/-- A write that changes no status keeps the order. -/
theorem Orderly.write_of_status (h : Orderly w) {db : Db} {executing : List Job}
    (hsub : executing.Sublist w.executing)
    (hstatus : ∀ id run, w.db.runs.get? id = some run →
      ∃ run', db.runs.get? id = some run' ∧ run'.status = run.status) (sweeps : List OpenSweep) :
    Orderly ⟨db, executing, sweeps, w.claims⟩ := by
  refine h.write hsub (fun job _ run hrun hne => ?_) (fun job _ run run' hrun hor hrun' => ?_) sweeps
  · obtain ⟨run', hrun', hsame⟩ := hstatus job.runId run hrun
    exact ⟨run', hrun', hsame ▸ hne⟩
  · obtain ⟨run'', hrun'', hsame⟩ := hstatus job.runId run hrun
    obtain rfl := Option.some.inj (hrun'.symm.trans hrun'')
    exact hsame ▸ hor

/-- The job of a worker. -/
theorem mem_of_jobOf {worker : ℕ} {job : Job} (h : w.jobOf worker = some job) :
    job ∈ w.executing ∧ job.worker = worker :=
  ⟨List.mem_of_find?_eq_some h, by simpa using List.find?_some h⟩

/-- A worker that leaves was the only one in its run. -/
theorem Orderly.runId_ne (h : Orderly w) {worker : ℕ} {job other : Job}
    (hjob : w.jobOf worker = some job)
    (hother : other ∈ w.executing.filter fun job => job.worker != worker) :
    other.runId ≠ job.runId := by
  obtain ⟨hmem, hworker⟩ := mem_of_jobOf hjob
  obtain ⟨hin, hne⟩ := List.mem_filter.mp hother
  intro hsame
  have heq : other = job := List.inj_on_of_nodup_map h.once
    (h.executing.subset hin) (h.executing.subset hmem) hsame
  rw [heq, hworker] at hne
  simp at hne

/-- Rows that are only added to keep every row. -/
theorem get?_ingestArtifact {db : Db} {upload : Upload} {id : String} {run : Run}
    (hrun : db.runs.get? id = some run) :
    ((ingestArtifact db upload).getD db).runs.get? id = some run := by
  have hstep := RunEvent.get?_step_of_some {} db id (.ingest upload) hrun
  exact hstep

theorem runs_publish_getD (db : Db) (artifacts : List Artifact) (stages : List RunStage)
    (findings : List Finding) :
    ((publish db artifacts stages findings).getD db).runs = db.runs := by
  rcases hpub : publish db artifacts stages findings with - | db'
  · rfl
  · exact (runs_publish hpub).1

/-- **A claim takes a queued run that nobody ever claimed.** -/
theorem claim_eq_true {db : Db} {runId : String} {moment : ℕ}
    (h : (claim db runId moment).2 = true) :
    ∃ run, db.runs.get? runId = some run ∧ run.status = .queued := by
  rw [claim] at h
  rcases hget : db.runs.get? runId with - | run
  · rw [hget] at h
    cases h
  · rw [hget] at h
    dsimp only at h
    split at h
    · rename_i hq
      exact ⟨run, rfl, hq⟩
    · cases h

/-- **One event keeps the order.** -/
theorem Orderly.step (h : Orderly w) (e : WorkEvent) : Orderly (e.step settings w) := by
  rcases e with upload | ⟨worker, runId, moment⟩ | ⟨worker, artifacts, stages, findings⟩ |
    ⟨worker, moment⟩ | ⟨worker, message, moment⟩ | worker | ⟨id, moment⟩ | id
  · exact h.write_of_status (List.Sublist.refl _)
      (fun id run hrun => ⟨run, get?_ingestArtifact hrun, rfl⟩) w.sweeps
  · rw [WorkEvent.step]
    split
    · exact h
    split
    swap
    · exact h
    rename_i hclaim
    obtain ⟨run, hrun, hq⟩ := claim_eq_true hclaim
    have hfresh : ∀ job ∈ w.claims, job.runId ≠ runId := by
      rintro job hjob rfl
      obtain ⟨run', hrun', hne⟩ := h.claimed job hjob
      obtain rfl := Option.some.inj (hrun.symm.trans hrun')
      exact hne hq
    have hother : ∀ {id}, id ≠ runId →
        (claim w.db runId moment).1.runs.get? id = w.db.runs.get? id := by
      intro id hid
      rw [get?_claim, if_neg hid]
    have hself : (claim w.db runId moment).1.runs.get? runId = some (run.claimed moment) := by
      rw [get?_claim, if_pos rfl, hrun, Option.map_some, if_pos hq]
    refine ⟨?_, ?_, h.executing.cons_cons _, ?_⟩
    · refine List.nodup_cons.mpr ⟨fun hmem => ?_, h.once⟩
      obtain ⟨job, hjob, hid⟩ := List.mem_map.mp hmem
      exact hfresh job hjob hid
    · intro job hjob
      obtain rfl | hold := List.mem_cons.mp hjob
      · exact ⟨_, hself, by simp [Run.claimed]⟩
      · rw [hother (hfresh job hold)]
        exact h.claimed job hold
    · intro job hjob run' hrun'
      obtain rfl | hold := List.mem_cons.mp hjob
      · obtain rfl := Option.some.inj (hself.symm.trans hrun')
        exact Or.inl rfl
      · rw [hother (hfresh job (h.executing.subset hold))] at hrun'
        exact h.unanswered job hold run' hrun'
  · rw [WorkEvent.step]
    split
    · exact h
    · refine h.write_of_status (List.Sublist.refl _) (fun id run hrun => ⟨run, ?_, rfl⟩) w.sweeps
      rw [runs_publish_getD]
      exact hrun
  · rw [WorkEvent.step]
    split
    · exact h
    rename_i job hjob
    refine h.write (List.filter_sublist) (fun other hother run hrun hne => ?_)
      (fun other hother run run' hrun hor hrun' => ?_) w.sweeps
    · obtain ⟨run', hrun', hsame, hanswer⟩ := get?_finish settings w.db job.runId moment hrun
      refine ⟨run', hrun', ?_⟩
      by_cases hid : other.runId = job.runId
      · obtain hdone | hdone := hanswer hid <;> rw [hdone] <;> decide
      · rw [hsame hid]
        exact hne
    · obtain ⟨run'', hrun'', hsame, -⟩ := get?_finish settings w.db job.runId moment hrun
      obtain rfl := Option.some.inj (hrun'.symm.trans hrun'')
      rw [hsame (h.runId_ne hjob hother)]
      exact hor
  · rw [WorkEvent.step]
    split
    · exact h
    rename_i job hjob
    refine h.write (List.filter_sublist) (fun other hother run hrun hne => ?_)
      (fun other hother run run' hrun hor hrun' => ?_) w.sweeps
    · rw [abandon, Db.get?_writeRun]
      split
      · exact ⟨_, by rw [hrun, Option.map_some], by simp [Run.abandoned]⟩
      · exact ⟨run, hrun, hne⟩
    · rw [abandon, Db.get?_writeRun, if_neg (h.runId_ne hjob hother), hrun] at hrun'
      obtain rfl := Option.some.inj hrun'
      exact hor
  · exact h.write_of_status List.filter_sublist (fun id run hrun => ⟨run, hrun, rfl⟩) w.sweeps
  · exact h.write_of_status (List.Sublist.refl _) (fun id run hrun => ⟨run, hrun, rfl⟩) _
  · rw [WorkEvent.step]
    split
    · exact h
    rename_i sweep hsweep
    refine h.write (List.Sublist.refl _) (fun other hother run hrun hne => ?_)
      (fun other hother run run' hrun hor hrun' => ?_) _
    · rw [sweep.get?_commit, hrun, Option.map_some]
      refine ⟨_, rfl, ?_⟩
      split
      · exact fun hq => by cases hq
      · exact hne
    · rw [sweep.get?_commit, hrun, Option.map_some] at hrun'
      obtain rfl := Option.some.inj hrun'
      split
      · exact Or.inr rfl
      · exact hor

/-- **Every workshop reached is in order.** -/
theorem orderly_after (events : List WorkEvent) :
    Orderly (after (WorkEvent.step settings) {} events) := by
  refine invariant_of_step (fun w e h => h.step e) ?_ events
  exact ⟨List.nodup_nil, by simp, List.Sublist.refl _, by simp⟩

end Invariant

/-! ## One answer -/

/-- What stands in the first database stands in the second. -/
def AnswersStand (db db' : Db) : Prop :=
  ∀ id run, db.runs.get? id = some run → run.status.isTerminal = true →
    ∃ run', db'.runs.get? id = some run' ∧ run'.status = run.status

section Answers

variable {settings : SweepSettings} {w : Workshop}

theorem AnswersStand.trans {db db' db'' : Db} (h : AnswersStand db db')
    (h' : AnswersStand db' db'') : AnswersStand db db'' := by
  intro id run hrun hterm
  obtain ⟨run', hrun', hsame⟩ := h id run hrun hterm
  obtain ⟨run'', hrun'', hsame'⟩ := h' id run' hrun' (hsame ▸ hterm)
  exact ⟨run'', hrun'', hsame'.trans hsame⟩

/-- A run in a worker's hands that is finished has been failed by a sweep. -/
theorem Orderly.failed_of_isTerminal (h : Orderly w) {worker : ℕ} {job : Job} {run : Run}
    (hjob : w.jobOf worker = some job) (hrun : w.db.runs.get? job.runId = some run)
    (hterm : run.status.isTerminal = true) : run.status = .failed := by
  obtain hrunning | hfailed := h.unanswered job (mem_of_jobOf hjob).1 run hrun
  · rw [hrunning] at hterm
    cases hterm
  · exact hfailed

/-- **An event lets the answers stand exactly when it disturbs nothing.** -/
theorem answersStand_step_iff (h : Orderly w) (e : WorkEvent) :
    AnswersStand w.db (e.step settings w).db ↔ Undisturbed settings w e := by
  rcases e with upload | ⟨worker, runId, moment⟩ | ⟨worker, artifacts, stages, findings⟩ |
    ⟨worker, moment⟩ | ⟨worker, message, moment⟩ | worker | ⟨id, moment⟩ | id
  case ingest =>
    exact iff_of_true (fun id run hrun _ => ⟨run, get?_ingestArtifact hrun, rfl⟩) trivial
  case deliver =>
    refine iff_of_true (fun id run hrun hterm => ⟨run, ?_, rfl⟩) trivial
    rw [WorkEvent.step]
    split
    · exact hrun
    split
    · rw [get?_claim]
      split
      · rw [hrun, Option.map_some, if_neg]
        intro hq
        rw [hq] at hterm
        cases hterm
      · exact hrun
    · exact hrun
  case checkpoint =>
    refine iff_of_true (fun id run hrun _ => ⟨run, ?_, rfl⟩) trivial
    rw [WorkEvent.step]
    split
    · exact hrun
    · rw [runs_publish_getD]
      exact hrun
  case finish =>
    rw [WorkEvent.step, Undisturbed]
    rcases hjob : w.jobOf worker with - | job
    · exact iff_of_true (fun id run hrun _ => ⟨run, hrun, rfl⟩) fun job run h => by cases h
    constructor
    · rintro hstand job' run hjob' hrun hfailed
      obtain rfl := Option.some.inj hjob'
      obtain ⟨run', hrun', hsame⟩ := hstand job.runId run hrun (by rw [hfailed]; rfl)
      obtain ⟨run'', hrun'', -, hanswer⟩ := get?_finish settings w.db job.runId moment hrun
      obtain rfl := Option.some.inj (hrun'.symm.trans hrun'')
      rw [hsame, hfailed] at hanswer
      obtain hdone | hdone := hanswer rfl <;> cases hdone
    · intro hopen id run hrun hterm
      obtain ⟨run', hrun', hsame, -⟩ := get?_finish settings w.db job.runId moment hrun
      refine ⟨run', hrun', hsame ?_⟩
      rintro rfl
      exact hopen job run rfl hrun (h.failed_of_isTerminal hjob hrun hterm)
  case crash =>
    refine iff_of_true (fun id run hrun hterm => ?_) trivial
    rw [WorkEvent.step]
    rcases hjob : w.jobOf worker with - | job
    · exact ⟨run, hrun, rfl⟩
    · dsimp only
      rw [abandon, Db.get?_writeRun]
      split
      · rename_i hid
        subst hid
        rw [hrun, Option.map_some]
        exact ⟨_, rfl, (h.failed_of_isTerminal hjob hrun hterm).symm⟩
      · exact ⟨run, hrun, rfl⟩
  case die | readSweep =>
    exact iff_of_true (fun id run hrun _ => ⟨run, hrun, rfl⟩) trivial
  case commitSweep =>
    rw [WorkEvent.step, Undisturbed]
    rcases hsweep : w.sweepOf id with - | sweep
    · exact iff_of_true (fun id run hrun _ => ⟨run, hrun, rfl⟩) fun s i r run h => by cases h
    constructor
    · rintro hstand sweep' runId reason run hsweep' hjudge hrun hterm
      obtain rfl := Option.some.inj hsweep'
      obtain ⟨run', hrun', hsame⟩ := hstand runId run hrun hterm
      rw [sweep.get?_commit, hrun, Option.map_some, hjudge] at hrun'
      obtain rfl := Option.some.inj hrun'
      exact hsame.symm
    · intro hquiet runId run hrun hterm
      dsimp only
      rw [sweep.get?_commit, hrun, Option.map_some]
      refine ⟨_, rfl, ?_⟩
      split
      · rename_i reason hjudge
        exact (hquiet sweep runId reason run rfl hjudge hrun hterm).symm
      · rfl

end Answers

/-- **A run has one executor in every interleaving, and one final answer exactly in the undisturbed
ones.** -/
theorem oneAnswer_iff (settings : SweepSettings) (events : List WorkEvent) :
    (∀ pre, pre <+: events → ∀ runId,
      ((after (WorkEvent.step settings) {} pre).executorsOf runId).length ≤ 1) ∧
    (FinalAnswers settings events ↔
      Throughout (WorkEvent.step settings) (Undisturbed settings) {} events) := by
  constructor
  · intro pre _ runId
    have hnodup := (@orderly_after settings pre).once
    rw [Workshop.executorsOf, List.length_map, ← List.countP_eq_length_filter]
    have hcount := List.nodup_iff_count_le_one.mp hnodup runId
    rwa [List.count, List.countP_map] at hcount
  · refine (forall_later_iff_throughout (R := fun w w' : Workshop => AnswersStand w.db w'.db)
      (fun w id run hrun _ => ⟨run, hrun, rfl⟩) (fun _ _ _ h h' => h.trans h') {} events).trans ?_
    rw [throughout_iff, throughout_iff]
    refine forall_congr' fun pre => forall_congr' fun e => imp_congr_right fun _ => ?_
    exact answersStand_step_iff (orderly_after pre) e

/-! ## A slow scan -/

/-- A scan that takes longer than the timeout, and a sweep in the meantime. -/
def slowScan : List WorkEvent :=
  [.ingest { runId := "run", artifactId := "a", filename := "app.zip" },
    .deliver 1 "run" 1000000, .readSweep 1 3700000000, .commitSweep 1, .finish 1 3800000000]

/-- **The sweep fails the run under its worker, and the worker completes it afterwards.** -/
theorem slowScan_has_two_answers :
    ((after (WorkEvent.step {}) {} (slowScan.take 4)).db.runs.get? "run").map Run.status
        = some .failed ∧
      ((after (WorkEvent.step {}) {} slowScan).db.runs.get? "run").map Run.status
        = some .completed ∧
      ¬ ∀ events, FinalAnswers {} events := by
  refine ⟨by decide +kernel, by decide +kernel, fun h => ?_⟩
  obtain ⟨run, hrun, hfailed⟩ : ∃ run, (after (WorkEvent.step {}) {} (slowScan.take 4)).db.runs.get?
      "run" = some run ∧ run.status = .failed := ⟨_, rfl, by decide +kernel⟩
  obtain ⟨run', hrun', hsame⟩ := h slowScan (slowScan.take 4) slowScan (List.take_prefix _ _)
    List.prefix_rfl "run" run hrun (by rw [hfailed]; rfl)
  have hdone : ((after (WorkEvent.step {}) {} slowScan).db.runs.get? "run").map Run.status
      = some .completed := by decide +kernel
  rw [hrun', Option.map_some, hsame, hfailed] at hdone
  cases hdone

end BareAnalysis
