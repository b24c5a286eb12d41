import BareAnalysis.Foundations.Session

/-!
# Pipeline/Recovery — runs whose task was lost

                     age < grace ──▸ leave
    queued, unstarted ┤
                     age ≥ grace ──▸ requeue, at most `maxRequeueAttempts` times; then fail
    anything else     age ≥ timeout ─▸ fail

`core/pipeline/recovery.py`.  The age of a run is measured from its start, or from its creation when
it has none; its attempts are counted from the audit rows earlier sweeps left.
-/

namespace BareAnalysis

/-- `RecoverySweep`: what one sweep did. -/
structure RecoverySweep where
  requeued : List String := []
  failed : List String := []
  inspected : ℕ := 0
  deriving DecidableEq, Repr

/-- The settings a sweep runs under, with the defaults of the module. -/
structure SweepSettings where
  queuedGraceS : ℤ := 300
  runningTimeoutS : ℤ := 3600
  maxRequeueAttempts : ℤ := 2
  deriving DecidableEq, Repr

/-- `timedelta(seconds=s)`, in microseconds. -/
def timedelta (s : ℤ) : ℤ := s * 1000000

/-- `int(age.total_seconds())`. -/
def totalSeconds (age : ℤ) : ℤ := age.tdiv 1000000

/-- How long ago the run began, or was submitted if it never did. -/
def Run.age (run : Run) (moment : ℕ) : ℤ := moment - run.startedAt.getD run.createdAt

/-- `_requeue_attempts`. -/
def requeueAttempts (db : Db) (runId : String) : ℕ :=
  db.recoveries.countP fun a => a.runId == runId && a.action == .runRequeued

/-- Queued, and no worker ever claimed it. -/
def Run.isUnclaimed (run : Run) : Bool := run.status == .queued && run.startedAt.isNone

/-- What a sweep makes of one run. -/
inductive Judgement
  | leave
  | requeue
  | fail (reason : String)
  deriving DecidableEq, Repr

/-- The branches of the sweep's loop body. -/
def SweepSettings.judge (settings : SweepSettings) (moment : ℕ) (attempts : ℕ) (run : Run) :
    Judgement :=
  if run.isUnclaimed then
    if run.age moment < timedelta settings.queuedGraceS then .leave
    else if settings.maxRequeueAttempts ≤ attempts then
      .fail ("orphaned in the queue: no worker claimed it after " ++ toString attempts
        ++ " requeue attempts")
    else .requeue
  else if timedelta settings.runningTimeoutS ≤ run.age moment then
    .fail ("orphaned mid-analysis: no progress for " ++ toString (totalSeconds (run.age moment))
      ++ "s, past every stage timeout")
  else .leave

/-- `run.status = FAILED`, with the reason. -/
def Run.orphaned (run : Run) (moment : ℕ) (reason : String) : Run :=
  { run with status := .failed, finishedAt := some moment, error := some reason }

@[simp] theorem Run.orphaned_id (run : Run) (moment : ℕ) (reason : String) :
    (run.orphaned moment reason).id = run.id := rfl

/-- `_fail`. -/
def failOrphan (db : Db) (runId : String) (moment : ℕ) (reason : String) : Db :=
  { db with
    runs := db.runs.modify runId (·.orphaned moment reason) fun run => run.orphaned_id moment reason
    recoveries := db.recoveries ++ [{ action := .runOrphaned, runId, reason }] }

/-- The audit row of a requeue. -/
def requeueRow (run : Run) (moment : ℕ) (attempts : ℕ) : RecoveryAudit where
  action := .runRequeued
  runId := run.id
  reason := "queued past the grace period with no worker"
  ageSeconds := some (totalSeconds (run.age moment))
  attempt := some (attempts + 1)

/-- One turn of the sweep's loop. -/
def sweepRun (settings : SweepSettings) (moment : ℕ) (acc : Db × RecoverySweep) (run : Run) :
    Db × RecoverySweep :=
  let attempts := requeueAttempts acc.1 run.id
  match settings.judge moment attempts run with
  | .leave => acc
  | .requeue =>
    ({ acc.1 with recoveries := acc.1.recoveries ++ [requeueRow run moment attempts] },
      { acc.2 with requeued := acc.2.requeued ++ [run.id] })
  | .fail reason =>
    (failOrphan acc.1 run.id moment reason, { acc.2 with failed := acc.2.failed ++ [run.id] })

/-- The runs a sweep looks at. -/
def sweepCandidates (db : Db) : List Run :=
  db.runs.select fun run => run.status == .queued || run.status == .running

/-- `sweep_orphaned_runs`. -/
def sweepOrphanedRuns (db : Db) (settings : SweepSettings) (moment : ℕ) : Db × RecoverySweep :=
  let candidates := sweepCandidates db
  candidates.foldl (sweepRun settings moment) (db, { inspected := candidates.length })

/-! ## What a sweep does to one run -/

/-- What a sweep in progress holds about one run. -/
structure RunView where
  row : Option Run
  attempts : ℕ
  requeued : Bool
  failed : Bool

/-- The view of a run in a sweep in progress. -/
def viewOf (id : String) (acc : Db × RecoverySweep) : RunView where
  row := acc.1.runs.get? id
  attempts := requeueAttempts acc.1 id
  requeued := acc.2.requeued.contains id
  failed := acc.2.failed.contains id

/-- …and what a judgement makes of it. -/
def RunView.judged (v : RunView) (moment : ℕ) : Judgement → RunView
  | .leave => v
  | .requeue => { v with attempts := v.attempts + 1, requeued := true }
  | .fail reason => { v with row := v.row.map (·.orphaned moment reason), failed := true }

/-- The judgement a stored run gets: a finished or missing run is no candidate. -/
def judgeStored (db : Db) (settings : SweepSettings) (moment : ℕ) (id : String) : Judgement :=
  match db.runs.get? id with
  | none => .leave
  | some run =>
    if run.status.isTerminal then .leave else settings.judge moment (requeueAttempts db id) run

section Sweep

variable (settings : SweepSettings) (moment : ℕ)

theorem get?_failOrphan (db : Db) (runId : String) (reason : String) (id : String) :
    (failOrphan db runId moment reason).runs.get? id
      = if id = runId then (db.runs.get? id).map (·.orphaned moment reason) else db.runs.get? id :=
  Table.get?_modify db.runs runId (·.orphaned moment reason)
    (fun run => run.orphaned_id moment reason) id

theorem contains_concat_self (l : List String) (id : String) : (l ++ [id]).contains id = true := by
  simp

theorem contains_concat_of_ne {l : List String} {id id' : String} (h : id' ≠ id) :
    (l ++ [id']).contains id = l.contains id := by
  simp [h.symm]

/-- One turn judges the run it is about… -/
theorem viewOf_sweepRun_self (acc : Db × RecoverySweep) (run : Run) :
    viewOf run.id (sweepRun settings moment acc run)
      = (viewOf run.id acc).judged moment
          (settings.judge moment (viewOf run.id acc).attempts run) := by
  rw [sweepRun, show (viewOf run.id acc).attempts = requeueAttempts acc.1 run.id from rfl]
  rcases settings.judge moment (requeueAttempts acc.1 run.id) run with - | - | reason
  · rfl
  · rw [viewOf, contains_concat_self]
    simp [viewOf, RunView.judged, requeueAttempts, requeueRow]
  · rw [viewOf, get?_failOrphan, if_pos rfl, contains_concat_self]
    simp [viewOf, RunView.judged, requeueAttempts, failOrphan]

/-- …and leaves every other alone. -/
theorem viewOf_sweepRun_of_ne (acc : Db × RecoverySweep) {run : Run} {id : String}
    (h : run.id ≠ id) : viewOf id (sweepRun settings moment acc run) = viewOf id acc := by
  rw [sweepRun]
  rcases settings.judge moment (requeueAttempts acc.1 run.id) run with - | - | reason
  · rfl
  · rw [viewOf, contains_concat_of_ne h]
    simp [viewOf, requeueAttempts, requeueRow, h]
  · rw [viewOf, get?_failOrphan, if_neg h.symm, contains_concat_of_ne h]
    simp [viewOf, requeueAttempts, failOrphan]

/-- The loop judges a run once, when its turn comes. -/
theorem viewOf_foldl_sweepRun (id : String) (candidates : List Run)
    (hnodup : (candidates.map Run.id).Nodup) (acc : Db × RecoverySweep) :
    viewOf id (candidates.foldl (sweepRun settings moment) acc)
      = match candidates.find? fun run => decide (run.id = id) with
        | none => viewOf id acc
        | some run => (viewOf id acc).judged moment
            (settings.judge moment (viewOf id acc).attempts run) := by
  induction candidates generalizing acc with
  | nil => rfl
  | cons run rest ih =>
    obtain ⟨hfresh, hrest⟩ := List.nodup_cons.mp hnodup
    rw [List.foldl_cons, ih hrest]
    by_cases hid : run.id = id
    · subst hid
      have hnone : (rest.find? fun other => decide (other.id = run.id)) = none := by
        rw [List.find?_eq_none]
        intro other hother heq
        exact hfresh (of_decide_eq_true heq ▸ List.mem_map_of_mem hother)
      rw [hnone, List.find?_cons_of_pos (by simp)]
      exact viewOf_sweepRun_self settings moment acc run
    · rw [List.find?_cons_of_neg (by simpa using hid),
        viewOf_sweepRun_of_ne settings moment acc hid]

/-- A run is a candidate as long as it is not finished. -/
theorem find?_sweepCandidates (db : Db) (id : String) :
    ((sweepCandidates db).find? fun run => decide (run.id = id))
      = (db.runs.get? id).filter fun run => !run.status.isTerminal := by
  have hstatus : ∀ run : Run,
      (run.status == .queued || run.status == .running) = !run.status.isTerminal := by
    intro run
    rcases run.status with - | - | - | - | - | - <;> rfl
  rcases hget : db.runs.get? id with - | run
  · rw [Option.filter_none, List.find?_eq_none]
    intro other hother heq
    exact Table.get?_eq_none.mp hget other (Table.mem_select.mp hother).1 (of_decide_eq_true heq)
  · obtain ⟨hmem, rfl⟩ := Table.get?_eq_some.mp hget
    rcases hfind : (sweepCandidates db).find? fun other => decide (other.id = run.id) with - | other
    · have hnot : run ∉ sweepCandidates db := by
        intro hcand
        exact List.find?_eq_none.mp hfind run hcand (decide_eq_true rfl)
      have hterm : run.status.isTerminal = true := by
        by_contra hne
        exact hnot (Table.mem_select.mpr ⟨hmem, by rw [hstatus, Bool.eq_false_of_not_eq_true hne]; rfl⟩)
      rw [hfind, Option.filter_some, hterm]
      rfl
    · obtain ⟨hother, hcand⟩ := Table.mem_select.mp (List.mem_of_find?_eq_some hfind)
      have hid : other.id = run.id := by simpa using List.find?_some hfind
      obtain rfl : other = run := db.runs.eq_of_key_eq hother hmem hid
      rw [hfind, Option.filter_some, ← hstatus, hcand]
      rfl

/-- **What a sweep does to one run**, in its row, in its attempts and in the report. -/
theorem viewOf_sweepOrphanedRuns (db : Db) (id : String) :
    viewOf id (sweepOrphanedRuns db settings moment)
      = (RunView.mk (db.runs.get? id) (requeueAttempts db id) false false).judged moment
          (judgeStored db settings moment id) := by
  have hnodup : ((sweepCandidates db).map Run.id).Nodup :=
    db.runs.nodup_keys.sublist (List.filter_sublist.map Run.id)
  rw [sweepOrphanedRuns, viewOf_foldl_sweepRun settings moment id _ hnodup,
    find?_sweepCandidates, judgeStored]
  have hstart : viewOf id (db, { inspected := (sweepCandidates db).length })
      = RunView.mk (db.runs.get? id) (requeueAttempts db id) false false := rfl
  rw [hstart]
  rcases db.runs.get? id with - | run
  · rfl
  · by_cases hterm : run.status.isTerminal = true
    · rw [Option.filter_some_neg (by simp [hterm])]
      simp [hterm, RunView.judged]
    · rw [Option.filter_some_pos (by simp [hterm])]
      simp [hterm]

theorem get?_sweepOrphanedRuns (db : Db) (id : String) :
    (sweepOrphanedRuns db settings moment).1.runs.get? id
      = match judgeStored db settings moment id with
        | .fail reason => (db.runs.get? id).map (·.orphaned moment reason)
        | _ => db.runs.get? id := by
  have hrow := congrArg RunView.row (viewOf_sweepOrphanedRuns settings moment db id)
  revert hrow
  rcases judgeStored db settings moment id with - | - | reason <;> exact fun h => h

theorem requeueAttempts_sweepOrphanedRuns (db : Db) (id : String) :
    requeueAttempts (sweepOrphanedRuns db settings moment).1 id
      = requeueAttempts db id
          + if judgeStored db settings moment id = .requeue then 1 else 0 := by
  have hattempts := congrArg RunView.attempts (viewOf_sweepOrphanedRuns settings moment db id)
  revert hattempts
  rcases judgeStored db settings moment id with - | - | reason <;> exact fun h => h

theorem mem_requeued_sweepOrphanedRuns (db : Db) (id : String) :
    id ∈ (sweepOrphanedRuns db settings moment).2.requeued
      ↔ judgeStored db settings moment id = .requeue := by
  have hrequeued := congrArg RunView.requeued (viewOf_sweepOrphanedRuns settings moment db id)
  rw [← List.contains_iff_mem]
  revert hrequeued
  rcases judgeStored db settings moment id with - | - | reason <;>
    simp [viewOf, RunView.judged]

theorem mem_failed_sweepOrphanedRuns (db : Db) (id : String) :
    id ∈ (sweepOrphanedRuns db settings moment).2.failed
      ↔ ∃ reason, judgeStored db settings moment id = .fail reason := by
  have hfailed := congrArg RunView.failed (viewOf_sweepOrphanedRuns settings moment db id)
  rw [← List.contains_iff_mem]
  revert hfailed
  rcases judgeStored db settings moment id with - | - | reason <;>
    simp [viewOf, RunView.judged]

end Sweep

end BareAnalysis
