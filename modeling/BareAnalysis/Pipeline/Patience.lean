import BareAnalysis.Pipeline.Runs

/-!
# Pipeline/Patience — how long a queued run is left alone

    created ──grace──▸ requeue ──?──▸ requeue ──?──▸ fail

The first wait is the grace period.  A requeue leaves no mark on the run's row, so the next sweep
finds the same age and acts again: the other waits are as long as the sweeps happen to be apart.
`patient_iff` says which histories of sweeps are patient with a run.
-/

namespace BareAnalysis

open History

variable (settings : SweepSettings) (id : String)

/-- Queued past the grace period at this moment, with no worker. -/
def IsOverdue (db : Db) (moment : ℕ) : Prop :=
  ∃ run, db.runs.get? id = some run ∧ run.isUnclaimed = true ∧
    timedelta settings.queuedGraceS ≤ run.age moment

instance (db : Db) (moment : ℕ) : Decidable (IsOverdue settings id db moment) :=
  match h : db.runs.get? id with
  | none => isFalse fun ⟨_, hrun, _⟩ => by rw [h] at hrun; cases hrun
  | some run =>
    if hdue : run.isUnclaimed = true ∧ timedelta settings.queuedGraceS ≤ run.age moment then
      isTrue ⟨run, h, hdue⟩
    else isFalse fun ⟨_, hrun, hdue'⟩ => hdue (Option.some.inj (h.symm.trans hrun) ▸ hdue')

/-- The moment of a sweep that finds the run overdue. -/
def RunEvent.notices (db : Db) : RunEvent → Option ℕ
  | .sweep moment => if IsOverdue settings id db moment then some moment else none
  | _ => none

/-- The moment of a sweep that requeues the run. -/
def RunEvent.requeues (db : Db) : RunEvent → Option ℕ
  | .sweep moment =>
    if id ∈ (sweepOrphanedRuns db settings moment).2.requeued then some moment else none
  | _ => none

/-- The moments of a history at which a sweep requeued the run. -/
def requeuesOf (events : List RunEvent) : List ℕ :=
  observed (RunEvent.step settings) (RunEvent.requeues settings id) {} events

/-- …and those at which a sweep found it overdue. -/
def noticesOf (events : List RunEvent) : List ℕ :=
  observed (RunEvent.step settings) (RunEvent.notices settings id) {} events

/-- The second moment is a grace period after the first. -/
def GraceApart (t u : ℕ) : Prop := (t : ℤ) + timedelta settings.queuedGraceS ≤ u

/-- Requeues are a grace period apart, and a run is given up on in the queue after all of them, each
with a grace period of its own. -/
structure Patient (events : List RunEvent) : Prop where
  apart : (requeuesOf settings id events).Pairwise (GraceApart settings)
  lastResort : ∀ pre moment, pre ++ [.sweep moment] <+: events →
    (∃ run, (after (RunEvent.step settings) {} pre).runs.get? id = some run ∧
      run.isUnclaimed = true) →
    id ∈ (sweepOrphanedRuns (after (RunEvent.step settings) {} pre) settings moment).2.failed →
    settings.maxRequeueAttempts ≤ (requeuesOf settings id pre).length ∧
      ∀ t ∈ requeuesOf settings id pre, GraceApart settings t moment

/-! ## What a sweep does with an unclaimed run -/

section Sweep

variable {settings : SweepSettings} {id : String} {db : Db} {run : Run} {moment : ℕ}

theorem isTerminal_of_isUnclaimed (h : run.isUnclaimed = true) : run.status.isTerminal = false := by
  have hq : run.status = .queued := by
    rw [Run.isUnclaimed, Bool.and_eq_true] at h
    exact beq_iff_eq.mp h.1
  rw [hq]
  rfl

/-- **An unclaimed run is left in peace, requeued or given up on.** -/
theorem judgeStored_of_isUnclaimed (hrun : db.runs.get? id = some run)
    (hun : run.isUnclaimed = true) :
    judgeStored db settings moment id
      = if IsOverdue settings id db moment then
          if settings.maxRequeueAttempts ≤ requeueAttempts db id then
            .fail ("orphaned in the queue: no worker claimed it after "
              ++ toString (requeueAttempts db id) ++ " requeue attempts")
          else .requeue
        else .leave := by
  have hover : IsOverdue settings id db moment ↔
      timedelta settings.queuedGraceS ≤ run.age moment := by
    constructor
    · rintro ⟨run', hrun', -, hage⟩
      obtain rfl := Option.some.inj (hrun.symm.trans hrun')
      exact hage
    · intro hage
      exact ⟨run, hrun, hun, hage⟩
  rw [judgeStored, hrun]
  dsimp only
  rw [isTerminal_of_isUnclaimed hun, if_neg Bool.false_ne_true, SweepSettings.judge, if_pos hun]
  by_cases hage : timedelta settings.queuedGraceS ≤ run.age moment
  · rw [if_neg (not_lt.mpr hage), if_pos (hover.mpr hage)]
  · rw [if_pos (not_le.mp hage), if_neg (fun h => hage (hover.mp h))]

/-- **Only an overdue run is requeued**, and only while it has attempts left. -/
theorem judgeStored_eq_requeue :
    judgeStored db settings moment id = .requeue ↔ IsOverdue settings id db moment ∧
      ¬settings.maxRequeueAttempts ≤ requeueAttempts db id := by
  constructor
  · intro hjudge
    have hstored := hjudge
    rw [judgeStored] at hjudge
    rcases hrun : db.runs.get? id with - | run
    · rw [hrun] at hjudge
      cases hjudge
    · rw [hrun] at hjudge
      dsimp only at hjudge
      by_cases hun : run.isUnclaimed = true
      · rw [judgeStored_of_isUnclaimed hrun hun] at hstored
        split at hstored
        · rename_i hover
          split at hstored
          · cases hstored
          · rename_i hleft
            exact ⟨hover, hleft⟩
        · cases hstored
      · rw [SweepSettings.judge, if_neg hun] at hjudge
        split at hjudge
        · cases hjudge
        · split at hjudge <;> cases hjudge
  · rintro ⟨hover, hleft⟩
    have hdue := hover
    obtain ⟨run, hrun, hun, -⟩ := hdue
    rw [judgeStored_of_isUnclaimed hrun hun, if_pos hover, if_neg hleft]

end Sweep

/-! ## The two lists of moments along a history -/

/-- What the requeues `rs` and the notices `ns` so far say about the state reached. -/
structure Ledger (db : Db) (rs ns : List ℕ) : Prop where
  counted : requeueAttempts db id = rs.length
  fresh : db.runs.get? id = none → rs = [] ∧ ns = []
  /-- As long as the run waits, every notice so far was a requeue. -/
  waiting : ∀ run, db.runs.get? id = some run → run.isUnclaimed = true → ns = rs
  sub : rs.Sublist ns

section Event

variable {settings : SweepSettings} {id : String} {db : Db}

theorem requeues_sweep (moment : ℕ) :
    RunEvent.requeues settings id db (.sweep moment)
      = if IsOverdue settings id db moment ∧
          ¬settings.maxRequeueAttempts ≤ requeueAttempts db id then some moment else none := by
  rw [RunEvent.requeues]
  exact if_congr ((mem_requeued_sweepOrphanedRuns settings moment db id).trans
    judgeStored_eq_requeue) rfl rfl

/-- A requeue is a notice. -/
theorem requeues_sublist_notices (e : RunEvent) :
    (RunEvent.requeues settings id db e).toList.Sublist
      (RunEvent.notices settings id db e).toList := by
  rcases e with upload | ⟨runId, moment⟩ | ⟨artifacts, stages, findings⟩ | runId |
    ⟨runId, moment⟩ | ⟨runId, message, moment⟩ | moment
  case sweep =>
    rw [requeues_sweep, RunEvent.notices]
    by_cases hover : IsOverdue settings id db moment
    · rw [if_pos hover]
      split
      · exact List.Sublist.refl _
      · exact List.nil_sublist _
    · rw [if_neg hover, if_neg fun h => hover h.1]
  all_goals exact List.Sublist.refl _

/-- A run that is not stored is neither noticed nor requeued. -/
theorem notices_of_get?_none (h : db.runs.get? id = none) (e : RunEvent) :
    RunEvent.notices settings id db e = none := by
  rcases e with upload | ⟨runId, moment⟩ | ⟨artifacts, stages, findings⟩ | runId |
    ⟨runId, moment⟩ | ⟨runId, message, moment⟩ | moment
  case sweep =>
    refine if_neg ?_
    rintro ⟨run, hrun, -⟩
    rw [h] at hrun
    cases hrun
  all_goals rfl

/-- **A requeue is the one thing that adds an attempt.** -/
theorem requeueAttempts_step (e : RunEvent) :
    requeueAttempts (e.step settings db) id
      = requeueAttempts db id + (RunEvent.requeues settings id db e).toList.length := by
  have hsame : ∀ {db' : Db}, db'.recoveries = db.recoveries →
      requeueAttempts db' id = requeueAttempts db id := by
    intro db' hrec
    rw [requeueAttempts, hrec]
    rfl
  rcases e with upload | ⟨runId, moment⟩ | ⟨artifacts, stages, findings⟩ | runId |
    ⟨runId, moment⟩ | ⟨runId, message, moment⟩ | moment
  · refine hsame ?_
    rw [RunEvent.step]
    rcases hing : ingestArtifact db upload with - | db'
    · rfl
    · exact (ingestArtifact_eq_some hing).2
  · refine hsame ?_
    rw [RunEvent.step, claim]
    split
    · rfl
    · split <;> rfl
  · refine hsame ?_
    rw [RunEvent.step]
    rcases hpub : BareAnalysis.publish db artifacts stages findings with - | db'
    · rfl
    · exact (runs_publish hpub).2
  · refine hsame ?_
    rw [RunEvent.step]
    split
    · rfl
    · rw [linkPreviousRun]
      split <;> rfl
  · exact hsame rfl
  · exact hsame rfl
  · rw [RunEvent.step, requeueAttempts_sweepOrphanedRuns, requeues_sweep]
    simp only [judgeStored_eq_requeue]
    split <;> rfl

/-- **A run that waits after an event** waited before it, and was not given up on; or it was
uploaded. -/
theorem waiting_of_step {e : RunEvent} {run' : Run}
    (hrun' : (e.step settings db).runs.get? id = some run') (hun : run'.isUnclaimed = true) :
    db.runs.get? id = none ∨ ∃ run, db.runs.get? id = some run ∧ run.isUnclaimed = true ∧
      ∀ moment reason, e = .sweep moment → judgeStored db settings moment id ≠ .fail reason := by
  obtain hmap | ⟨hnone, -⟩ := e.get?_step settings db id
  swap
  · exact Or.inl hnone
  rw [hrun'] at hmap
  obtain ⟨run, hrun, rfl⟩ := Option.map_eq_some_iff.mp hmap.symm
  refine Or.inr ⟨run, hrun, ?_⟩
  have hstatus : ∀ (r : Run) (status : RunStatus), r.status = status → status ≠ .queued →
      r.isUnclaimed ≠ true := by
    intro r status hr hne h
    rw [Run.isUnclaimed, hr, Bool.and_eq_true, beq_iff_eq] at h
    exact hne h.1
  rcases e with upload | ⟨runId, moment⟩ | ⟨artifacts, stages, findings⟩ | runId |
    ⟨runId, moment⟩ | ⟨runId, message, moment⟩ | moment <;> simp only [RunEvent.rewrite] at hun
  case sweep =>
    rcases hjudge : judgeStored db settings moment id with - | - | reason
    · rw [hjudge] at hun
      exact ⟨hun, fun m r hm => by cases hm; rw [hjudge]; exact fun h => by cases h⟩
    · rw [hjudge] at hun
      exact ⟨hun, fun m r hm => by cases hm; rw [hjudge]; exact fun h => by cases h⟩
    · rw [hjudge] at hun
      exact absurd hun (hstatus _ .failed rfl (by decide))
  all_goals refine ⟨?_, fun m r hm => by cases hm⟩
  case ingest => exact hun
  case publish => exact hun
  case claim =>
    split at hun
    · exact absurd hun (hstatus _ .running rfl (by decide))
    · exact hun
  case link =>
    split at hun
    · exact hun
    · exact hun
  case conclude =>
    split at hun
    · rw [Run.concluded] at hun
      split at hun
      · exact absurd hun (hstatus _ .completed rfl (by decide))
      · exact absurd hun (hstatus _ .degraded rfl (by decide))
    · exact hun
  case abandon =>
    split at hun
    · exact absurd hun (hstatus _ .failed rfl (by decide))
    · exact hun

/-- A waiting run that is not given up on is requeued by whoever notices it. -/
theorem notices_eq_requeues {e : RunEvent} {run : Run} (hrun : db.runs.get? id = some run)
    (hun : run.isUnclaimed = true) (hkept : ∀ moment reason, e = .sweep moment →
      judgeStored db settings moment id ≠ .fail reason) :
    RunEvent.notices settings id db e = RunEvent.requeues settings id db e := by
  rcases e with upload | ⟨runId, moment⟩ | ⟨artifacts, stages, findings⟩ | runId |
    ⟨runId, moment⟩ | ⟨runId, message, moment⟩ | moment
  case sweep =>
    rw [requeues_sweep, RunEvent.notices]
    by_cases hover : IsOverdue settings id db moment
    · have hleft : ¬settings.maxRequeueAttempts ≤ requeueAttempts db id := by
        intro hmax
        refine hkept moment ("orphaned in the queue: no worker claimed it after "
          ++ toString (requeueAttempts db id) ++ " requeue attempts") rfl ?_
        rw [judgeStored_of_isUnclaimed hrun hun, if_pos hover, if_pos hmax]
      rw [if_pos hover, if_pos ⟨hover, hleft⟩]
    · rw [if_neg hover, if_neg fun h => hover h.1]
  all_goals rfl

/-- **One event keeps the ledger.** -/
theorem Ledger.step {rs ns : List ℕ} (h : Ledger id db rs ns) (e : RunEvent) :
    Ledger id (e.step settings db) (rs ++ (RunEvent.requeues settings id db e).toList)
      (ns ++ (RunEvent.notices settings id db e).toList) := by
  have hsilent : db.runs.get? id = none → RunEvent.requeues settings id db e = none ∧
      RunEvent.notices settings id db e = none := by
    intro hnone
    have hnotice : RunEvent.notices settings id db e = none := notices_of_get?_none hnone e
    have hsub : (RunEvent.requeues settings id db e).toList.Sublist
        (RunEvent.notices settings id db e).toList := requeues_sublist_notices e
    rw [hnotice] at hsub
    exact ⟨Option.toList_eq_nil_iff.mp (List.sublist_nil.mp hsub), hnotice⟩
  refine ⟨?_, fun hnone' => ?_, fun run' hrun' hun => ?_, h.sub.append
    (requeues_sublist_notices e)⟩
  · rw [requeueAttempts_step, h.counted, List.length_append]
  · have hnone : db.runs.get? id = none := by
      rcases hget : db.runs.get? id with - | run
      · rfl
      · rw [e.get?_step_of_some settings db id hget] at hnone'
        cases hnone'
    obtain ⟨rfl, rfl⟩ := h.fresh hnone
    obtain ⟨hreq, hnot⟩ := hsilent hnone
    rw [hreq, hnot]
    exact ⟨rfl, rfl⟩
  · obtain hnone | ⟨run, hrun, hwait, hkept⟩ := waiting_of_step hrun' hun
    · obtain ⟨rfl, rfl⟩ := h.fresh hnone
      obtain ⟨hreq, hnot⟩ := hsilent hnone
      rw [hreq, hnot]
    · rw [h.waiting run hrun hwait, notices_eq_requeues hrun hwait hkept]

end Event

/-- **The ledger is kept along every history.** -/
theorem ledger_after (events : List RunEvent) :
    Ledger id (after (RunEvent.step settings) {} events) (requeuesOf settings id events)
      (noticesOf settings id events) := by
  induction events using List.reverseRecOn with
  | nil => exact ⟨rfl, fun _ => ⟨rfl, rfl⟩, fun _ _ _ => rfl, List.Sublist.refl _⟩
  | append_singleton events e ih =>
    rw [requeuesOf, noticesOf, observed_concat, observed_concat, after_concat]
    exact ih.step e

/-! ## Patience -/

section Patience

variable {settings : SweepSettings} {id : String} {events : List RunEvent}

/-- A sweep of the history and what it notices. -/
theorem noticesOf_sweep {pre : List RunEvent} {moment : ℕ}
    (hover : IsOverdue settings id (after (RunEvent.step settings) {} pre) moment) :
    noticesOf settings id (pre ++ [.sweep moment]) = noticesOf settings id pre ++ [moment] := by
  rw [noticesOf, observed_concat, RunEvent.notices, if_pos hover]
  rfl

/-- **Sweeps far enough apart are patient.** -/
theorem patient_of_pairwise
    (h : (noticesOf settings id events).Pairwise (GraceApart settings)) :
    Patient settings id events := by
  refine ⟨h.sublist (ledger_after settings id events).sub, ?_⟩
  rintro pre moment hpre ⟨run, hrun, hun⟩ hfailed
  have hledger := ledger_after settings id pre
  obtain ⟨reason, hjudge⟩ := (mem_failed_sweepOrphanedRuns settings moment _ id).mp hfailed
  rw [judgeStored_of_isUnclaimed hrun hun] at hjudge
  split at hjudge
  · rename_i hover
    split at hjudge
    · rename_i hmax
      rw [hledger.counted] at hmax
      refine ⟨hmax, fun t ht => ?_⟩
      have hpair : (noticesOf settings id (pre ++ [.sweep moment])).Pairwise
          (GraceApart settings) := h.sublist (observed_mono _ _ _ hpre).sublist
      rw [noticesOf_sweep hover, hledger.waiting run hrun hun] at hpair
      exact (List.pairwise_append.mp hpair).2.2 t ht moment (List.mem_singleton.mpr rfl)
    · cases hjudge
  · cases hjudge

/-- **Patient sweeps are far enough apart**: a sweep that finds the run overdue requeues it or gives
up on it. -/
theorem Patient.pairwise (h : Patient settings id events) {pre : List RunEvent}
    (hpre : pre <+: events) : (noticesOf settings id pre).Pairwise (GraceApart settings) := by
  induction pre using List.reverseRecOn with
  | nil => exact List.Pairwise.nil
  | append_singleton pre e ih =>
    have hbefore : pre <+: events := (List.prefix_append pre [e]).trans hpre
    rcases hnotice : RunEvent.notices settings id (after (RunEvent.step settings) {} pre) e
      with - | moment
    · rw [noticesOf, observed_concat, hnotice, Option.toList_none, List.append_nil]
      exact ih hbefore
    · obtain ⟨rfl, hover⟩ : e = .sweep moment ∧
          IsOverdue settings id (after (RunEvent.step settings) {} pre) moment := by
        rcases e with upload | ⟨runId, m⟩ | ⟨artifacts, stages, findings⟩ | runId |
          ⟨runId, m⟩ | ⟨runId, message, m⟩ | m
        case sweep =>
          rw [RunEvent.notices] at hnotice
          split at hnotice
          · rename_i hover
            obtain rfl := Option.some.inj hnotice
            exact ⟨rfl, hover⟩
          · cases hnotice
        all_goals cases hnotice
      have hdue := hover
      obtain ⟨run, hrun, hun, -⟩ := hdue
      have hledger := ledger_after settings id pre
      have hlast : ∀ t ∈ requeuesOf settings id pre, GraceApart settings t moment := by
        by_cases hmax : settings.maxRequeueAttempts
            ≤ requeueAttempts (after (RunEvent.step settings) {} pre) id
        · refine (h.lastResort pre moment hpre ⟨run, hrun, hun⟩ ?_).2
          rw [mem_failed_sweepOrphanedRuns, judgeStored_of_isUnclaimed hrun hun, if_pos hover,
            if_pos hmax]
          exact ⟨_, rfl⟩
        · have hpair := h.apart.sublist (observed_mono _ _ _ hpre).sublist
          rw [observed_concat, requeues_sweep, if_pos ⟨hover, hmax⟩] at hpair
          exact fun t ht =>
            (List.pairwise_append.mp hpair).2.2 t ht moment (List.mem_singleton.mpr rfl)
      rw [noticesOf_sweep hover, hledger.waiting run hrun hun]
      refine List.pairwise_append.mpr ⟨hledger.waiting run hrun hun ▸ ih hbefore,
        List.pairwise_singleton _ _, fun t ht u hu => ?_⟩
      obtain rfl := List.mem_singleton.mp hu
      exact hlast t ht

end Patience

/-- **The sweeps are patient with a run exactly when those that find it overdue are a grace period
apart**: nothing in the sweep itself makes them wait. -/
theorem patient_iff (events : List RunEvent) :
    Patient settings id events ↔
      (noticesOf settings id events).Pairwise (GraceApart settings) :=
  ⟨fun h => h.pairwise List.prefix_rfl, patient_of_pairwise⟩

/-! ## The shipped schedule -/

/-- An upload to a busy queue, swept every two minutes. -/
def busyQueue : List RunEvent :=
  [.ingest { runId := "run", artifactId := "a", filename := "app.zip" },
    .sweep 240000000, .sweep 360000000, .sweep 480000000, .sweep 600000000]

/-- **Two requeues two minutes apart, and the run is given up on two minutes later**, with a grace
period of five. -/
theorem busyQueue_is_given_up :
    requeuesOf {} "run" busyQueue = [360000000, 480000000] ∧
      ((after (RunEvent.step {}) {} busyQueue).runs.get? "run").map Run.status = some .failed ∧
      ¬ ∀ events, Patient {} "run" events := by
  refine ⟨by decide +kernel, by decide +kernel, fun h => ?_⟩
  have hpair := (h busyQueue).apart
  revert hpair
  unfold GraceApart
  decide +kernel

end BareAnalysis
