import BareAnalysis.Foundations.Session
import BareAnalysis.Machinery.Sorting

/-!
# Triage/Pass — a model judges the findings of a run

    rows of a run ──sorted──▸ triageFinding (cached by rule and value) ──applyVerdict──▸ rows

`core/llm/triage.py` and the task that runs it.  A pass writes each row of its run once; what it
writes is `applyVerdict` of an outcome the provider is free to choose (`triageTask_eq_step`).
-/

namespace BareAnalysis

/-- What one pass concluded about one finding. -/
structure Assessment where
  verdict : LlmVerdict
  reasoning : String
  model : String
  time : ℕ
  deriving DecidableEq, Repr

/-- `SEVERITY_FLOOR`: at or above it nothing is dismissed on a model's say-so. -/
def severityFloor : Severity := .high

/-- The status a verdict leads to; an error leads to none. -/
def statusFor (severity : Severity) (current : FindingStatus) : LlmVerdict → FindingStatus
  | .error => current
  | .falsePositive =>
    if severity.rank ≤ severityFloor.rank then .needsReview else .falsePositive
  | .truePositive => .confirmed
  | .needsReview => .needsReview

/-- `apply_verdict`: write the model's judgement onto the finding. -/
def applyVerdict (f : Finding) (a : Assessment) : Finding :=
  let f := { f with
    llmVerdict := some a.verdict
    llmReasoning := some a.reasoning
    llmModel := some a.model
    llmAt := some a.time }
  if a.verdict = .error then f
  else
    { f with
      detectedBy := .both
      status := statusFor f.severity f.status a.verdict
      noLlmOnlyFindings := DetectedBy.both_ne_llm }

section ApplyVerdict

variable (f : Finding) (a : Assessment)

@[simp] theorem applyVerdict_key : (applyVerdict f a).key = f.key := by
  unfold applyVerdict; split <;> rfl

@[simp] theorem applyVerdict_llmVerdict : (applyVerdict f a).llmVerdict = some a.verdict := by
  unfold applyVerdict; split <;> rfl

@[simp] theorem applyVerdict_status :
    (applyVerdict f a).status = statusFor f.severity f.status a.verdict := by
  unfold applyVerdict
  split
  · rename_i h
    simp [h, statusFor]
  · rfl

end ApplyVerdict

/-! ## The provider -/

/-- What `_parse` reads of a completion: the two fields of its JSON object, as stripped text with the
verdict in lower case, and whether the model spent the budget on thinking. -/
structure Completion where
  payload : Option (String × String)
  thinking : Bool := false
  deriving DecidableEq, Repr

/-- A language model: what it answers about a finding found at a path and in so many places, or the
exception it raises. -/
structure Provider where
  model : String
  complete : Finding → String → ℕ → Except String Completion

/-- `_parse`. -/
def parseCompletion (c : Completion) : LlmVerdict × String :=
  match c.payload with
  | none =>
    if c.thinking then
      (.error, "the model exhausted its token budget on reasoning without "
        ++ "producing a complete answer; use a non-reasoning model for triage")
    else (.error, "model did not return parseable JSON")
  | some (rawVerdict, rawReasoning) =>
    let reasoning := String.ofList (rawReasoning.toList.take 2000)
    match LlmVerdict.ofValue? rawVerdict with
    | some verdict => (verdict, if reasoning = "" then "no reasoning given" else reasoning)
    | none => (.error, "unrecognised verdict '" ++ rawVerdict ++ "'")

/-- `triage_finding`: never raises. -/
def triageFinding (provider : Provider) (f : Finding) (path : String) (count : ℕ) :
    LlmVerdict × String :=
  match provider.complete f path count with
  | .error e => (.error, "triage unavailable: " ++ e)
  | .ok completion => parseCompletion completion

/-! ## The pass -/

/-- `TriageResult`'s counters. -/
structure TriageResult where
  triaged : ℕ := 0
  confirmed : ℕ := 0
  dismissed : ℕ := 0
  needsReview : ℕ := 0
  errors : ℕ := 0
  calls : ℕ := 0
  deriving DecidableEq, Repr

def TriageResult.count (r : TriageResult) : LlmVerdict → TriageResult
  | .truePositive => { r with triaged := r.triaged + 1, confirmed := r.confirmed + 1 }
  | .falsePositive => { r with triaged := r.triaged + 1, dismissed := r.dismissed + 1 }
  | .needsReview => { r with triaged := r.triaged + 1, needsReview := r.needsReview + 1 }
  | .error => { r with triaged := r.triaged + 1, errors := r.errors + 1 }

/-- The state of the loop in `triage_run`: its cache, its counters, and the rows written so far. -/
structure PassState where
  cache : Dict String (LlmVerdict × String) := []
  result : TriageResult := {}
  written : List Finding := []

/-- `cache_key`. -/
def cacheKey (f : Finding) : String := sha256 (f.ruleId ++ unitSep ++ f.valueHash)

section Pass

variable (provider : Provider) (paths : List (String × String)) (counts : Counter String)
  (clock : String → ℕ)

/-- One turn of the loop in `triage_run`. -/
def triageStep (st : PassState) (f : Finding) : PassState :=
  let answer := (st.cache.get? (cacheKey f)).getD
    (triageFinding provider f ((paths.lookup f.id).getD "") ((counts.lookup f.id).getD 1))
  let fresh := (st.cache.get? (cacheKey f)).isNone
  { cache := if fresh then st.cache ++ [(cacheKey f, answer)] else st.cache
    result :=
      let r := if fresh then { st.result with calls := st.result.calls + 1 } else st.result
      r.count answer.1
    written := st.written ++ [applyVerdict f ⟨answer.1, answer.2, provider.model, clock f.id⟩] }

/-- `triage_run`: the rows as written, in the order they were judged. -/
def triageRun (findings : List Finding) : PassState :=
  (sortBy (fun f => toLex (f.severity.rank, f.id)) findings).foldl
    (triageStep provider paths counts clock) {}

end Pass

/-- The rows a pass wrote, stored. -/
def writeBack (db : Db) (written : List Finding) : Db :=
  { db with
    findings := db.findings.mapRows
      (fun r => (written.find? fun w => decide (w.key = r.key)).getD r) fun r => by
        cases h : written.find? fun w => decide (w.key = r.key) with
        | none => rfl
        | some w => simpa using List.find?_some h }

/-- `triage_run_task`. -/
def triageTask (db : Db) (runId : String) (provider : Provider) (clock : String → ℕ) : Db :=
  let findings := db.findingsOf runId
  let locations := db.locationsOf runId
  let paths := locations.map fun l => (l.findingId, l.pathInTree)
  let counts := countBy FindingLocation.findingId locations
  writeBack db (triageRun provider paths counts clock findings).written

/-! ## A pass, seen from the rows -/

/-- What a pass over a run concluded about each of its findings, by id. -/
structure TriagePass where
  runId : String
  outcome : String → Assessment

/-- Judge every finding of a run by the given outcomes. -/
def assessRun (db : Db) (runId : String) (outcome : String → Assessment) : Db :=
  { db with
    findings := db.findings.mapRows
      (fun f => if f.runId = runId then applyVerdict f (outcome f.id) else f) fun f => by
        split
        · exact applyVerdict_key _ _
        · rfl }

/-- A pass, as a step of the database. -/
def TriagePass.step (db : Db) (pass : TriagePass) : Db := assessRun db pass.runId pass.outcome

/-- **What a pass does to one row.** -/
theorem get?_step (db : Db) (pass : TriagePass) (id runId : String) :
    (pass.step db).findings.get? (id, runId)
      = (db.findings.get? (id, runId)).map
          fun f => if pass.runId = runId then applyVerdict f (pass.outcome id) else f := by
  rw [TriagePass.step, assessRun, Table.get?_mapRows]
  cases h : db.findings.get? (id, runId) with
  | none => rfl
  | some f =>
    have hk : f.key = (id, runId) := Table.key_of_get? h
    obtain ⟨rfl, rfl⟩ := Prod.mk.inj hk
    simp only [Option.map_some, eq_comm]

section Refinement

variable (provider : Provider) (paths : List (String × String)) (counts : Counter String)
  (clock : String → ℕ)

/-- The loop writes each row it visits once, by `applyVerdict`. -/
theorem forall₂_foldl_triageStep (st : PassState) (fs : List Finding) :
    ∃ written, (fs.foldl (triageStep provider paths counts clock) st).written
        = st.written ++ written ∧
      List.Forall₂ (fun f w => ∃ a, w = applyVerdict f a) fs written := by
  induction fs generalizing st with
  | nil => exact ⟨[], by simp, .nil⟩
  | cons f fs ih =>
    obtain ⟨written, heq, hall⟩ := ih (triageStep provider paths counts clock st f)
    exact ⟨_ :: written, by rw [List.foldl_cons, heq, triageStep, List.append_assoc]; rfl,
      .cons ⟨_, rfl⟩ hall⟩

/-- A visited row is found among the written ones, judged. -/
theorem find_written_of_mem {fs written : List Finding}
    (hall : List.Forall₂ (fun f w => ∃ a, w = applyVerdict f a) fs written)
    (hkey : ∀ f ∈ fs, ∀ g ∈ fs, f.key = g.key → f = g) {r : Finding} (hr : r ∈ fs) :
    ∃ a, written.find? (fun w => decide (w.key = r.key)) = some (applyVerdict r a) := by
  induction hall with
  | nil => cases hr
  | @cons f w fs written hw hall ih =>
    obtain ⟨a, rfl⟩ := hw
    by_cases hf : f.key = r.key
    · obtain rfl : f = r := hkey f List.mem_cons_self r hr hf
      exact ⟨a, by rw [List.find?_cons_of_pos (by simp)]⟩
    · have hr' : r ∈ fs := (List.mem_cons.mp hr).resolve_left fun h => hf (h ▸ rfl)
      obtain ⟨b, hb⟩ := ih (fun g hg h hh => hkey g (List.mem_cons_of_mem _ hg) h
        (List.mem_cons_of_mem _ hh)) hr'
      exact ⟨b, by rw [List.find?_cons_of_neg (by simpa using hf), hb]⟩

/-- …and a row that was not visited is not. -/
theorem find_written_eq_none {fs written : List Finding}
    (hall : List.Forall₂ (fun f w => ∃ a, w = applyVerdict f a) fs written) {r : Finding}
    (hr : ∀ f ∈ fs, f.key ≠ r.key) :
    written.find? (fun w => decide (w.key = r.key)) = none := by
  induction hall with
  | nil => rfl
  | @cons f w fs written hw hall ih =>
    obtain ⟨a, rfl⟩ := hw
    rw [List.find?_cons_of_neg (by simpa using hr f List.mem_cons_self)]
    exact ih fun g hg => hr g (List.mem_cons_of_mem _ hg)

/-- **A pass judges every finding of its run by some outcome, and touches nothing else.** -/
theorem triageTask_eq_step (db : Db) (runId : String) :
    ∃ outcome, triageTask db runId provider clock = TriagePass.step db ⟨runId, outcome⟩ := by
  obtain ⟨written, heq, hall⟩ := forall₂_foldl_triageStep provider
    ((db.locationsOf runId).map fun l => (l.findingId, l.pathInTree))
    (countBy FindingLocation.findingId (db.locationsOf runId)) clock {}
    (sortBy (fun f => toLex (f.severity.rank, f.id)) (db.findingsOf runId))
  have hmem : ∀ {f}, f ∈ sortBy (fun f => toLex (f.severity.rank, f.id)) (db.findingsOf runId) ↔
      f ∈ db.findings.rows ∧ f.runId = runId := mem_sortBy.trans Db.mem_findingsOf
  have hinj : ∀ f ∈ sortBy (fun f => toLex (f.severity.rank, f.id)) (db.findingsOf runId),
      ∀ g ∈ sortBy (fun f => toLex (f.severity.rank, f.id)) (db.findingsOf runId),
        f.key = g.key → f = g := fun f hf g hg =>
    db.findings.eq_of_key_eq (hmem.mp hf).1 (hmem.mp hg).1
  have hrow : ∀ id, ∃ a, ∀ r ∈ db.findings.rows, r.runId = runId → r.id = id →
      written.find? (fun w => decide (w.key = r.key)) = some (applyVerdict r a) := by
    intro id
    by_cases hex : ∃ r ∈ db.findings.rows, r.runId = runId ∧ r.id = id
    · obtain ⟨r, hr, hrun, hid⟩ := hex
      obtain ⟨a, ha⟩ := find_written_of_mem hall hinj (hmem.mpr ⟨hr, hrun⟩)
      refine ⟨a, fun r' hr' hrun' hid' => ?_⟩
      have hk : r'.key = r.key := by rw [Finding.key, Finding.key, hid, hid', hrun, hrun']
      rw [db.findings.eq_of_key_eq hr' hr hk, ha]
    · exact ⟨⟨.error, "", "", 0⟩, fun r hr hrun hid => absurd ⟨r, hr, hrun, hid⟩ hex⟩
  choose outcome houtcome using hrow
  refine ⟨outcome, ?_⟩
  have hrows : ∀ r ∈ db.findings.rows,
      (written.find? fun w => decide (w.key = r.key)).getD r
        = if r.runId = runId then applyVerdict r (outcome r.id) else r := by
    intro r hr
    by_cases hrun : r.runId = runId
    · rw [houtcome r.id r hr hrun rfl, if_pos hrun, Option.getD_some]
    · have hnone := find_written_eq_none hall (r := r) fun f hf h =>
        hrun ((congrArg Prod.snd h).symm.trans (hmem.mp hf).2)
      rw [hnone, if_neg hrun, Option.getD_none]
  rw [triageTask, triageRun, heq, List.nil_append, writeBack, TriagePass.step, assessRun]
  congr 1
  exact Table.ext_rows (List.map_congr_left hrows)

end Refinement

end BareAnalysis
