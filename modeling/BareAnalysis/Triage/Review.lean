import BareAnalysis.Machinery.History
import BareAnalysis.Pipeline.Gate
import BareAnalysis.Triage.Pass

/-!
# Triage/Review — models and people over the same rows

    db ──triage runId──▸ db₁ ──patch finding──▸ db₂ ──triage runId──▸ ⋯

`update_finding` of `api/routers/findings.py` beside the triage pass.  Both write `status`; only the
model's verdict is kept beside it, so the gate has to infer who closed a finding.
-/

namespace BareAnalysis

/-- `FindingPatch`. -/
structure FindingPatch where
  status : Option String := none
  note : Option String := none
  deriving DecidableEq, Repr

/-- `HTTPException`: a status code with its detail. -/
structure HttpError where
  code : ℕ
  detail : String
  deriving DecidableEq, Repr

/-- The status a patch asks for; a text that names no status is refused. -/
def FindingPatch.newStatus (patch : FindingPatch) : Except HttpError (Option FindingStatus) :=
  match patch.status with
  | none => .ok none
  | some text =>
    match FindingStatus.ofValue? text with
    | some s => .ok (some s)
    | none => .error ⟨400, "unknown status '" ++ text ++ "'; expected one of ["
        ++ ", ".intercalate (FindingStatus.members.map fun s => "'" ++ s.value ++ "'") ++ "]"⟩

/-- `finding.status = new_status`. -/
def Finding.setStatus (f : Finding) (s : FindingStatus) : Finding := { f with status := s }

@[simp] theorem Finding.setStatus_key (f : Finding) (s : FindingStatus) :
    (f.setStatus s).key = f.key := rfl

@[simp] theorem Finding.setStatus_status (f : Finding) (s : FindingStatus) :
    (f.setStatus s).status = s := rfl

@[simp] theorem Finding.setStatus_llmVerdict (f : Finding) (s : FindingStatus) :
    (f.setStatus s).llmVerdict = f.llmVerdict := rfl

/-- `update_finding`: human triage; every change is audited. -/
def updateFinding (db : Db) (runId findingId : String) (patch : FindingPatch) :
    Except HttpError Db := do
  let newStatus ← patch.newStatus
  match db.findings.get? (findingId, runId) with
  | none => throw ⟨404, "finding " ++ findingId ++ " not found in run " ++ runId⟩
  | some f =>
    match newStatus with
    | none => return db
    | some s =>
      return { db with
        auditLog := db.auditLog ++ [⟨runId, "finding_status_changed", findingId, f.status, s,
          patch.note⟩]
        findings := db.findings.modify (findingId, runId) (·.setStatus s) fun r =>
          r.setStatus_key s }

/-- What can happen to the findings of a database. -/
inductive ReviewAct
  /-- A triage pass over a run, with the outcomes its model came to. -/
  | triage (pass : TriagePass)
  /-- A request to change a finding. -/
  | patch (runId findingId : String) (request : FindingPatch)

/-- A refused request changes nothing. -/
def ReviewAct.step (db : Db) : ReviewAct → Db
  | .triage pass => pass.step db
  | .patch runId findingId request =>
    match updateFinding db runId findingId request with
    | .ok db' => db'
    | .error _ => db

/-! ## What a request does to one row -/

/-- The status a person sets on a finding by an act: an accepted request for it names one. -/
def ReviewAct.sets (db : Db) (runId id : String) : ReviewAct → Option FindingStatus
  | .triage _ => none
  | .patch r i request =>
    if (i, r) = (id, runId) then
      match updateFinding db r i request with
      | .ok _ => request.status.bind FindingStatus.ofValue?
      | .error _ => none
    else none

section Request

variable {db : Db} {runId id : String} {f : Finding}

/-- A request for a stored finding fails on its status text alone. -/
theorem updateFinding_of_get? (hf : db.findings.get? (id, runId) = some f) (request : FindingPatch) :
    updateFinding db runId id request = match request.newStatus with
      | .error e => .error e
      | .ok none => .ok db
      | .ok (some s) => .ok { db with
          auditLog := db.auditLog ++ [⟨runId, "finding_status_changed", id, f.status, s,
            request.note⟩]
          findings := db.findings.modify (id, runId) (·.setStatus s) fun r =>
            r.setStatus_key s } := by
  unfold updateFinding
  rw [hf]
  cases request.newStatus with
  | error e => rfl
  | ok newStatus => cases newStatus <;> rfl

/-- …and what it sets is what it asks for. -/
theorem sets_patch_of_get? (hf : db.findings.get? (id, runId) = some f) (request : FindingPatch) :
    (ReviewAct.patch runId id request).sets db runId id
      = request.status.bind FindingStatus.ofValue? := by
  rw [ReviewAct.sets, if_pos rfl, updateFinding_of_get? hf, FindingPatch.newStatus]
  cases request.status with
  | none => rfl
  | some text => cases h : FindingStatus.ofValue? text <;> simp [h]

/-- **What a request does to one row**: it sets the status it sets. -/
theorem get?_step_patch (hf : db.findings.get? (id, runId) = some f) (r i : String)
    (request : FindingPatch) :
    (ReviewAct.step db (.patch r i request)).findings.get? (id, runId)
      = some (((ReviewAct.patch r i request).sets db runId id).elim f f.setStatus) := by
  by_cases hkey : (i, r) = (id, runId)
  · obtain ⟨rfl, rfl⟩ := Prod.mk.inj hkey
    rw [sets_patch_of_get? hf, ReviewAct.step, updateFinding_of_get? hf, FindingPatch.newStatus]
    cases request.status with
    | none => exact hf
    | some text =>
      cases hs : FindingStatus.ofValue? text with
      | none => simp [hs, hf]
      | some s => simp [hs, Table.get?_modify, hf]
  · rw [ReviewAct.sets, if_neg hkey, Option.elim_none, ReviewAct.step]
    unfold updateFinding
    cases request.newStatus with
    | error e => exact hf
    | ok newStatus =>
      cases hg : db.findings.get? (i, r) with
      | none => exact hf
      | some g =>
        cases newStatus with
        | none => exact hf
        | some s =>
          have hread := Table.get?_modify db.findings (i, r) (·.setStatus s)
            (fun x => x.setStatus_key s) (id, runId)
          rwa [if_neg (Ne.symm hkey), hf] at hread

end Request

end BareAnalysis
