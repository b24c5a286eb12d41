import BareAnalysis.Api.Views
import BareAnalysis.Pipeline.Gate

/-!
# Api/WhatIsNew — three answers to one question

    the gate       f ∉ ids(previous), if the previous run is COMPLETED; else everything is new
    the findings   f ∉ ids(previous), if there are any; else nothing is new
    the summary    |ids(run) ∖ ids(previous)|

Each is a set difference with its own rule for an empty, missing or unfinished predecessor
(`answersAgree_iff` says when the three rules come to the same).
-/

namespace BareAnalysis

/-- The gate and the API mark the same findings new, and the summary counts them. -/
structure AnswersAgree (db : Db) (run : Run) : Prop where
  marks : (collectGateFindings db run.id (resolveBaseline db run none none)).map
      (fun g => (g.id, g.isNew))
    = (findingsOut db run.id).map fun out => (out.id, out.isNew)
  count : (summarise db run).newSincePrevious
    = some ((collectGateFindings db run.id (resolveBaseline db run none none)).countP fun g => g.isNew)

/-- The run has nothing to mark, or its predecessor has findings, and either finished or shares none
with it. -/
def SoundPredecessor (db : Db) (run : Run) (previousId : String) : Prop :=
  db.findingsOf run.id = [] ∨
    (db.findingsOf previousId ≠ [] ∧
      ((∃ previous, db.runs.get? previousId = some previous ∧ previous.status = .completed) ∨
        ∀ f ∈ db.findingsOf run.id, f.id ∉ (db.findingsOf previousId).map Finding.id))

section Answers

variable {db : Db} {run : Run} {previousId : String}

/-- The ids the gate compares with: those of a completed predecessor. -/
theorem findingIds_resolveBaseline (hprev : run.previousRunId = some previousId) :
    (resolveBaseline db run none none).findingIds
      = if ∃ previous, db.runs.get? previousId = some previous ∧ previous.status = .completed
        then (db.findingsOf previousId).map Finding.id else [] := by
  rw [resolveBaseline, hprev]
  dsimp only [nonempty?, Option.filter_none, Option.none_or]
  rcases hget : db.runs.get? previousId with - | previous
  · simp
  · have hid : previous.id = previousId := Table.key_of_get? hget
    by_cases hstatus : previous.status = .completed
    · simp [hstatus, hid]
    · simp [hstatus]

/-- **What the gate marks new.** -/
theorem map_isNew_gate (db : Db) (run : Run) :
    (collectGateFindings db run.id (resolveBaseline db run none none)).map
        (fun g => (g.id, g.isNew))
      = (db.findingsOf run.id).map fun f =>
          (f.id, !(resolveBaseline db run none none).findingIds.contains f.id) := by
  rw [collectGateFindings_eq, List.map_map]
  rfl

/-- **What the API marks new.** -/
theorem map_isNew_api (hrun : db.runs.get? run.id = some run)
    (hprev : run.previousRunId = some previousId) (hne : previousId ≠ "") :
    (findingsOut db run.id).map (fun out => (out.id, out.isNew))
      = (db.findingsOf run.id).map fun f =>
          (f.id, !((db.findingsOf previousId).map Finding.id).isEmpty
            && !((db.findingsOf previousId).map Finding.id).contains f.id) := by
  rw [findingsOut, List.map_map, previousFindingIds, hrun]
  dsimp only
  rw [hprev]
  dsimp only
  rw [if_neg hne]
  rfl

/-- **What the summary counts.** -/
theorem newSincePrevious_eq (hprev : run.previousRunId = some previousId) (hne : previousId ≠ "") :
    (summarise db run).newSincePrevious
      = some ((db.findingsOf run.id).countP fun f =>
          !((db.findingsOf previousId).map Finding.id).contains f.id) := by
  have hids : keepFirst id ((db.findingsOf run.id).map Finding.id)
      = (db.findingsOf run.id).map Finding.id := by
    refine keepFirst_eq_self ?_
    rw [List.map_id]
    have hkeys : ((db.findingsOf run.id).map Finding.key).Nodup :=
      db.findings.nodup_keys.sublist (List.filter_sublist.map Finding.key)
    refine List.Nodup.map_on (fun f hf g hg hid => ?_) hkeys.of_map
    refine List.inj_on_of_nodup_map hkeys hf hg (Prod.ext hid ?_)
    exact (Db.mem_findingsOf.mp hf).2.trans (Db.mem_findingsOf.mp hg).2.symm
  rw [summarise]
  dsimp only
  rw [hprev]
  dsimp only
  rw [if_neg hne, hids, List.filter_map, List.length_map, List.countP_eq_length_filter]
  rfl

/-- An empty text names no predecessor, and the summary counts nothing. -/
theorem not_answersAgree_of_empty (hprev : run.previousRunId = some "") : ¬AnswersAgree db run := by
  intro hagree
  have hcount := hagree.count
  rw [summarise] at hcount
  dsimp only at hcount
  rw [hprev] at hcount
  cases hcount

/-- The gate takes nothing else for old than the predecessor's findings. -/
theorem mem_of_mem_findingIds {id : String} (hprev : run.previousRunId = some previousId)
    (hid : id ∈ (resolveBaseline db run none none).findingIds) :
    id ∈ (db.findingsOf previousId).map Finding.id := by
  rw [findingIds_resolveBaseline hprev] at hid
  split at hid
  · exact hid
  · exact absurd hid List.not_mem_nil

/-- **A sound predecessor gives one answer**: no finding tells the three differences apart. -/
theorem SoundPredecessor.contains_iff (hprev : run.previousRunId = some previousId)
    (hsound : SoundPredecessor db run previousId) {f : Finding} (hf : f ∈ db.findingsOf run.id) :
    f.id ∈ (resolveBaseline db run none none).findingIds ↔
      f.id ∈ (db.findingsOf previousId).map Finding.id := by
  constructor
  · exact mem_of_mem_findingIds hprev
  · intro hid
    rw [findingIds_resolveBaseline hprev]
    obtain hnone | ⟨-, hdone | happart⟩ := hsound
    · rw [hnone] at hf
      exact absurd hf List.not_mem_nil
    · rw [if_pos hdone]
      exact hid
    · exact absurd hid (happart f hf)

/-- **The three answers agree exactly on a sound predecessor.** -/
theorem answersAgree_iff (hrun : db.runs.get? run.id = some run)
    (hprev : run.previousRunId = some previousId) :
    AnswersAgree db run ↔ previousId ≠ "" ∧ SoundPredecessor db run previousId := by
  constructor
  · intro hagree
    have hne : previousId ≠ "" := by
      rintro rfl
      exact not_answersAgree_of_empty hprev hagree
    refine ⟨hne, ?_⟩
    -- each finding is marked alike, so the API's emptiness test never decides
    have hmarks : ∀ f ∈ db.findingsOf run.id,
        (!(resolveBaseline db run none none).findingIds.contains f.id)
          = (!((db.findingsOf previousId).map Finding.id).isEmpty
              && !((db.findingsOf previousId).map Finding.id).contains f.id) := by
      have hmaps := hagree.marks
      rw [map_isNew_gate, map_isNew_api hrun hprev hne] at hmaps
      intro f hf
      exact congrArg Prod.snd (List.map_inj_left.mp hmaps f hf)
    by_cases hnone : db.findingsOf run.id = []
    · exact Or.inl hnone
    obtain ⟨f₀, hf₀⟩ := List.exists_mem_of_ne_nil _ hnone
    refine Or.inr ⟨fun hempty => ?_, ?_⟩
    · have hmark := hmarks f₀ hf₀
      have hold : f₀.id ∉ (resolveBaseline db run none none).findingIds := by
        intro hid
        have hmem := mem_of_mem_findingIds hprev hid
        rw [hempty] at hmem
        exact absurd hmem List.not_mem_nil
      rw [hempty] at hmark
      simp [hold] at hmark
    · by_cases hdone : ∃ previous, db.runs.get? previousId = some previous ∧
          previous.status = .completed
      · exact Or.inl hdone
      · refine Or.inr fun f hf hid => ?_
        have hmark := hmarks f hf
        rw [findingIds_resolveBaseline hprev, if_neg hdone] at hmark
        simp [hid] at hmark
  · rintro ⟨hne, hsound⟩
    refine ⟨?_, ?_⟩
    · rw [map_isNew_gate, map_isNew_api hrun hprev hne]
      refine List.map_congr_left fun f hf => ?_
      have hiff := hsound.contains_iff hprev hf
      obtain hnone | ⟨hsome, -⟩ := hsound
      · rw [hnone] at hf
        exact absurd hf List.not_mem_nil
      · simp [hiff, hsome]
    · rw [newSincePrevious_eq hprev hne, collectGateFindings_eq, List.countP_map]
      refine congrArg some (List.countP_congr fun f hf => ?_)
      have hiff := hsound.contains_iff hprev hf
      simp [gateView, gateFinding, hiff]

end Answers

/-! ## A clean release and the one after it -/

/-- A password found in a run. -/
def passwordOf (runId : String) : Finding where
  id := "finding"
  runId := runId
  ruleId := "generic-password"
  category := "credential"
  title := "Password"
  severity := .medium
  confidence := 1
  valueMasked := "pa…rd"
  valueHash := "c0ffee"

/-- The run "second" with its password, and the COMPLETED run before it with these findings. -/
def twoReleases (before : Table Finding.key) : Option Db := do
  let runs ← (Table.single { id := "first", status := .completed } : Table Run.id).insert
    { id := "second", status := .completed, previousRunId := some "first" }
  let findings ← before.insert (passwordOf "second")
  pure { runs, findings }

/-- A password of the release before is new in none of the three answers. -/
theorem answersAgree_iff_twoReleases :
    ∃ db run, twoReleases (.single (passwordOf "first")) = some db ∧
      db.runs.get? "second" = some run ∧ AnswersAgree db run ∧
      (summarise db run).newSincePrevious = some 0 := by
  refine ⟨_, _, rfl, rfl, (answersAgree_iff rfl rfl).mpr ⟨by decide, Or.inr ⟨?_, Or.inl ⟨_, rfl, rfl⟩⟩⟩,
    by decide +kernel⟩
  exact List.ne_nil_of_mem (a := passwordOf "first") (by decide +kernel)

/-- **After a clean release the answers part**: the gate and the summary take the first password for
new, and the findings route marks nothing. -/
theorem answers_part_after_clean_release :
    ∃ db run, twoReleases ∅ = some db ∧ db.runs.get? "second" = some run ∧
      (collectGateFindings db "second" (resolveBaseline db run none none)).map GateFinding.isNew
        = [true] ∧
      (findingsOut db "second").map FindingOut.isNew = [false] ∧
      (summarise db run).newSincePrevious = some 1 ∧ ¬AnswersAgree db run := by
  refine ⟨_, _, rfl, rfl, by decide +kernel, by decide +kernel, by decide +kernel, fun hagree => ?_⟩
  have hmarks := congrArg (List.map Prod.snd) hagree.marks
  revert hmarks
  decide +kernel

end BareAnalysis
