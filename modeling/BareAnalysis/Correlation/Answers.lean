import BareAnalysis.Correlation.ReadOff

/-!
# Correlation/Answers — when two scans have the same findings

    report A = report B,  severities agree   ↔   the same (id, rule, severity, value)

A finding is identified by what its rule reports, and rated by what the pack says of the rule.
Between scans whose hashed texts do not collide nothing else makes two scans have the same findings
(`sameAnswers_iff`).
-/

namespace BareAnalysis

/-- What the findings of two scans are compared by. -/
def Finding.answer (f : Finding) : String × String × Severity × String :=
  (f.id, f.ruleId, f.severity, f.valueHash)

/-- The severity a pack gives the findings of a rule. -/
def RulePack.severityOf (pack : RulePack) (ruleId : String) : Option Severity :=
  (pack.rulesById.get? ruleId).map Rule.severity

/-- The answers of a scan. -/
def answers (runId : String) (input : CorrelationInput) : List (String × String × Severity × String) :=
  (correlate runId input).findings.map Finding.answer

/-- Two scans report the same of every rule, and rate alike the rules with something to report. -/
structure SameAnswers (A B : CorrelationInput) : Prop where
  report : ∀ ruleId, report B ruleId = report A ruleId
  severity : ∀ ruleId, (BareAnalysis.report A ruleId).entries ruleId ≠ [] →
    B.pack.severityOf ruleId = A.pack.severityOf ruleId

section One

variable {input : CorrelationInput} {runId : String}

/-- **A finding is the run's, and as severe as its rule.** -/
theorem of_mem_findings {f : Finding} (hf : f ∈ (correlate runId input).findings) :
    f.runId = runId ∧ input.pack.severityOf f.ruleId = some f.severity := by
  have hf := (mem_findings_correlate input runId).mp hf
  rcases hrule : input.pack.rulesById.get? f.ruleId with - | rule
  · rw [reportedFindings_of_none hrule] at hf
    cases hf
  rw [RulePack.severityOf, hrule, Option.map_some]
  rcases le_or_gt (survivors input f.ruleId).length clusterThreshold with hn | hn
  · rw [reportedFindings_of_le hrule hn] at hf
    obtain ⟨g, -, hg⟩ := List.mem_map.mp hf
    rw [← hg]
    exact ⟨rfl, rfl⟩
  · obtain ⟨anchor, rest, -, heq⟩ := reportedFindings_of_lt runId hrule hn
    rw [heq] at hf
    rw [List.mem_singleton.mp hf]
    exact ⟨rfl, rfl⟩

/-- **The answers of a scan are its reports' entries, rated by the pack.** -/
theorem mem_answers {id ruleId valueHash : String} {severity : Severity} :
    (id, ruleId, severity, valueHash) ∈ answers runId input ↔
      (∃ e ∈ (report input ruleId).entries ruleId, e.id = id ∧ e.valueHash = valueHash) ∧
        input.pack.severityOf ruleId = some severity := by
  constructor
  · intro h
    obtain ⟨f, hf, heq⟩ := List.mem_map.mp h
    obtain ⟨rfl, rfl, rfl, rfl⟩ : f.id = id ∧ f.ruleId = ruleId ∧ f.severity = severity ∧
        f.valueHash = valueHash := by simpa [Finding.answer] using heq
    obtain ⟨e, he, hrule, hid, hvalue⟩ := exists_entry_of_mem_findings hf
    have hmem := mem_entries.mp he
    rw [hrule] at hmem
    exact ⟨⟨e, hmem, hid, hvalue⟩, (of_mem_findings hf).2⟩
  · rintro ⟨⟨e, he, rfl, rfl⟩, hseverity⟩
    have hrule := ruleId_of_mem_entries he
    obtain ⟨f, hf, hfrule, hid, hvalue⟩ := exists_finding_of_mem_entries runId
      (mem_entries.mpr (by rwa [hrule]))
    have hrated := (of_mem_findings hf).2
    rw [hfrule, hrule, hseverity] at hrated
    refine List.mem_map.mpr ⟨f, hf, ?_⟩
    rw [Finding.answer, hid, hfrule, hrule, hvalue, ← Option.some.inj hrated]

/-- A rule with something to report is enabled. -/
theorem exists_severityOf {ruleId : String} (h : (report input ruleId).entries ruleId ≠ []) :
    ∃ severity, input.pack.severityOf ruleId = some severity := by
  obtain ⟨e, he⟩ := List.exists_mem_of_ne_nil _ h
  have hrule := ruleId_of_mem_entries he
  obtain ⟨f, hf, hfrule, -⟩ := exists_finding_of_mem_entries "" (mem_entries.mpr (by rwa [hrule]))
  have hrated := (of_mem_findings hf).2
  rw [hfrule, hrule] at hrated
  exact ⟨f.severity, hrated⟩

end One

/-! ## Two scans -/

section Two

variable {A B : CorrelationInput}

/-- **Scans that say the same have the same findings.** -/
theorem SameAnswers.mem_answers_iff (h : SameAnswers A B) (runId runId' : String)
    (answer : String × String × Severity × String) :
    answer ∈ answers runId' B ↔ answer ∈ answers runId A := by
  obtain ⟨id, ruleId, severity, valueHash⟩ := answer
  rw [mem_answers, mem_answers, h.report]
  refine and_congr_right fun hentry => ?_
  obtain ⟨e, he, -⟩ := hentry
  rw [h.severity ruleId (List.ne_nil_of_mem he)]

/-- **Nothing else makes two scans have the same findings**, unless hashes collide. -/
theorem sameAnswers_iff (h : HashesApart A B) (runId runId' : String) :
    (∀ answer, answer ∈ answers runId' B ↔ answer ∈ answers runId A) ↔ SameAnswers A B := by
  constructor
  · intro hsame
    have hB : entries B ⊆ entries A := fun e he => by
      obtain ⟨severity, hseverity⟩ := exists_severityOf (List.ne_nil_of_mem (mem_entries.mp he))
      obtain ⟨⟨e', he', hid, -⟩, -⟩ := mem_answers.mp
        ((hsame _).mp (mem_answers.mpr ⟨⟨e, mem_entries.mp he, rfl, rfl⟩, hseverity⟩))
      have hrule := ruleId_of_mem_entries he'
      have hmem : e' ∈ entries A := mem_entries.mpr (by rwa [hrule])
      rwa [← h.entry_eq (List.mem_append_left _ hmem) (List.mem_append_right _ he) hid]
    have hA : entries A ⊆ entries B := fun e he => by
      obtain ⟨severity, hseverity⟩ := exists_severityOf (List.ne_nil_of_mem (mem_entries.mp he))
      obtain ⟨⟨e', he', hid, -⟩, -⟩ := mem_answers.mp
        ((hsame _).mpr (mem_answers.mpr ⟨⟨e, mem_entries.mp he, rfl, rfl⟩, hseverity⟩))
      have hrule := ruleId_of_mem_entries he'
      have hmem : e' ∈ entries B := mem_entries.mpr (by rwa [hrule])
      rwa [← h.entry_eq (List.mem_append_right _ hmem) (List.mem_append_left _ he) hid]
    refine ⟨fun ruleId => report_eq_of_within (h.within_of_subset hB ruleId)
      (h.symm.within_of_subset hA ruleId), fun ruleId hentries => ?_⟩
    obtain ⟨severity, hseverity⟩ := exists_severityOf hentries
    obtain ⟨e, he⟩ := List.exists_mem_of_ne_nil _ hentries
    obtain ⟨-, hrated⟩ := mem_answers.mp
      ((hsame _).mpr (mem_answers.mpr ⟨⟨e, he, rfl, rfl⟩, hseverity⟩))
    rw [hrated, hseverity]
  · intro hsame
    exact hsame.mem_answers_iff runId runId'

end Two

end BareAnalysis
