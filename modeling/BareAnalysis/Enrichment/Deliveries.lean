import BareAnalysis.Enrichment.Ghidra
import BareAnalysis.Machinery.History

/-!
# Enrichment/Deliveries — when a delivery returns, and what it leaves

    db ──delivery──▸ db₁ ──delivery──▸ db₂ ──▸ ⋯        each one returns, and its stage has ended

A delivery that starts work adds the stage's row, and two things can stop it after that: a row of an
earlier delivery holds the unique key, or the document is not one that can be read.  Then it raises,
the second time with the row still RUNNING.  Findings and locations it leaves alone either way.
-/

namespace BareAnalysis

open History

/-! ## What no delivery touches -/

/-- A location without the function named for it. -/
def FindingLocation.anonymous (l : FindingLocation) : FindingLocation := { l with xrefFunction := none }

/-- The runs, the findings, and the locations up to their functions. -/
structure Untouched (db db' : Db) : Prop where
  runs : db'.runs = db.runs
  findings : db'.findings = db.findings
  locations : db'.locations.map FindingLocation.anonymous
    = db.locations.map FindingLocation.anonymous

theorem Untouched.refl (db : Db) : Untouched db db := ⟨rfl, rfl, rfl⟩

theorem Untouched.trans {db db' db'' : Db} (h : Untouched db db') (h' : Untouched db' db'') :
    Untouched db db'' :=
  ⟨h'.runs.trans h.runs, h'.findings.trans h.findings, h'.locations.trans h.locations⟩

section Frame

variable {lib : Enricher} {db db' : Db} {stage : RunStage} {runId : String} {d : Delivery}
  {targets : List BinaryTarget} {notes : List String}

theorem untouched_saveStage (db : Db) (stage : RunStage) : Untouched db (db.saveStage stage) :=
  ⟨rfl, rfl, rfl⟩

theorem untouched_insertStage (h : db.insertStage stage = some db') : Untouched db db' := by
  rw [Db.insertStage] at h
  split at h
  · obtain ⟨stages, -, rfl⟩ := Option.map_eq_some_iff.mp h
    exact ⟨rfl, rfl, rfl⟩
  · cases h

theorem FindingLocation.anonymous_named (l : FindingLocation) (function : Option String) :
    (l.named function).anonymous = l.anonymous := by
  cases function <;> rfl

theorem untouched_applyXrefs (db : Db) (runId : String) (result : GhidraResult)
    (artifactByPath : Dict String String) :
    Untouched db (applyXrefs lib db runId result artifactByPath).1 := by
  refine ⟨rfl, rfl, ?_⟩
  rw [applyXrefs, List.map_map]
  exact List.map_congr_left fun l _ => l.anonymous_named _

theorem untouched_applyDocument (payload : Json) :
    Untouched db (applyDocument lib db stage targets notes payload).db := by
  rw [applyDocument]
  split
  · exact Untouched.refl db
  · exact (untouched_applyXrefs db stage.runId _ _).trans ⟨rfl, rfl, rfl⟩

theorem untouched_analyse : Untouched db (analyse lib db stage targets notes d).db := by
  rw [analyse]
  dsimp only
  split
  · exact untouched_saveStage db _
  · exact untouched_saveStage db _
  · exact untouched_saveStage db _
  · exact untouched_applyDocument _

theorem untouched_startStage : Untouched db (startStage lib db stage d).db := by
  rw [startStage]
  dsimp only
  split
  · exact untouched_saveStage db _
  · exact (untouched_saveStage db _).trans untouched_analyse

/-- **Whatever it ends in**, a delivery leaves the runs, the findings and the locations up to their
functions. -/
theorem untouched_enrichRun (runId : String) (db : Db) (d : Delivery) :
    Untouched db (enrichRun lib runId db d).db := by
  rw [enrichRun]
  split
  · exact Untouched.refl db
  · split
    · exact Untouched.refl db
    · split
      · exact Untouched.refl db
      · split
        · exact Untouched.refl db
        · rename_i hinsert
          exact (untouched_insertStage hinsert).trans untouched_startStage

end Frame

/-! ## The row a delivery leaves -/

/-- The stage has ended. -/
def StageStatus.HasEnded (s : StageStatus) : Prop := s ≠ .pending ∧ s ≠ .running

instance (s : StageStatus) : Decidable s.HasEnded := inferInstanceAs (Decidable (_ ∧ _))

theorem GhidraResult.hasEnded_stageStatus (result : GhidraResult) : result.stageStatus.HasEnded := by
  rw [stageStatus]
  split
  · decide
  · split <;> decide

theorem SandboxResult.hasEnded_stageStatus (r : SandboxResult) : r.stageStatus.HasEnded := by
  rw [stageStatus]
  split
  · split <;> decide
  all_goals decide

/-- Two states of one row. -/
structure RunStage.SameRow (s t : RunStage) : Prop where
  id : t.id = s.id
  runId : t.runId = s.runId
  artifactId : t.artifactId = s.artifactId
  analyzer : t.analyzer = s.analyzer

namespace RunStage

theorem SameRow.trans {s t u : RunStage} (h : s.SameRow t) (h' : t.SameRow u) : s.SameRow u :=
  ⟨h'.id.trans h.id, h'.runId.trans h.runId, h'.artifactId.trans h.artifactId,
    h'.analyzer.trans h.analyzer⟩

theorem SameRow.uniqueKey_eq {s t : RunStage} (h : s.SameRow t) : t.uniqueKey = s.uniqueKey := by
  rw [uniqueKey, uniqueKey, h.artifactId, h.runId, h.analyzer]

theorem sameRow_withoutResult (s : RunStage) : s.SameRow s.withoutResult := by
  rw [withoutResult]
  split <;> exact ⟨rfl, rfl, rfl, rfl⟩

theorem sameRow_summarised (lib : Enricher) (s : RunStage) (result : GhidraResult)
    (labels : Dict String String) (notes : List String) :
    s.SameRow (s.summarised lib result labels notes) := by
  rw [summarised]
  split <;> exact ⟨rfl, rfl, rfl, rfl⟩

theorem hasEnded_withoutResult {s : RunStage} (h : s.status.HasEnded) :
    s.withoutResult.status.HasEnded := by
  rw [withoutResult]
  split
  · exact (by decide : StageStatus.failed.HasEnded)
  · exact h

theorem hasEnded_summarised {lib : Enricher} {s : RunStage} {result : GhidraResult}
    {labels : Dict String String} {notes : List String} (h : s.status.HasEnded) :
    (s.summarised lib result labels notes).status.HasEnded := by
  rw [summarised]
  split
  · exact h
  · exact result.hasEnded_stageStatus

end RunStage

/-- A saved stage takes the place of its row. -/
theorem rows_saveStage {db : Db} {rows : List RunStage} {s t : RunStage}
    (h : db.stages.rows = rows ++ [s]) (hst : s.SameRow t) :
    (db.saveStage t).stages.rows = rows ++ [t] := by
  have hrows := Table.rows_modify_concat h (fun r : RunStage => { t with id := r.id }) fun _ => rfl
  rw [← hst.id] at hrows
  exact hrows

/-- What a delivery that started a stage leaves: the rows there were, and the stage's, ended if the
delivery returned. -/
def Closes (rows : List RunStage) (s : RunStage) (r : Delivered) : Prop :=
  ∃ t, r.db.stages.rows = rows ++ [t] ∧ s.SameRow t ∧ (r.answer.isOk = true → t.status.HasEnded)

section Close

variable {lib : Enricher} {db db' : Db} {rows : List RunStage} {s t : RunStage} {runId : String}
  {d : Delivery} {targets : List BinaryTarget} {notes : List String}

theorem closes_saveStage {answer : Except PyError EnrichmentOutcome}
    (h : db.stages.rows = rows ++ [s]) (hst : s.SameRow t) (ht : t.status.HasEnded) :
    Closes rows s ⟨db.saveStage t, answer⟩ :=
  ⟨t, rows_saveStage h hst, hst, fun _ => ht⟩

theorem closes_applyDocument (h : db.stages.rows = rows ++ [s]) (hst : s.SameRow t)
    (ht : t.status.HasEnded) (payload : Json) :
    Closes rows s (applyDocument lib db t targets notes payload) := by
  rw [applyDocument]
  split
  · exact ⟨s, h, ⟨rfl, rfl, rfl, rfl⟩, fun hok => (nomatch hok)⟩
  · have hcount : ∀ n, t.SameRow { t with evidenceCount := n } := fun _ => ⟨rfl, rfl, rfl, rfl⟩
    exact closes_saveStage h ((hst.trans (hcount _)).trans (RunStage.sameRow_summarised lib _ _ _ _))
      (RunStage.hasEnded_summarised ht)

/-- The analyzer run itself keeps the row; once it gave a document or none, the row has ended. -/
theorem sameRow_runGhidra (s : RunStage) (d : Delivery) : s.SameRow (runGhidra s d).1 := by
  rw [runGhidra]
  split <;> exact ⟨rfl, rfl, rfl, rfl⟩

theorem hasEnded_runGhidra {payload : Option Json} (h : (runGhidra s d).2 = .ok payload) :
    (runGhidra s d).1.status.HasEnded := by
  rw [runGhidra] at h ⊢
  split at h
  · cases h
  · exact SandboxResult.hasEnded_stageStatus _

theorem closes_analyse (h : db.stages.rows = rows ++ [s]) :
    Closes rows s (analyse lib db s targets notes d) := by
  have hrow := sameRow_runGhidra s d
  rw [analyse]
  dsimp only
  split
  · exact closes_saveStage h (hrow.trans ⟨rfl, rfl, rfl, rfl⟩) (by decide : StageStatus.failed.HasEnded)
  · rename_i hread
    exact closes_saveStage h (hrow.trans (RunStage.sameRow_withoutResult _))
      (RunStage.hasEnded_withoutResult (hasEnded_runGhidra hread))
  · rename_i hread
    exact closes_saveStage h (hrow.trans (RunStage.sameRow_withoutResult _))
      (RunStage.hasEnded_withoutResult (hasEnded_runGhidra hread))
  · rename_i hread
    exact closes_applyDocument h hrow (hasEnded_runGhidra hread) _

theorem closes_startStage (h : db.stages.rows = rows ++ [s]) :
    Closes rows s (startStage lib db s d) := by
  rw [startStage]
  dsimp only
  split
  · exact closes_saveStage h ⟨rfl, rfl, rfl, rfl⟩ (by decide : StageStatus.skipped.HasEnded)
  · have hrun : s.SameRow { s with status := .running } := ⟨rfl, rfl, rfl, rfl⟩
    obtain ⟨t, hrows, hsame, hended⟩ := @closes_analyse lib _ _ _ d _ _ (rows_saveStage h hrun)
    exact ⟨t, hrows, hrun.trans hsame, hended⟩

end Close

/-! ## When a delivery returns -/

/-- If the analyzer run got as far as a document, it is null or can be read. -/
def Delivery.IsRead (num : Numerals) (d : Delivery) : Prop :=
  ∀ result payload, d.analysis.result = .ok result → d.analysis.document = .parsed payload →
    payload = .null ∨ Readable num payload

/-- A finding of the run points into an executable whose bytes were kept. -/
def HasTarget (db : Db) (runId : String) : Prop :=
  ∃ l ∈ db.locationsOf runId, l.offset.isSome = true ∧ ∃ a ∈ db.artifactsOf runId,
    l.artifactId = a.id ∧ a.isExecutable = true ∧ a.storedAt?.isSome = true

section Answer

variable {lib : Enricher} {db db' : Db} {stage : RunStage} {runId : String} {d : Delivery}
  {targets : List BinaryTarget} {notes : List String}

theorem isOk_applyDocument_iff {payload : Json} :
    (applyDocument lib db stage targets notes payload).answer.isOk = true ↔
      Readable lib.numerals payload := by
  rw [← @isOk_ghidraResult_iff lib.numerals lib.interp.printable, applyDocument]
  cases GhidraResult.fromJson lib.numerals lib.interp.printable payload <;> rfl

theorem isOk_analyse_iff :
    (analyse lib db stage targets notes d).answer.isOk = true ↔ d.IsRead lib.numerals := by
  rw [analyse, runGhidra, Delivery.IsRead]
  cases hresult : d.analysis.result with
  | error e => exact iff_of_true rfl fun _ _ h => (nomatch h)
  | ok result =>
    cases hdocument : d.analysis.document with
    | missing => exact iff_of_true rfl fun _ _ _ h => (nomatch h)
    | unparseable => exact iff_of_true rfl fun _ _ _ h => (nomatch h)
    | unreadable e => exact iff_of_true rfl fun _ _ _ h => (nomatch h)
    | parsed payload =>
      have hread : (∀ result' payload', Except.ok result = (Except.ok result' : Except PyError _) →
          ResultDocument.parsed payload = .parsed payload' →
            payload' = .null ∨ Readable lib.numerals payload') ↔
          payload = .null ∨ Readable lib.numerals payload := by
        constructor
        · exact fun h => h result payload rfl rfl
        · rintro h _ _ - ⟨⟩
          exact h
      rw [hread]
      by_cases hnull : payload = .null
      · rw [hnull]
        exact iff_of_true rfl (Or.inl rfl)
      · rw [or_iff_right hnull, ← @isOk_applyDocument_iff lib db
          (stage.recorded result d.endedAt) targets notes]
        cases payload <;> first | exact absurd rfl hnull | rfl

theorem mem_targetRows {a : Artifact} {offset : ℤ} :
    (a, offset) ∈ targetRows db runId ↔ ∃ l ∈ db.locationsOf runId, l.offset = some offset ∧
      a ∈ db.artifactsOf runId ∧ l.artifactId = a.id ∧ a.isExecutable = true := by
  simp [targetRows, and_assoc]

/-- **There is something to analyse** exactly when a finding points into a kept executable. -/
theorem selectTargets_ne_nil_iff : (selectTargets db runId).1 ≠ [] ↔ HasTarget db runId := by
  have hcandidates : (selectTargets db runId).1 = [] ↔
      ∀ a ∈ keepFirst Artifact.id ((targetRows db runId).map Prod.fst), a.storedAt? = none := by
    rw [selectTargets]
    dsimp only
    rw [List.take_eq_nil_iff, or_iff_right (by decide : ¬maxBinaries = 0), ← List.length_eq_zero_iff,
      length_sortBy, List.length_eq_zero_iff, List.filterMap_eq_nil_iff]
    simp only [targetOf, Option.map_eq_none_iff]
  rw [Ne, hcandidates]
  push Not
  constructor
  · rintro ⟨a, ha, hkept⟩
    obtain ⟨⟨a', offset⟩, hrow, rfl⟩ := List.mem_map.mp (mem_of_mem_keepFirst ha)
    obtain ⟨l, hl, hoffset, hart, hid, hexec⟩ := mem_targetRows.mp hrow
    exact ⟨l, hl, by rw [hoffset]; rfl, a', hart, hid, hexec, Option.isSome_iff_ne_none.mpr hkept⟩
  · rintro ⟨l, hl, hoffset, a, hart, hid, hexec, hkept⟩
    obtain ⟨offset, hoffset⟩ := Option.isSome_iff_exists.mp hoffset
    have hrow : a ∈ (targetRows db runId).map Prod.fst :=
      List.mem_map.mpr ⟨(a, offset), mem_targetRows.mpr ⟨l, hl, hoffset, hart, hid, hexec⟩, rfl⟩
    obtain ⟨b, hb, hba⟩ := @exists_mem_keepFirst _ _ _ Artifact.id _ _ hrow
    obtain ⟨⟨b', offset'⟩, hrow', rfl⟩ := List.mem_map.mp (mem_of_mem_keepFirst hb)
    obtain ⟨-, -, -, hart', -, -⟩ := mem_targetRows.mp hrow'
    obtain rfl : b' = a := db.artifacts.eq_of_key_eq (Table.mem_select.mp hart').1
      (Table.mem_select.mp hart).1 hba
    exact ⟨b', hb, Option.isSome_iff_ne_none.mp hkept⟩

theorem isOk_startStage_iff :
    (startStage lib db stage d).answer.isOk = true ↔
      (HasTarget db stage.runId → d.IsRead lib.numerals) := by
  rw [← selectTargets_ne_nil_iff, startStage]
  dsimp only
  split
  · rename_i h
    exact iff_of_true rfl fun hne => absurd h hne
  · rename_i h
    rw [isOk_analyse_iff, imp_iff_right h]

/-- The row of a stage goes in when its key and its id are free… -/
theorem exists_insertStage_iff :
    (∃ db', db.insertStage stage = some db') ↔
      db.KeyFree stage ∧ stage.id ∉ db.stages.rows.map RunStage.id := by
  rw [Db.insertStage]
  by_cases hkey : db.KeyFree stage
  · by_cases hid : stage.id ∉ db.stages.rows.map RunStage.id
    · rw [if_pos hkey, Table.insert, dif_pos hid]
      exact iff_of_true ⟨_, rfl⟩ ⟨hkey, hid⟩
    · rw [if_pos hkey, Table.insert, dif_neg hid]
      refine iff_of_false ?_ fun h => hid h.2
      rintro ⟨_, h⟩
      cases h
  · rw [if_neg hkey]
    refine iff_of_false ?_ fun h => hkey h.1
    rintro ⟨_, h⟩
    cases h

/-- …and goes in last. -/
theorem insertStage_eq_some (h : db.insertStage stage = some db') :
    ∃ stages, db' = { db with stages } ∧ stages.rows = db.stages.rows ++ [stage] := by
  rw [Db.insertStage] at h
  split at h
  · obtain ⟨stages, hinsert, rfl⟩ := Option.map_eq_some_iff.mp h
    exact ⟨stages, rfl, Table.rows_of_insert hinsert⟩
  · cases h

theorem mem_ghidraStages {s : RunStage} :
    s ∈ ghidraStages db runId ↔ s ∈ db.stages.rows ∧ s.runId = runId ∧ s.analyzer = ghidra := by
  rw [ghidraStages, List.mem_filter, Db.mem_stagesOf, beq_iff_eq, and_assoc]

/-- Only a ghidra stage of the same run on the same root stands in the way. -/
theorem keyFree_ghidraStage_iff :
    db.KeyFree (ghidraStage db runId d) ↔ ∀ root, rootArtifact db runId = some root →
      ∀ s ∈ ghidraStages db runId, s.artifactId ≠ some root.id := by
  have hkey : (ghidraStage db runId d).uniqueKey
      = (rootArtifact db runId).map fun root => (runId, root.id, ghidra) := by
    rw [RunStage.uniqueKey, ghidraStage, Option.map_map]
    rfl
  rw [Db.KeyFree, hkey]
  constructor
  · intro h root hroot s hs hid
    obtain ⟨hrow, hrun, hanalyzer⟩ := mem_ghidraStages.mp hs
    have hkey : s.uniqueKey = some (runId, root.id, ghidra) := by
      rw [RunStage.uniqueKey, hid, hrun, hanalyzer]
      rfl
    obtain hnone | hne := h s hrow
    · exact Option.some_ne_none _ (hkey.symm.trans hnone)
    · exact hne (by rw [hkey, hroot, Option.map_some])
  · intro h s hrow
    by_cases hnone : s.uniqueKey = none
    · exact Or.inl hnone
    · refine Or.inr fun heq => ?_
      rw [heq, Option.map_eq_none_iff] at hnone
      obtain ⟨root, hroot⟩ := Option.ne_none_iff_exists'.mp hnone
      rw [hroot] at heq
      obtain ⟨artifactId, hid, hkey⟩ := Option.map_eq_some_iff.mp heq
      obtain ⟨hrun, hartifact, hanalyzer⟩ : s.runId = runId ∧ artifactId = root.id ∧
          s.analyzer = ghidra := by simpa using hkey
      exact h root hroot s (mem_ghidraStages.mpr ⟨hrow, hrun, hanalyzer⟩) (hartifact ▸ hid)

end Answer

/-! ## The deliveries of a run -/

section Run

variable (lib : Enricher) (runId : String)

/-- The database after a delivery, and what that delivery answered. -/
structure Enriching where
  db : Db
  answer : Option (Except PyError EnrichmentOutcome) := none

/-- One delivery after the others. -/
def deliver (s : Enriching) (d : Delivery) : Enriching :=
  let r := enrichRun lib runId s.db d
  { db := r.db, answer := some r.answer }

/-- **What enrichment promises** of a state that deliveries for a run led to. -/
structure Enriched (db : Db) (s : Enriching) : Prop where
  returned : ∀ e, s.answer ≠ some (.error e)
  ended : ∀ stage ∈ ghidraStages s.db runId, stage.status ≠ .pending ∧ stage.status ≠ .running
  unique : (s.db.stages.rows.filterMap RunStage.uniqueKey).Nodup
  findings : s.db.findings = db.findings
  locations : s.db.locations.map FindingLocation.anonymous
    = db.locations.map FindingLocation.anonymous

/-- The run is not one to enrich, a delivery before has done it, or none has left a row for the root
and the document, if there is anything to analyse, can be read. -/
def DeliveryReturns (num : Numerals) (db : Db) (d : Delivery) : Prop :=
  (∀ run, db.runs.get? runId = some run → run.status ≠ .completed ∧ run.status ≠ .degraded) ∨
  (∃ stage ∈ ghidraStages db runId, stage.status = .completed ∨ stage.status = .truncated) ∨
  (∀ root, rootArtifact db runId = some root →
    ∀ stage ∈ ghidraStages db runId, stage.artifactId ≠ some root.id) ∧
  d.stageId ∉ db.stages.rows.map RunStage.id ∧ (HasTarget db runId → d.IsRead num)

variable {lib runId} {db : Db} {d : Delivery}

theorem alreadyHandled_iff (h : ∀ s ∈ ghidraStages db runId, s.status.HasEnded) :
    alreadyHandled db runId = true ↔
      ∃ s ∈ ghidraStages db runId, s.status = .completed ∨ s.status = .truncated := by
  rw [alreadyHandled, List.any_eq_true]
  refine exists_congr fun s => and_congr_right fun hs => ?_
  have hrunning := (h s hs).2
  cases hstatus : s.status <;> simp_all [handledStatuses]

/-- What a delivery that has work to do answers. -/
theorem isOk_insertStage_iff :
    (match db.insertStage (ghidraStage db runId d) with
      | none => ⟨db, .error (.database "UNIQUE constraint failed")⟩
      | some opened => startStage lib opened (ghidraStage db runId d) d : Delivered).answer.isOk
        = true ↔ db.KeyFree (ghidraStage db runId d) ∧
          d.stageId ∉ db.stages.rows.map RunStage.id ∧
            (HasTarget db runId → d.IsRead lib.numerals) := by
  have hroom := @exists_insertStage_iff db (ghidraStage db runId d)
  cases hinsert : db.insertStage (ghidraStage db runId d) with
  | none =>
    refine iff_of_false (fun h => nomatch h) fun h => ?_
    obtain ⟨db', hdb'⟩ := hroom.mpr ⟨h.1, h.2.1⟩
    exact Option.some_ne_none db' (hdb'.symm.trans hinsert)
  | some opened =>
    obtain ⟨hkey, hid⟩ := hroom.mp ⟨opened, hinsert⟩
    obtain ⟨stages, rfl, -⟩ := insertStage_eq_some hinsert
    rw [isOk_startStage_iff]
    exact ⟨fun h => ⟨hkey, hid, h⟩, fun h => h.2.2⟩

/-- **A delivery returns exactly when `DeliveryReturns` says so.** -/
theorem isOk_enrichRun_iff {run : Run} (hrun : db.runs.get? runId = some run)
    (hended : ∀ s ∈ ghidraStages db runId, s.status.HasEnded) :
    (enrichRun lib runId db d).answer.isOk = true ↔ DeliveryReturns runId lib.numerals db d := by
  rw [enrichRun, hrun, DeliveryReturns, hrun, ← alreadyHandled_iff hended,
    ← @keyFree_ghidraStage_iff db runId d]
  dsimp only
  have hstatus : (∀ run', some run = some run' → run'.status ≠ .completed ∧ run'.status ≠ .degraded) ↔
      run.status ∉ enrichableRunStatuses := by
    simp [enrichableRunStatuses]
  rw [hstatus]
  split
  · rename_i h
    exact iff_of_true rfl (Or.inl h)
  · rename_i h
    rw [or_iff_right h]
    split
    · rename_i h'
      exact iff_of_true rfl (Or.inl h')
    · rename_i h'
      rw [or_iff_right h']
      exact isOk_insertStage_iff

/-- **What a delivery that returned did to the stages**: nothing, or one more has ended. -/
theorem stages_enrichRun (h : (enrichRun lib runId db d).answer.isOk = true) :
    (enrichRun lib runId db d).db.stages.rows = db.stages.rows ∨
      ∃ t, (enrichRun lib runId db d).db.stages.rows = db.stages.rows ++ [t] ∧
        (ghidraStage db runId d).SameRow t ∧ t.status.HasEnded ∧
        db.KeyFree (ghidraStage db runId d) := by
  revert h
  rw [enrichRun]
  split
  · exact fun h => nomatch h
  · split
    · exact fun _ => Or.inl rfl
    · split
      · exact fun _ => Or.inl rfl
      · split
        · exact fun h => nomatch h
        · rename_i opened hinsert
          intro h
          have hkey := (exists_insertStage_iff.mp ⟨opened, hinsert⟩).1
          obtain ⟨stages, rfl, hrows⟩ := insertStage_eq_some hinsert
          obtain ⟨t, hrows', hsame, hended⟩ :=
            @closes_startStage lib { db with stages } _ (ghidraStage db runId d) d hrows
          exact Or.inr ⟨t, hrows', hsame, hended h, hkey⟩

/-- A row with a free key leaves the keys unique. -/
theorem nodup_uniqueKey_concat {rows : List RunStage} {s t : RunStage} (hst : s.SameRow t)
    (hfree : ∀ r ∈ rows, r.uniqueKey = none ∨ r.uniqueKey ≠ s.uniqueKey)
    (h : (rows.filterMap RunStage.uniqueKey).Nodup) :
    ((rows ++ [t]).filterMap RunStage.uniqueKey).Nodup := by
  have hkey : ∀ key ∈ rows.filterMap RunStage.uniqueKey, t.uniqueKey ≠ some key := by
    intro key hkey htkey
    obtain ⟨r, hr, hrkey⟩ := List.mem_filterMap.mp hkey
    rw [hst.uniqueKey_eq, ← hrkey] at htkey
    obtain hnone | hne := hfree r hr
    · exact Option.some_ne_none key (hrkey.symm.trans hnone)
    · exact hne htkey.symm
  rw [List.filterMap_append, List.nodup_append]
  refine ⟨h, ?_, fun a ha b hb hab => ?_⟩
  · cases htkey : t.uniqueKey <;> simp [htkey]
  · obtain ⟨r, hr, hrkey⟩ := List.mem_filterMap.mp hb
    obtain rfl := List.mem_singleton.mp hr
    exact hkey a ha (hab ▸ hrkey)

/-- **A delivery that returned leaves what enrichment promises.** -/
theorem Enriched.deliver {db₀ : Db} {s : Enriching} (h : Enriched runId db₀ s)
    (hok : (enrichRun lib runId s.db d).answer.isOk = true) :
    Enriched runId db₀ (deliver lib runId s d) := by
  have hkept := @untouched_enrichRun lib runId s.db d
  obtain ⟨outcome, houtcome⟩ := exists_eq_ok hok
  have hreturned : ∀ e, (BareAnalysis.deliver lib runId s d).answer ≠ some (.error e) := by
    intro e he
    rw [BareAnalysis.deliver, houtcome] at he
    cases he
  obtain hrows | ⟨t, hrows, hsame, hended, hfree⟩ := stages_enrichRun hok
  · refine ⟨hreturned, fun stage hstage => h.ended stage ?_, ?_, hkept.findings.trans h.findings,
      hkept.locations.trans h.locations⟩
    · rw [mem_ghidraStages] at hstage ⊢
      exact hrows ▸ hstage
    · exact hrows.symm ▸ h.unique
  · refine ⟨hreturned, fun stage hstage => ?_, ?_, hkept.findings.trans h.findings,
      hkept.locations.trans h.locations⟩
    · obtain ⟨hmem, hrun, hanalyzer⟩ := mem_ghidraStages.mp hstage
      rw [BareAnalysis.deliver, hrows] at hmem
      obtain hmem | hmem := List.mem_append.mp hmem
      · exact h.ended stage (mem_ghidraStages.mpr ⟨hmem, hrun, hanalyzer⟩)
      · obtain rfl := List.mem_singleton.mp hmem
        exact hended
    · rw [BareAnalysis.deliver, hrows]
      exact nodup_uniqueKey_concat hsame hfree h.unique

/-- A worker with a pack of one literal. -/
def asciiEnricher : Enricher where
  interp := asciiInterpreter
  numerals :=
    { intOf := Json.intOfText
      floatOf := fun text => (Json.intOfText text).map fun n => some n }
  pack := literalPack "hunter2"

/-- A finished scan with one finding, in an executable. -/
def brokerScan : Db where
  runs := Table.single { id := "run", status := .completed }
  artifacts := Table.single
    { id := "root", runId := "run", parentId := none, name := "broker.exe",
      pathInTree := "broker.exe", kind := some "pe", storageKey := some "objects/root" }
  findings := Table.single
    { id := "finding", runId := "run", ruleId := "rule", category := "secret", title := "Secret",
      severity := .high, confidence := 1, valueMasked := "hu***", valueHash := "00" }
  locations :=
    [{ findingId := "finding", runId := "run", artifactId := "root", pathInTree := "broker.exe",
       offset := some 33280 }]

/-- A delivery whose container finished with this document. -/
def deliveryOf (stageId : String) (document : ResultDocument) : Delivery where
  stageId := stageId
  analysis := { result := .ok { status := .completed, exitCode := some 0 }, document }

/-- A delivery whose container did not start. -/
def deliveryRaising (stageId : String) : Delivery where
  stageId := stageId
  analysis := { result := .error (.external "image not found"), document := .missing }

end Run

end BareAnalysis
