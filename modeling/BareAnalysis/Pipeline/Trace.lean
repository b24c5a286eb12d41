import BareAnalysis.Machinery.Fallible
import BareAnalysis.Pipeline.Scan

/-!
# Pipeline/Trace — what a scan that ran through read and wrote

    execute ──returned──▸ ScanSteps: pack, root, payloads, tree, evidence
                    ╲
                     ──▸ rows: artifacts ++ tree, evidence, findings of correlate, manifest

Every read of `execute` that may raise came back on a run that returned, and every write is a row
of the database after it (`ranThrough_of_execute`).
-/

namespace BareAnalysis

open Eff

/-! ## The containers write to the stages alone -/

/-- A part of a scan changes stages and commits. -/
structure OnlyStages (s t : ScanSession) : Prop where
  db : t.db = { s.db with stages := t.db.stages }
  committed : t.committed = s.committed ∨ t.committed = { s.db with stages := t.committed.stages }

instance : Std.Refl OnlyStages := ⟨fun _ => ⟨rfl, Or.inl rfl⟩⟩

instance : IsTrans ScanSession OnlyStages where
  trans s t u h h' := by
    refine ⟨by rw [h'.db, h.db], ?_⟩
    obtain hcommitted | hcommitted := h'.committed
    · rw [hcommitted]
      exact h.committed
    · rw [h.db] at hcommitted
      exact Or.inr hcommitted

section OnlyStages

variable (w : ScanWorld) (run : Run) (root : Artifact)

theorem onlyStages_checkpoint : Within OnlyStages checkpoint :=
  within_modify fun _ => ⟨rfl, Or.inr rfl⟩

theorem onlyStages_writeStage (id : String) (f : RunStage → RunStage) (hf : ∀ s, (f s).id = s.id) :
    Within OnlyStages (writeStage id f hf) := within_modify fun _ => ⟨rfl, Or.inl rfl⟩

theorem onlyStages_openStage (analyzer : String) :
    Within OnlyStages (openStage w run root analyzer) := by
  refine within_bind (within_get_bind fun s => ?_) fun _ => onlyStages_checkpoint
  dsimp only
  rcases s.db.stages.insert (stageRow w run root analyzer) with - | stages
  · exact ⟨rfl, Or.inl rfl⟩
  · exact ⟨rfl, Or.inl rfl⟩

theorem onlyStages_runUnpack (content : Bytes) :
    Within OnlyStages (runUnpack w run root content) := by
  refine within_bind (onlyStages_openStage w run root "unpack") fun _ => ?_
  refine within_bind (within_ofExcept _) fun result => ?_
  refine within_bind (onlyStages_writeStage _ _ _) fun _ => ?_
  refine within_bind (within_ofExcept _) fun payload => ?_
  refine within_bind (within_ofExcept _) fun count => ?_
  refine within_bind (onlyStages_writeStage _ _ _) fun _ => ?_
  refine within_bind (within_ofExcept _) fun truncated => ?_
  split
  · refine within_bind (onlyStages_writeStage _ _ _) fun _ => ?_
    refine within_bind (within_ofExcept _) fun _ => ?_
    exact within_bind (onlyStages_writeStage _ _ _) fun _ => within_pure _
  · exact within_pure _

theorem onlyStages_runStatic (staged : Staged) :
    Within OnlyStages (runStatic w run root staged) := by
  refine within_bind (onlyStages_openStage w run root "static") fun _ => ?_
  refine within_bind (within_ofExcept _) fun result => ?_
  refine within_bind (onlyStages_writeStage _ _ _) fun _ => ?_
  refine within_bind (within_ofExcept _) fun payload => ?_
  refine within_bind (within_ofExcept _) fun count => ?_
  exact within_bind (onlyStages_writeStage _ _ _) fun _ => within_pure _

end OnlyStages

/-! ## What the containers gave back -/

section Containers

variable {w : ScanWorld} {run : Run} {root : Artifact} {s t : ScanSession}

theorem runUnpack_ok {content : Bytes} {out : SandboxResult × Json × Option FileTree}
    (h : exec (runUnpack w run root content) s = (.ok out, t)) :
    (w.unpack root.name content).1.result = .ok out.1 ∧
      payloadOf (w.unpack root.name content).1.document = .ok out.2.1 ∧
      out.2.2 = (w.unpack root.name content).2 := by
  obtain ⟨_, _, -, h⟩ := exec_bind_ok h
  obtain ⟨result, _, hresult, h⟩ := exec_bind_ok h
  obtain ⟨_, _, -, h⟩ := exec_bind_ok h
  obtain ⟨payload, _, hpayload, h⟩ := exec_bind_ok h
  obtain ⟨_, _, -, h⟩ := exec_bind_ok h
  obtain ⟨_, _, -, h⟩ := exec_bind_ok h
  obtain ⟨truncated, _, -, h⟩ := exec_bind_ok h
  have hout : out = (result, payload, (w.unpack root.name content).2) := by
    split at h
    · obtain ⟨_, _, -, h⟩ := exec_bind_ok h
      obtain ⟨_, _, -, h⟩ := exec_bind_ok h
      obtain ⟨_, _, -, h⟩ := exec_bind_ok h
      exact (exec_pure_ok h).1
    · exact (exec_pure_ok h).1
  rw [hout]
  exact ⟨(exec_ofExcept_ok hresult).1, (exec_ofExcept_ok hpayload).1, rfl⟩

theorem runStatic_ok {staged : Staged} {out : SandboxResult × Json}
    (h : exec (runStatic w run root staged) s = (.ok out, t)) :
    (w.static staged run.retainPlaintext).result = .ok out.1 ∧
      payloadOf (w.static staged run.retainPlaintext).document = .ok out.2 := by
  obtain ⟨_, _, -, h⟩ := exec_bind_ok h
  obtain ⟨result, _, hresult, h⟩ := exec_bind_ok h
  obtain ⟨_, _, -, h⟩ := exec_bind_ok h
  obtain ⟨payload, _, hpayload, h⟩ := exec_bind_ok h
  obtain ⟨_, _, -, h⟩ := exec_bind_ok h
  obtain ⟨_, _, -, h⟩ := exec_bind_ok h
  obtain rfl := (exec_pure_ok h).1
  exact ⟨(exec_ofExcept_ok hresult).1, (exec_ofExcept_ok hpayload).1⟩

theorem flush_ok {f : Db → Option Db} {a : Unit} (h : exec (flush f) s = (.ok a, t)) :
    f s.db = some t.db ∧ t.committed = s.committed := by
  replace h := (exec_get_bind _ s).symm.trans h
  rcases hf : f s.db with - | db
  · rw [hf] at h
    cases h
  · rw [hf] at h
    rw [exec_modify_ok h]
    exact ⟨rfl, rfl⟩

end Containers

/-! ## The whole scan -/

/-- What the steps of a scan gave back. -/
structure ScanSteps where
  pack : RulePack
  root : Artifact
  content : Bytes
  unpacked : SandboxResult
  unpackPayload : Json
  nodes : List UnpackNode
  scanned : SandboxResult
  staticPayload : Json
  evidence : List Evidence
  tools : Dict String Json

/-- A scan ran through these steps, and left these rows. -/
structure RanThrough (w : ScanWorld) (run : Run) (db : Db) (steps : ScanSteps) (after : Db) :
    Prop where
  pack : w.pack = .ok steps.pack
  root : rootArtifact db run.id = some steps.root
  content : w.download steps.root = .ok steps.content
  unpacked : (w.unpack steps.root.name steps.content).1.result = .ok steps.unpacked
  unpackPayload : payloadOf (w.unpack steps.root.name steps.content).1.document
    = .ok steps.unpackPayload
  nodes : unpackNodes steps.unpackPayload = .ok steps.nodes
  scanned : (w.static ⟨steps.root.name, steps.content,
      (w.unpack steps.root.name steps.content).2⟩ run.retainPlaintext).result = .ok steps.scanned
  staticPayload : payloadOf (w.static ⟨steps.root.name, steps.content,
      (w.unpack steps.root.name steps.content).2⟩ run.retainPlaintext).document
    = .ok steps.staticPayload
  evidence : toEvidence run steps.staticPayload (stagedPaths steps.root
      (w.unpack steps.root.name steps.content).2 steps.nodes
      (treeRows w run steps.root steps.nodes).2) steps.root = .ok steps.evidence
  artifactRows : after.artifacts.rows
    = db.artifacts.rows ++ (treeRows w run steps.root steps.nodes).1
  evidenceRows : after.evidence = db.evidence ++ steps.evidence
  findingRows : after.findings.rows = db.findings.rows
    ++ (correlate run.id (correlationInput after run steps.pack steps.evidence)).findings
  suppressions : after.suppressions = db.suppressions
  manifest : after.manifests.get? run.id = some (manifestOf w run steps.root steps.pack
    steps.unpacked steps.scanned steps.tools)

section Frames

/-- A link rewrites runs alone. -/
theorem linkPreviousRun_eq (db : Db) (runId : String) (root : Artifact) :
    linkPreviousRun db runId root = { db with runs := (linkPreviousRun db runId root).runs } := by
  rw [linkPreviousRun]
  split <;> rfl

variable {w : ScanWorld} {run : Run} {root : Artifact} {s t : ScanSession}

/-- What the tree writes. -/
theorem materialiseTree_ok {nodes : List UnpackNode} {byPath : Dict String String}
    (h : exec (materialiseTree w run root nodes) s = (.ok byPath, t)) :
    byPath = (treeRows w run root nodes).2 ∧ ∃ artifacts : Table Artifact.id,
      artifacts.rows = s.db.artifacts.rows ++ (treeRows w run root nodes).1 ∧
      t.db = { s.db with artifacts } := by
  obtain ⟨_, u, hflush, h⟩ := exec_bind_ok h
  obtain ⟨hdb, -⟩ := flush_ok hflush
  obtain ⟨rows, hrows, hdb⟩ := Option.bind_eq_some_iff.mp hdb
  obtain ⟨rfl, rfl⟩ := exec_pure_ok h
  exact ⟨rfl, rows, Table.rows_of_insertAll hrows, (Option.some.inj hdb).symm⟩

/-- What the report phase writes. -/
theorem reportPhase_ok {pack : RulePack} {evidence : List Evidence} {results : ScanResults}
    {result : CorrelationResult}
    (h : exec (reportPhase w run root pack evidence results) s = (.ok result, t)) :
    t.db.artifacts = s.db.artifacts ∧ t.db.suppressions = s.db.suppressions ∧
      t.db.evidence = s.db.evidence ++ evidence ∧
      t.db.findings.rows = s.db.findings.rows
        ++ (correlate run.id (correlationInput s.db run pack evidence)).findings ∧
      ∃ tools, t.db.manifests.get? run.id = some (manifestOf w run root pack results.unpacked
        results.scanned tools) := by
  replace h := (exec_modify_bind _ _ s).symm.trans h
  replace h := (exec_get_bind _ _).symm.trans h
  obtain ⟨_, s₁, hfindings, h⟩ := exec_bind_ok h
  obtain ⟨hfindings, -⟩ := flush_ok hfindings
  obtain ⟨findings, hinsert, hfindings⟩ := Option.bind_eq_some_iff.mp hfindings
  obtain ⟨unpackTools, -, h⟩ := exec_ofExcept_bind_ok h
  obtain ⟨staticTools, -, h⟩ := exec_ofExcept_bind_ok h
  obtain ⟨_, s₂, hmanifest, h⟩ := exec_bind_ok h
  obtain ⟨hmanifest, -⟩ := flush_ok hmanifest
  obtain ⟨manifests, hstored, hmanifest⟩ := Option.bind_eq_some_iff.mp hmanifest
  replace h := (exec_modify_bind _ _ s₂).symm.trans h
  obtain ⟨-, rfl⟩ := exec_pure_ok h
  have hdb := (Option.some.inj hfindings).symm
  have hdb' := (Option.some.inj hmanifest).symm
  dsimp only
  rw [linkPreviousRun_eq, hdb', hdb]
  refine ⟨rfl, rfl, rfl, Table.rows_of_insertAll hinsert, unpackTools ++ staticTools, ?_⟩
  rw [Table.get?_of_insert hstored]
  exact if_pos rfl

end Frames

theorem rootArtifact_of_scanRoot {db : Db} {run : Run} {root : Artifact}
    (h : scanRoot db run = .ok root) : rootArtifact db run.id = some root := by
  rw [scanRoot] at h
  rcases hroot : rootArtifact db run.id with - | root'
  · rw [hroot] at h
    cases h
  · rw [hroot] at h
    rw [Except.ok.inj h]

/-- **A scan that returned ran through its steps.** -/
theorem ranThrough_of_execute {w : ScanWorld} {run : Run} {s t : ScanSession} {outcome : ScanOutcome}
    (h : exec (execute w run) s = (.ok outcome, t)) :
    ∃ steps, RanThrough w run s.db steps t.db := by
  obtain ⟨pack, hpack, h⟩ := exec_ofExcept_bind_ok h
  replace h := (exec_get_bind _ s).symm.trans h
  obtain ⟨root, hroot, h⟩ := exec_ofExcept_bind_ok h
  obtain ⟨content, hcontent, h⟩ := exec_ofExcept_bind_ok h
  obtain ⟨⟨unpacked, unpackPayload, tree⟩, s₁, hunpack, h⟩ := exec_bind_ok h
  replace h := (exec_modify_bind _ _ s₁).symm.trans h
  obtain ⟨nodes, hnodes, h⟩ := exec_ofExcept_bind_ok h
  obtain ⟨byPath, s₂, htree, h⟩ := exec_bind_ok h
  replace h := (exec_modify_bind _ _ s₂).symm.trans h
  obtain ⟨_, -, h⟩ := exec_ofExcept_bind_ok h
  obtain ⟨⟨scanned, staticPayload⟩, s₃, hstatic, h⟩ := exec_bind_ok h
  replace h := (exec_modify_bind _ _ s₃).symm.trans h
  obtain ⟨evidence, hevidence, h⟩ := exec_ofExcept_bind_ok h
  obtain ⟨result, s₄, hreport, h⟩ := exec_bind_ok h
  obtain ⟨-, rfl⟩ := exec_pure_ok h
  obtain ⟨hunpacked, hunpackPayload, rfl⟩ := runUnpack_ok hunpack
  obtain ⟨rfl, artifacts, hartifacts, htreeDb⟩ := materialiseTree_ok htree
  obtain ⟨hscanned, hstaticPayload⟩ := runStatic_ok hstatic
  obtain ⟨hsameArtifacts, hsuppressions, hevidenceRows, hfindings, tools, hmanifest⟩ :=
    reportPhase_ok hreport
  -- the containers changed stages alone, the tree its artifacts
  have hdb₁ : s₁.db = { s.db with stages := s₁.db.stages } := by
    have hmove := onlyStages_runUnpack w run root content s
    rw [hunpack] at hmove
    exact hmove.db
  have hdb₃ : s₃.db = { s₂.db with stages := s₃.db.stages } := by
    have hmove := onlyStages_runStatic w run root
      ⟨root.name, content, (w.unpack root.name content).2⟩ { s₂ with committed := s₂.db }
    rw [hstatic] at hmove
    exact hmove.db
  dsimp only at hsameArtifacts hsuppressions hevidenceRows hfindings hartifacts htreeDb
  rw [hdb₃, htreeDb, hdb₁] at hsameArtifacts hsuppressions hevidenceRows hfindings
  rw [hdb₁] at hartifacts
  refine ⟨⟨pack, root, content, unpacked, unpackPayload, nodes, scanned, staticPayload, evidence,
    tools⟩, ?_⟩
  exact
    { pack := hpack
      root := rootArtifact_of_scanRoot hroot
      content := hcontent
      unpacked := hunpacked
      unpackPayload := hunpackPayload
      nodes := hnodes
      scanned := hscanned
      staticPayload := hstaticPayload
      evidence := hevidence
      artifactRows := by rw [hsameArtifacts]; exact hartifacts
      evidenceRows := hevidenceRows
      findingRows := by
        rw [hfindings, correlationInput, correlationInput, Db.artifactsOf, Db.artifactsOf,
          hsameArtifacts, hsuppressions]
      suppressions := hsuppressions
      manifest := hmanifest }

end BareAnalysis
