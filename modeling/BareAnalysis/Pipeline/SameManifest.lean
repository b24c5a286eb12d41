import BareAnalysis.Correlation.Answers
import BareAnalysis.Pipeline.FreshIds
import BareAnalysis.Pipeline.Manifest
import BareAnalysis.Rules.Loader

/-!
# Pipeline/SameManifest — what equal fingerprints leave open

    fingerprint: code, upload, pack, images      not in it: file name, suppressions, plaintext option,
                                                            false positives, file boundaries, id order

Two runs whose manifests hash alike have the same findings as far as everything that is not hashed
agrees too (`sameFindings_of_fingerprint`); with another file name, or a suppression in between, they
need not (`fingerprint_leaves_open`).
-/

namespace BareAnalysis

open Eff

/-- What the analyzers and the rule loader say: functions of the image, the staged rules and what is
staged beside them. -/
structure Analyzers where
  unpack : String → RuleDirectory → String → Bytes → ResultDocument × Option FileTree
  static : String → RuleDirectory → Staged → Bool → ResultDocument
  readRules : String → Bytes → Except PyError (List (Except PyError Rule))
  readText : Bytes → Except PyError String

/-- A run as it was ingested, for which `_execute` completes with images that are known. -/
structure CompletedScan (A : Analyzers) where
  world : ScanWorld
  rules : RuleDirectory
  pack : RulePack
  unpackImage : String
  staticImage : String
  db : Db
  run : Run
  root : Artifact
  content : Bytes
  loaded : loadRulePack A.readRules A.readText rules = .ok pack
  worldPack : world.pack = .ok pack
  unpackDocument : ∀ name bytes, (world.unpack name bytes).1.document
    = (A.unpack unpackImage rules name bytes).1
  unpackTree : ∀ name bytes, (world.unpack name bytes).2 = (A.unpack unpackImage rules name bytes).2
  unpackDigest : ∀ name bytes r, (world.unpack name bytes).1.result = .ok r → r.digest = unpackImage
  staticDocument : ∀ staged plaintext, (world.static staged plaintext).document
    = A.static staticImage rules staged plaintext
  staticDigest : ∀ staged plaintext r, (world.static staged plaintext).result = .ok r →
    r.digest = staticImage
  known : unpackImage ≠ "unknown" ∧ staticImage ≠ "unknown"
  artifactId_ne : ∀ n, world.artifactId n ≠ ""
  ingested : db.artifactsOf run.id = [root]
  isRoot : root.parentId = none
  downloaded : world.download root = .ok content
  sha256 : root.sha256 = sha256Bytes (content.map UInt8.toNat)
  noFindings : db.findingsOf run.id = []
  noEvidence : ∀ e ∈ db.evidence, e.runId ≠ run.id
  completes : ∃ outcome, (exec (execute world run) ⟨db, db⟩).1 = .ok outcome

namespace CompletedScan

variable {A : Analyzers} (x : CompletedScan A)

/-- The database after the scan. -/
def after : Db := (exec (execute x.world x.run) ⟨x.db, x.db⟩).2.db

/-- The findings of the run. -/
def findings : List Finding := x.after.findingsOf x.run.id

/-- What `correlate` was given. -/
def input : CorrelationInput :=
  correlationInput x.after x.run x.pack (x.after.evidence.filter fun e => e.runId == x.run.id)

/-- The ids the run drew for its artifacts, the root's first. -/
def ids : List String := (x.after.artifactsOf x.run.id).map Artifact.id

/-- The manifest of the run. -/
def manifest : Option RunManifest := x.after.manifests.get? x.run.id

/-- Its fingerprint. -/
def fingerprint (printable : Char → Bool) : Option String := x.after.fingerprint printable x.run.id

/-- The scan ran through these steps, and its database says so. -/
structure RanAs (steps : ScanSteps) : Prop where
  ran : RanThrough x.world x.run x.db steps x.after
  pack : steps.pack = x.pack
  root : steps.root = x.root
  content : steps.content = x.content
  input : x.input = correlationInput x.after x.run x.pack steps.evidence
  findings : x.findings = (correlate x.run.id x.input).findings

/-- **A completed scan ran through its steps.** -/
theorem exists_steps : ∃ steps, x.RanAs steps := by
  obtain ⟨outcome, houtcome⟩ := x.completes
  obtain ⟨steps, h⟩ := ranThrough_of_execute (Prod.ext houtcome rfl :
    exec (execute x.world x.run) ⟨x.db, x.db⟩
      = (.ok outcome, (exec (execute x.world x.run) ⟨x.db, x.db⟩).2))
  replace h : RanThrough x.world x.run x.db steps x.after := h
  have hpack : steps.pack = x.pack := Except.ok.inj (h.pack.symm.trans x.worldPack)
  have hroot : steps.root = x.root := by
    have hfound := h.root
    rw [rootArtifact, x.ingested, List.find?_cons_of_pos (by rw [x.isRoot]; rfl)] at hfound
    exact (Option.some.inj hfound).symm
  have hcontent : steps.content = x.content := by
    have hdownloaded := h.content
    rw [hroot] at hdownloaded
    exact Except.ok.inj (hdownloaded.symm.trans x.downloaded)
  have hevidence : x.after.evidence.filter (fun e => e.runId == x.run.id) = steps.evidence := by
    have hrows : x.after.evidence = x.db.evidence ++ steps.evidence := h.evidenceRows
    have hold : x.db.evidence.filter (fun e => e.runId == x.run.id) = [] :=
      List.filter_eq_nil_iff.mpr fun e he => by simpa using x.noEvidence e he
    have hnew : steps.evidence.filter (fun e => e.runId == x.run.id) = steps.evidence :=
      List.filter_eq_self.mpr fun e he => by simpa using (of_toEvidence h.evidence he).1
    rw [hrows, List.filter_append, hold, hnew, List.nil_append]
  have hinput : x.input = correlationInput x.after x.run x.pack steps.evidence := by
    rw [CompletedScan.input, hevidence]
  refine ⟨steps, h, hpack, hroot, hcontent, hinput, ?_⟩
  have hrows := h.findingRows
  rw [hpack] at hrows
  have hold : x.db.findings.rows.filter (fun f => f.runId == x.run.id) = [] := x.noFindings
  have hnew : (correlate x.run.id x.input).findings.filter (fun f => f.runId == x.run.id)
      = (correlate x.run.id x.input).findings :=
    List.filter_eq_self.mpr fun f hf => by simpa using (of_mem_findings hf).1
  rw [CompletedScan.findings, Db.findingsOf, Table.select, hrows, ← hinput, List.filter_append, hold,
    hnew, List.nil_append]

end CompletedScan

section Two

variable {A : Analyzers}

/-- The two runs have the same set of findings by id, rule, severity and value. -/
def SameFindingSet (x y : CompletedScan A) : Prop :=
  ∀ answer, answer ∈ y.findings.map Finding.answer ↔ answer ∈ x.findings.map Finding.answer

/-- The hashes the two runs compute do not collide. -/
structure ShaApart (printable : Char → Bool) (x y : CompletedScan A) : Prop where
  manifests : ∀ m ∈ x.manifest, ∀ m' ∈ y.manifest,
    m'.fingerprint printable = m.fingerprint printable →
      m'.fingerprintText printable = m.fingerprintText printable
  uploads : sha256Bytes (y.content.map UInt8.toNat) = sha256Bytes (x.content.map UInt8.toNat) →
    y.content.map UInt8.toNat = x.content.map UInt8.toNat
  packs : y.rules.hash = x.rules.hash → y.rules.hashed = x.rules.hashed

/-- Manifests of one text have one fingerprint. -/
theorem fingerprint_eq_of_text {printable : Char → Bool} {x y : CompletedScan A}
    (htext : y.manifest.map (·.fingerprintText printable)
      = x.manifest.map (·.fingerprintText printable)) :
    y.fingerprint printable = x.fingerprint printable := by
  have hhash := congrArg (Option.map sha256) htext
  rwa [Option.map_map, Option.map_map] at hhash

/-- Runs of one upload, one directory of rules and one manifest text have nothing to collide. -/
theorem shaApart_of_eq {printable : Char → Bool} {x y : CompletedScan A}
    (htext : y.manifest.map (·.fingerprintText printable)
      = x.manifest.map (·.fingerprintText printable))
    (hcontent : y.content = x.content) (hrules : y.rules = x.rules) : ShaApart printable x y where
  manifests m hm m' hm' _ := by
    rw [Option.mem_def.mp hm, Option.mem_def.mp hm'] at htext
    exact Option.some.inj htext
  uploads _ := by rw [hcontent]
  packs _ := by rw [hrules]

/-- **What the fingerprint leaves out agrees**: separators that do not occur in the versions and
digests, the boundaries of the rule files and what is beside them, the file name, the option, the
suppressions, and the order the random ids fall in. -/
structure UnhashedAgree (x y : CompletedScan A) : Prop where
  legible : ∀ part ∈ [x.world.bareVersion, x.pack.version, x.unpackImage, x.staticImage,
    y.world.bareVersion, y.pack.version, y.unpackImage, y.staticImage], '\x1f' ∉ part.toList
  ruleFiles : y.rules.ruleFiles.map (fun f => (f.1, f.2.length))
    = x.rules.ruleFiles.map fun f => (f.1, f.2.length)
  falsePositives : y.rules.falsePositives = x.rules.falsePositives
  version : y.rules.version = x.rules.version
  name : y.root.name = x.root.name
  pathInTree : y.root.pathInTree = x.root.pathInTree
  retainPlaintext : y.run.retainPlaintext = x.run.retainPlaintext
  suppressions : ∀ ruleId valueHash path,
    isSuppressed (indexSuppressions y.db.suppressions) ruleId valueHash path
      = isSuppressed (indexSuppressions x.db.suppressions) ruleId valueHash path
  order : SameOrder x.ids y.ids "" ""

/-! ## Runs that agree -/

variable {printable : Char → Bool} {x y : CompletedScan A} {steps steps' : ScanSteps}

/-- The manifest of a scan whose versions and digests are legible is. -/
theorem CompletedScan.RanAs.isLegible (h : x.RanAs steps)
    (hparts : ∀ part ∈ [x.world.bareVersion, x.pack.version, x.unpackImage, x.staticImage],
      '\x1f' ∉ part.toList) :
    (manifestOf x.world x.run steps.root steps.pack steps.unpacked steps.scanned
      steps.tools).IsLegible := by
  have hunpack : steps.unpacked.digest = x.unpackImage := x.unpackDigest _ _ _ h.ran.unpacked
  have hstatic : steps.scanned.digest = x.staticImage := x.staticDigest _ _ _ h.ran.scanned
  have hclear : ∀ data : List ℕ, '\x1f' ∉ (sha256Bytes data).toList := fun data =>
    (isDigest_sha256Bytes data).not_mem (by decide)
  have hhash : x.pack.hash = x.rules.hash := hash_of_loadRulePack x.loaded
  simp only [List.forall_mem_cons] at hparts
  obtain ⟨hversion, hpackVersion, hunpackImage, hstaticImage, -⟩ := hparts
  rw [RunManifest.IsLegible, headParts_manifestOf, hunpack, hstatic, h.pack, h.root, x.sha256,
    hhash]
  simp only [List.forall_mem_cons, String.toList_append, List.mem_append, not_or]
  exact ⟨hversion, hclear _, hpackVersion, hclear _, ⟨by decide, hstaticImage⟩,
    ⟨by decide, hunpackImage⟩, fun _ h => by cases h⟩

/-- **The upload, the rules and the images are those of the fingerprint.** -/
theorem UnhashedAgree.inputs_eq (h : x.RanAs steps) (h' : y.RanAs steps')
    (hagree : UnhashedAgree x y) (hfingerprint : y.fingerprint printable = x.fingerprint printable)
    (hsha : ShaApart printable x y) :
    y.content = x.content ∧ y.rules = x.rules ∧ y.unpackImage = x.unpackImage ∧
      y.staticImage = x.staticImage := by
  have hmanifest : x.manifest = _ := h.ran.manifest
  have hmanifest' : y.manifest = _ := h'.ran.manifest
  have hdigests : (manifestOf y.world y.run steps'.root steps'.pack steps'.unpacked steps'.scanned
      steps'.tools).fingerprint printable = (manifestOf x.world x.run steps.root steps.pack
      steps.unpacked steps.scanned steps.tools).fingerprint printable := by
    rw [CompletedScan.fingerprint, CompletedScan.fingerprint, Db.fingerprint, Db.fingerprint,
      h.ran.manifest, h'.ran.manifest] at hfingerprint
    exact Option.some.inj hfingerprint
  have htext := hsha.manifests _ hmanifest _ hmanifest' hdigests
  have hlegible := h.isLegible fun part hpart =>
    hagree.legible part (List.mem_append_left _ hpart)
  have hlegible' := h'.isLegible fun part hpart =>
    hagree.legible part (List.mem_append_right [_, _, _, _] hpart)
  obtain ⟨hupload, -, hhash, hstatic, hunpack⟩ :=
    identified_of_fingerprintText hlegible hlegible' htext
  rw [x.unpackDigest _ _ _ h.ran.unpacked, y.unpackDigest _ _ _ h'.ran.unpacked] at hunpack
  rw [x.staticDigest _ _ _ h.ran.scanned, y.staticDigest _ _ _ h'.ran.scanned] at hstatic
  rw [h.root, h'.root, x.sha256, y.sha256] at hupload
  rw [h.pack, h'.pack, hash_of_loadRulePack x.loaded, hash_of_loadRulePack y.loaded] at hhash
  have hfiles := ruleFiles_eq_of_hashed hagree.ruleFiles (hsha.packs hhash)
  have hrules : y.rules = x.rules := RuleDirectory.ext hfiles hagree.falsePositives hagree.version
  exact ⟨List.map_injective_iff.mpr (fun _ _ => UInt8.toNat_inj.mp) (hsha.uploads hupload), hrules,
    hunpack, hstatic⟩

/-- **…so the two runs read the same.** -/
theorem UnhashedAgree.readsSame (h : x.RanAs steps) (h' : y.RanAs steps')
    (hagree : UnhashedAgree x y) (hfingerprint : y.fingerprint printable = x.fingerprint printable)
    (hsha : ShaApart printable x y) :
    ReadsSame x.world y.world x.run y.run x.db y.db steps steps' := by
  obtain ⟨hbytes, hrules, hunpackImage, hstaticImage⟩ := hagree.inputs_eq h h' hfingerprint hsha
  have hname : steps'.root.name = steps.root.name := by rw [h.root, h'.root, hagree.name]
  have hbytes' : steps'.content = steps.content := by rw [h.content, h'.content, hbytes]
  have htree : (y.world.unpack steps'.root.name steps'.content).2
      = (x.world.unpack steps.root.name steps.content).2 := by
    rw [x.unpackTree, y.unpackTree, hname, hbytes', hrules, hunpackImage]
  have hpayload : steps'.unpackPayload = steps.unpackPayload := by
    have hread := h.ran.unpackPayload
    have hread' := h'.ran.unpackPayload
    rw [x.unpackDocument] at hread
    rw [y.unpackDocument, hname, hbytes', hrules, hunpackImage, hread] at hread'
    exact (Except.ok.inj hread').symm
  have hnodes : steps'.nodes = steps.nodes := by
    have hread' := h'.ran.nodes
    rw [hpayload, h.ran.nodes] at hread'
    exact (Except.ok.inj hread').symm
  have hstatic : steps'.staticPayload = steps.staticPayload := by
    have hread := h.ran.staticPayload
    have hread' := h'.ran.staticPayload
    rw [x.staticDocument] at hread
    rw [y.staticDocument, htree, hname, hbytes', hrules, hstaticImage, hagree.retainPlaintext,
      hread] at hread'
    exact (Except.ok.inj hread').symm
  have hloaded : y.pack = x.pack := by
    have hread := y.loaded
    rw [hrules, x.loaded] at hread
    exact (Except.ok.inj hread).symm
  have hids : x.ids = artifactIds x.world x.run steps.root steps.nodes :=
    ids_artifactsOf h.ran (by rw [h.root]; exact x.ingested)
  have hids' : y.ids = artifactIds y.world y.run steps'.root steps'.nodes :=
    ids_artifactsOf h'.ran (by rw [h'.root]; exact y.ingested)
  have horder := hagree.order
  rw [hids, hids'] at horder
  exact
    { name := hname
      pathInTree := by rw [h.root, h'.root, hagree.pathInTree]
      retainPlaintext := hagree.retainPlaintext
      pack := by rw [h.pack, h'.pack, hloaded]
      tree := htree
      nodes := hnodes
      staticPayload := hstatic
      suppressions := hagree.suppressions
      order := horder }

/-- **What equal fingerprints come to**: runs that also agree in what is not hashed have the same
findings, and two runs have the same findings exactly if each rule reports the same values at the
same first places, and is rated alike, in both. -/
theorem sameFindings_of_fingerprint (hfingerprint : y.fingerprint printable = x.fingerprint printable)
    (hsha : ShaApart printable x y) :
    (UnhashedAgree x y → SameFindingSet x y) ∧
      (HashesApart x.input y.input → (SameFindingSet x y ↔ SameAnswers x.input y.input)) := by
  obtain ⟨steps, h⟩ := x.exists_steps
  obtain ⟨steps', h'⟩ := y.exists_steps
  have hanswers : SameFindingSet x y ↔
      ∀ answer, answer ∈ answers y.run.id y.input ↔ answer ∈ answers x.run.id x.input := by
    rw [SameFindingSet, h.findings, h'.findings]
    rfl
  rw [hanswers]
  refine ⟨fun hagree => ?_, fun hapart => sameAnswers_iff hapart x.run.id y.run.id⟩
  have hsame := hagree.readsSame h h' hfingerprint hsha
  have hpacks : y.pack = x.pack := by
    have hsamePack := hsame.pack
    rwa [h.pack, h'.pack] at hsamePack
  have hreport := hsame.report_eq h.ran h'.ran (by rw [h.root]; exact x.ingested)
    (by rw [h'.root]; exact y.ingested) x.artifactId_ne y.artifactId_ne
  rw [h.pack, h'.pack, ← h.input, ← h'.input] at hreport
  have hstates : SameAnswers x.input y.input :=
    { report := hreport
      severity := fun ruleId _ => by
        rw [h.input, h'.input, correlationInput, correlationInput, hpacks] }
  exact hstates.mem_answers_iff x.run.id y.run.id

end Two

/-! ## Three runs of one upload -/

/-- Analyzers that find one password in the uploaded file. -/
def onePassword : Analyzers where
  unpack _ _ _ _ := (.parsed (.obj []), none)
  static _ _ staged _ := .parsed (.obj [("files", .arr [.obj
    [("relative_path", .str ("root/" ++ staged.rootName)), ("matches", .arr [.obj
      [("rule_id", .str "password"), ("value_hash", .str "c0ffee"), ("value_masked", .str "****"),
        ("offset", .int 7)]])]])])
  readRules _ _ := .ok [.ok { id := "password", name := "Password", category := "credential",
                              severity := .high }]
  readText _ := .ok "1"

/-- One file of rules. -/
def passwordRules : RuleDirectory := { ruleFiles := [("rules.yaml", [])] }

/-- …and the pack it makes. -/
def passwordRulePack : RulePack where
  version := "0.0.0-dev"
  rules := [{ id := "password", name := "Password", category := "credential", severity := .high }]
  hash := passwordRules.hash

/-- The containers on these analyzers. -/
def passwordWorld : ScanWorld where
  bareVersion := "1.0"
  pack := .ok passwordRulePack
  download _ := .ok []
  unpack name bytes :=
    (⟨.ok { status := .completed, exitCode := some 0, imageDigest := some "sha256:01" },
      (onePassword.unpack "sha256:01" passwordRules name bytes).1⟩, none)
  static staged plaintext :=
    ⟨.ok { status := .completed, exitCode := some 0, imageDigest := some "sha256:02" },
      onePassword.static "sha256:02" passwordRules staged plaintext⟩
  stageId analyzer := analyzer
  artifactId n := "node" ++ toString n
  clock _ := 0

/-- An empty file, uploaded under this name. -/
def passwordRoot (runId fileName : String) : Artifact where
  id := "root"
  runId := runId
  parentId := none
  name := fileName
  pathInTree := fileName
  sha256 := sha256Bytes []

/-- The database a run of it starts from. -/
def passwordDb (runId fileName : String) (suppressions : List Suppression) : Db where
  runs := .single { id := runId, status := .running }
  artifacts := .single (passwordRoot runId fileName)
  suppressions := suppressions

/-- A run of the file that completes. -/
def passwordScan (runId fileName : String) (suppressions : List Suppression)
    (completes : ∃ outcome, (exec (execute passwordWorld { id := runId, status := .running })
      ⟨passwordDb runId fileName suppressions, passwordDb runId fileName suppressions⟩).1
      = .ok outcome) : CompletedScan onePassword where
  world := passwordWorld
  rules := passwordRules
  pack := passwordRulePack
  unpackImage := "sha256:01"
  staticImage := "sha256:02"
  db := passwordDb runId fileName suppressions
  run := { id := runId, status := .running }
  root := passwordRoot runId fileName
  content := []
  loaded := rfl
  worldPack := rfl
  unpackDocument _ _ := rfl
  unpackTree _ _ := rfl
  unpackDigest _ _ r h := by
    obtain rfl := Except.ok.inj h
    decide
  staticDocument _ _ := rfl
  staticDigest _ _ r h := by
    obtain rfl := Except.ok.inj h
    decide
  known := by decide
  artifactId_ne n h := by
    have hlen : ("node" ++ toString n).length = 0 := congrArg String.length h
    rw [String.length_append] at hlen
    exact absurd (Nat.eq_zero_of_add_eq_zero_right hlen) (by decide)
  ingested := by simp [passwordDb, passwordRoot, Db.artifactsOf, Table.select, Table.single]
  isRoot := rfl
  downloaded := rfl
  sha256 := rfl
  noFindings := rfl
  noEvidence _ he := by cases he
  completes := completes

/-- The upload is scanned… -/
def firstScan : CompletedScan onePassword := passwordScan "one" "app.exe" [] ⟨_, rfl⟩

/-- …once more… -/
def secondScan : CompletedScan onePassword := passwordScan "two" "app.exe" [] ⟨_, rfl⟩

/-- …under another file name… -/
def renamedScan : CompletedScan onePassword := passwordScan "three" "other.exe" [] ⟨_, rfl⟩

/-- …and after its finding was suppressed. -/
def suppressedScan : CompletedScan onePassword :=
  passwordScan "four" "app.exe" [{ valueHash := "c0ffee", ruleId := "password" }] ⟨_, rfl⟩

/-- The manifests of the runs of one upload hash the same text. -/
theorem manifestText_eq : ∀ y ∈ [secondScan, renamedScan, suppressedScan],
    y.manifest.map (·.fingerprintText fun _ => true)
      = firstScan.manifest.map (·.fingerprintText fun _ => true) := by
  simp only [List.forall_mem_cons]
  exact ⟨rfl, rfl, rfl, fun _ h => by cases h⟩

/-- A second run of the upload has the same findings. -/
theorem sameFindings_secondScan : SameFindingSet firstScan secondScan := by
  have htext := manifestText_eq secondScan (by simp)
  refine (sameFindings_of_fingerprint (fingerprint_eq_of_text htext)
    (shaApart_of_eq htext rfl rfl)).1 ?_
  exact
    { legible := by decide
      ruleFiles := rfl
      falsePositives := rfl
      version := rfl
      name := rfl
      pathInTree := rfl
      retainPlaintext := rfl
      suppressions := fun _ _ _ => rfl
      order := by
        have hids : secondScan.ids = firstScan.ids := by decide +kernel
        rw [hids]
        exact sameOrder_refl _ _ }

/-- **Runs with one fingerprint and other findings**: the same bytes under another file name, and
under the same name once a suppression silences the finding. -/
theorem fingerprint_leaves_open :
    (renamedScan.fingerprint (fun _ => true) = firstScan.fingerprint (fun _ => true) ∧
        ¬SameFindingSet firstScan renamedScan) ∧
      (suppressedScan.fingerprint (fun _ => true) = firstScan.fingerprint (fun _ => true) ∧
        ¬SameFindingSet firstScan suppressedScan) ∧
      ¬ ∀ (A : Analyzers) (printable : Char → Bool) (x y : CompletedScan A),
        ShaApart printable x y → y.fingerprint printable = x.fingerprint printable →
          SameFindingSet x y := by
  have hrenamed := manifestText_eq renamedScan (by simp)
  have hsuppressed := manifestText_eq suppressedScan (by simp)
  have hother : ¬SameFindingSet firstScan renamedScan := fun h => by
    have hsub : firstScan.findings.map Finding.answer ⊆ renamedScan.findings.map Finding.answer :=
      fun answer hanswer => (h answer).mpr hanswer
    exact absurd hsub (by decide +kernel)
  have hnone : ¬SameFindingSet firstScan suppressedScan := fun h => by
    have hsub : firstScan.findings.map Finding.answer ⊆ suppressedScan.findings.map Finding.answer :=
      fun answer hanswer => (h answer).mpr hanswer
    exact absurd hsub (by decide +kernel)
  refine ⟨⟨fingerprint_eq_of_text hrenamed, hother⟩, ⟨fingerprint_eq_of_text hsuppressed, hnone⟩,
    fun h => ?_⟩
  exact hother (h onePassword (fun _ => true) firstScan renamedScan
    (shaApart_of_eq hrenamed rfl rfl) (fingerprint_eq_of_text hrenamed))

end BareAnalysis
