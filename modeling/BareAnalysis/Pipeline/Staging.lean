import BareAnalysis.Machinery.PurePath
import BareAnalysis.Pipeline.Runs
import BareAnalysis.Unpack.Disk

/-!
# Pipeline/Staging — where a scan puts the files of its run

    run_root / run_id ─┬─ rules     / *.yaml, VERSION
                       ├─ unpack_in / <filename>
                       └─ scan_in   / root / <filename>

The filename of the upload is joined to two directories as it came.  Read apart from where it
starts, a relative name climbs some levels and then goes down: `normalised`.
-/

namespace BareAnalysis

/-- `base / name`, without links: an absolute name discards the base. -/
def joined (base : Path) (name : String) : Path :=
  if name.toList.head? = some '/' then Path.resolve (Path.partsOf name)
  else Path.resolve (base ++ Path.partsOf name)

/-- The directory of a run, and the rule pack that travels with it. -/
structure RunFiles where
  runRoot : ResolvedPath
  runId : Component
  /-- The names `source.glob("*.yaml")` finds, sorted. -/
  rules : List Component
  hasVersion : Bool

namespace RunFiles

variable (files : RunFiles)

/-- `run_dir`. -/
def runDir : Path := (files.runRoot ++ [files.runId]).map Subtype.val

/-- The copies of `_stage_rules`. -/
def ruleCopies : List Path :=
  (files.rules.map fun rule => joined (files.runDir ++ ["rules"]) rule.1)
    ++ if files.hasVersion then [joined (files.runDir ++ ["rules"]) "VERSION"] else []

/-- `artifact_path`, where the artifact is downloaded to. -/
def artifactPath (root : Artifact) : Path := joined (files.runDir ++ ["unpack_in"]) root.name

/-- `root_staged`, the copy the scanner is given. -/
def rootStaged (root : Artifact) : Path := joined (files.runDir ++ ["scan_in", "root"]) root.name

/-- The files `_execute` writes for a run, in the order it comes to them. -/
def written (root : Artifact) : List Path :=
  files.ruleCopies ++ [files.artifactPath root, files.rootStaged root]

end RunFiles

/-- `create_run`: an upload without a filename is refused. -/
def createRun (db : Db) (upload : Upload) : Option Db :=
  if upload.filename = "" then none else ingestArtifact db upload

/-! ## Climbs -/

/-- How many levels a relative path climbs, and the components it then goes down. -/
def normalised (parts : Path) : ℕ × Path :=
  parts.foldl (fun (ups, down) part =>
    if part = ".." then (if down = [] then (ups + 1, []) else (ups, down.dropLast))
    else (ups, down ++ [part])) (0, [])

theorem normalised_concat (parts : Path) (part : String) :
    normalised (parts ++ [part]) =
      if part = ".." then
        if (normalised parts).2 = [] then ((normalised parts).1 + 1, [])
        else ((normalised parts).1, (normalised parts).2.dropLast)
      else ((normalised parts).1, (normalised parts).2 ++ [part]) := by
  rw [normalised, List.foldl_append]
  rfl

theorem resolve_concat (parts : Path) (part : String) :
    Path.resolve (parts ++ [part]) =
      if part = ".." then (Path.resolve parts).dropLast else Path.resolve parts ++ [part] := by
  rw [Path.resolve, List.foldl_append]
  rfl

theorem resolve_eq_self {base : Path} (h : ".." ∉ base) : Path.resolve base = base := by
  induction base using List.reverseRecOn with
  | nil => rfl
  | append_singleton base part ih =>
    rw [List.mem_append, List.mem_singleton, not_or] at h
    rw [resolve_concat, if_neg fun he => h.2 he.symm, ih h.1]

/-- **A relative path drops as many components of its base as it climbs.** -/
theorem resolve_append {base : Path} (h : ".." ∉ base) (parts : Path) :
    Path.resolve (base ++ parts)
      = base.take (base.length - (normalised parts).1) ++ (normalised parts).2 := by
  induction parts using List.reverseRecOn with
  | nil => simp [normalised, resolve_eq_self h]
  | append_singleton parts part ih =>
    rw [← List.append_assoc, resolve_concat, ih, normalised_concat]
    by_cases hup : part = ".."
    · rw [if_pos hup, if_pos hup]
      by_cases hdown : (normalised parts).2 = []
      · rw [if_pos hdown, hdown, List.append_nil, List.append_nil, List.dropLast_eq_take,
          List.length_take, List.take_take]
        congr 1
        omega
      · rw [if_neg hdown, List.dropLast_append_of_ne_nil hdown]
    · rw [if_neg hup, if_neg hup, List.append_assoc]

/-- The last names of a directory are the first that a path goes down. -/
def ComesBack (dir : Path) (climbed : ℕ) (down : Path) : Prop :=
  dir.drop (dir.length - climbed) <+: down

instance (dir : Path) (climbed : ℕ) (down : Path) : Decidable (ComesBack dir climbed down) :=
  inferInstanceAs (Decidable (_ <+: _))

/-- **A path that climbs out of a directory ends in it** only if it comes back by the names of what
it left. -/
theorem prefix_take_append_iff {dir sub down : Path} {ups : ℕ} :
    dir <+: (dir ++ sub).take ((dir ++ sub).length - ups) ++ down ↔
      ComesBack dir (ups - sub.length) down := by
  rw [ComesBack]
  by_cases hups : ups ≤ sub.length
  · rw [Nat.sub_eq_zero_of_le hups, Nat.sub_zero, List.drop_length, List.length_append,
      Nat.add_sub_assoc hups, List.take_length_add_append, List.append_assoc]
    exact iff_of_true (List.prefix_append _ _) List.nil_prefix
  · have hlen : (dir ++ sub).length - ups = dir.length - (ups - sub.length) := by
      rw [List.length_append]
      omega
    rw [hlen, List.take_append_of_le_length (Nat.sub_le _ _)]
    nth_rewrite 1 [← List.take_append_drop (dir.length - (ups - sub.length)) dir]
    exact List.prefix_append_right_inj _

/-! ## Inside the directory of the run -/

/-- A filename that leads no file out of a directory: a relative one climbs no further than the
directory, or comes back. -/
def StaysInside (dir : Path) (filename : String) : Prop :=
  let walk := normalised (Path.partsOf filename)
  if filename.toList.head? = some '/' then dir <+: walk.2
  else ComesBack dir (walk.1 - 1) walk.2 ∧ ComesBack dir (walk.1 - 2) walk.2

instance (dir : Path) (filename : String) : Decidable (StaysInside dir filename) :=
  inferInstanceAs (Decidable (ite _ _ _))

theorem partsOf_component (part : Component) : Path.partsOf part.1 = [part.1] := by
  obtain ⟨hne, hdot, -, hslash⟩ := part.2
  rw [Path.partsOf, List.splitOn_eq_singleton hslash]
  simp [hne, hdot]

theorem head?_component (part : Component) : part.1.toList.head? ≠ some '/' := fun h =>
  part.2.2.2.2 (List.mem_of_head? h)

namespace RunFiles

variable {files : RunFiles}

theorem not_mem_runDir (files : RunFiles) : ".." ∉ files.runDir := fun h => by
  obtain ⟨part, -, heq⟩ := List.mem_map.mp h
  exact part.2.2.2.1 heq

/-- A component below a directory of the run stays there. -/
theorem runDir_prefix_joined {sub : Path} (hsub : ".." ∉ sub) (part : Component) :
    files.runDir <+: joined (files.runDir ++ sub) part.1 := by
  have hbase : ".." ∉ files.runDir ++ sub ++ [part.1] := by
    simp only [List.mem_append, List.mem_singleton, not_or]
    exact ⟨⟨files.not_mem_runDir, hsub⟩, fun h => part.2.2.2.1 h.symm⟩
  rw [joined, if_neg (head?_component part), partsOf_component, resolve_eq_self hbase,
    List.append_assoc]
  exact List.prefix_append _ _

/-- **A filename below a directory of the run** ends in the run's directory exactly when it comes
back from where it climbs to. -/
theorem runDir_prefix_joined_iff {sub : Path} (hsub : ".." ∉ sub) (name : String) :
    files.runDir <+: joined (files.runDir ++ sub) name ↔
      if name.toList.head? = some '/' then files.runDir <+: (normalised (Path.partsOf name)).2
      else ComesBack files.runDir ((normalised (Path.partsOf name)).1 - sub.length)
        (normalised (Path.partsOf name)).2 := by
  rw [joined]
  split
  · have habs := @resolve_append [] List.not_mem_nil (Path.partsOf name)
    rw [List.nil_append, List.take_nil, List.nil_append] at habs
    rw [habs]
  · have hbase : ".." ∉ files.runDir ++ sub := by
      rw [List.mem_append, not_or]
      exact ⟨files.not_mem_runDir, hsub⟩
    rw [resolve_append hbase, prefix_take_append_iff]

theorem runDir_prefix_of_mem_ruleCopies {p : Path} (h : p ∈ files.ruleCopies) :
    files.runDir <+: p := by
  obtain h | h := List.mem_append.mp h
  · obtain ⟨rule, -, rfl⟩ := List.mem_map.mp h
    exact runDir_prefix_joined (by decide) rule
  · split at h
    · rw [List.mem_singleton.mp h]
      exact runDir_prefix_joined (by decide) ⟨"VERSION", by decide⟩
    · cases h

end RunFiles

/-- The root artifact of a new run is the upload's. -/
theorem rootArtifact_createRun {db db' : Db} {upload : Upload}
    (h : createRun db upload = some db') (hnew : db.artifactsOf upload.runId = []) :
    rootArtifact db' upload.runId = some upload.artifact := by
  rw [createRun] at h
  split at h
  · cases h
  obtain ⟨runs, -, h⟩ := Option.bind_eq_some_iff.mp h
  obtain ⟨artifacts, hartifacts, h⟩ := Option.bind_eq_some_iff.mp h
  obtain rfl := Option.some.inj h
  have hrows : artifacts.select (fun a => a.runId == upload.runId) = [upload.artifact] := by
    rw [Table.select, Table.rows_of_insert hartifacts, List.filter_append]
    have hold : db.artifacts.rows.filter (fun a => a.runId == upload.runId) = [] := hnew
    rw [hold, List.nil_append, List.filter_singleton,
      show upload.artifact.runId = upload.runId from rfl, BEq.rfl, cond_true]
  rw [rootArtifact, Db.artifactsOf, hrows]
  rfl

/-- **Every file of a run is written inside its directory** exactly when the filename of the upload
leads nowhere else. -/
theorem written_inside_iff {db db' : Db} {upload : Upload} {root : Artifact} {files : RunFiles}
    (h : createRun db upload = some db') (hnew : db.artifactsOf upload.runId = [])
    (hroot : rootArtifact db' upload.runId = some root) :
    (∀ p ∈ files.written root, files.runDir <+: p) ↔
      StaysInside files.runDir upload.filename := by
  obtain rfl := Option.some.inj (hroot.symm.trans (rootArtifact_createRun h hnew))
  have hwritten : (∀ p ∈ files.written upload.artifact, files.runDir <+: p) ↔
      files.runDir <+: files.artifactPath upload.artifact ∧
        files.runDir <+: files.rootStaged upload.artifact := by
    constructor
    · intro hall
      exact ⟨hall _ (by simp [RunFiles.written]), hall _ (by simp [RunFiles.written])⟩
    · rintro ⟨hpath, hstaged⟩ p hp
      simp only [RunFiles.written, List.mem_append, List.mem_cons, List.not_mem_nil,
        or_false] at hp
      obtain hp | rfl | rfl := hp
      · exact RunFiles.runDir_prefix_of_mem_ruleCopies hp
      · exact hpath
      · exact hstaged
  rw [hwritten, RunFiles.artifactPath, RunFiles.rootStaged,
    RunFiles.runDir_prefix_joined_iff (by decide), RunFiles.runDir_prefix_joined_iff (by decide),
    StaysInside]
  change _ ↔ if upload.artifact.name.toList.head? = some '/' then _ else _
  split
  · exact and_self_iff
  · exact Iff.rfl

/-- The files of a run under `/runs`. -/
def plainRun : RunFiles where
  runRoot := [⟨"runs", by decide⟩]
  runId := ⟨"run", by decide⟩
  rules := [⟨"cloud.yaml", by decide⟩]
  hasVersion := true

/-- An installer stays where it belongs. -/
theorem written_inside_installer :
    let upload : Upload := { runId := "run", artifactId := "a", filename := "../dist/./bare.exe" }
    ∃ db' root, createRun {} upload = some db' ∧ rootArtifact db' "run" = some root ∧
      ∀ p ∈ plainRun.written root, plainRun.runDir <+: p := by
  intro upload
  obtain ⟨db', h⟩ : ∃ db', createRun {} upload = some db' :=
    Option.isSome_iff_exists.mp (by decide)
  have hroot := rootArtifact_createRun h rfl
  exact ⟨db', upload.artifact, h, hroot, (written_inside_iff h rfl hroot).mpr (by decide)⟩

/-- A run over a file of this name writes outside its directory. -/
def WritesOutside (filename : String) : Prop :=
  ∃ db' root, createRun {} { runId := "run", artifactId := "a", filename := filename } = some db' ∧
    rootArtifact db' "run" = some root ∧ plainRun.artifactPath root ∈ plainRun.written root ∧
    ¬plainRun.runDir <+: plainRun.artifactPath root

theorem writesOutside_of_joined {filename : String} (hne : filename ≠ "")
    (hout : ¬plainRun.runDir <+: joined (plainRun.runDir ++ ["unpack_in"]) filename) :
    WritesOutside filename := by
  obtain ⟨db', h⟩ : ∃ db', createRun {}
      { runId := "run", artifactId := "a", filename := filename } = some db' := by
    rw [createRun, if_neg hne]
    exact ⟨_, rfl⟩
  exact ⟨db', _, h, rootArtifact_createRun h rfl, by simp [RunFiles.written], hout⟩

/-- Two climbs leave the directory of the run, and an absolute name does at once. -/
theorem written_outside :
    WritesOutside "../../evil.exe" ∧ WritesOutside "/root/.ssh/authorized_keys" :=
  ⟨writesOutside_of_joined (by decide) (by decide), writesOutside_of_joined (by decide) (by decide)⟩

end BareAnalysis
