import BareAnalysis.Sandbox.Driver
import BareAnalysis.Unpack.Disk

/-!
# Sandbox/Lockdown — what every container that is created is denied

    validate refuses:   "0:0"  "root"  "0"  ""          the daemon reads:   <user>[:<group>]

Every part of the posture reaches the daemon, two aside: root is refused under four spellings only,
and a spec may leave its seccomp profile out.
-/

namespace BareAnalysis

/-! ## Root by any name -/

/-- The part of `user[:group]` that names the user. -/
def userPart (user : String) : List Char := user.toList.takeWhile (· ≠ ':')

/-- A numeral of value zero, with or without a sign. -/
def isZeroNumeral (text : List Char) : Bool :=
  let digits := if text.head? = some '+' ∨ text.head? = some '-' then text.tail else text
  digits ≠ [] && digits.all (· = '0')

/-- The user is root: by name, by number, or because none is named. -/
def NamesRoot (user : String) : Prop :=
  userPart user = [] ∨ userPart user = "root".toList ∨ isZeroNumeral (userPart user) = true

instance (user : String) : Decidable (NamesRoot user) := inferInstanceAs (Decidable (_ ∨ _ ∨ _))

/-- The spellings `validate` refuses are root. -/
theorem namesRoot_of_refused {user : String} (h : ["0:0", "root", "0", ""].contains user) :
    NamesRoot user := by
  have hmem : user ∈ ["0:0", "root", "0", ""] := List.contains_iff_mem.mp h
  simp only [List.mem_cons, List.not_mem_nil, or_false] at hmem
  obtain rfl | rfl | rfl | rfl := hmem <;> decide

/-! ## The posture -/

/-- The arguments of a container that is locked down. -/
structure CreateKwargs.LockedDown (driver : DockerDriver) (kwargs : CreateKwargs) : Prop where
  user : ¬NamesRoot kwargs.user
  network : kwargs.networkMode = "none"
  capDrop : "ALL" ∈ kwargs.capDrop
  capAdd : kwargs.capAdd = none
  noNewPrivileges : "no-new-privileges:true" ∈ kwargs.securityOpt
  readOnly : kwargs.readOnly = true
  seccomp : ∃ profile, "seccomp=" ++ profile ∈ kwargs.securityOpt
  /-- What is bound is a directory of the run root, as the daemon sees it. -/
  sources : ∀ v ∈ kwargs.volumes, ∃ p, driver.runRoot <+: p ∧ v.1 = driver.hostText p
  writable : kwargs.volumes.countP (·.2.mode = "rw") ≤ 1

theorem complaint_eq_nil {wrong : Bool} {message : String} :
    complaint wrong message = [] ↔ wrong = false := by
  cases wrong <;> simp [complaint]

/-- What a spec that is accepted says. -/
structure SandboxSpec.Accepted (spec : SandboxSpec) : Prop where
  capDrop : "ALL" ∈ spec.capDrop
  capAdd : spec.capAdd = []
  noNewPrivileges : spec.noNewPrivileges = true
  readOnlyRootfs : spec.readOnlyRootfs = true
  writable : spec.writable.length ≤ 1

theorem accepted_of_validate {printable : Char → Bool} {spec : SandboxSpec}
    (h : spec.validate printable = .ok ()) : spec.Accepted := by
  rw [SandboxSpec.validate] at h
  split at h
  · rename_i hnil
    simp only [SandboxSpec.errors, List.append_eq_nil_iff, complaint_eq_nil] at hnil
    obtain ⟨⟨⟨⟨⟨⟨⟨⟨⟨⟨⟨-, hdrop⟩, hadd⟩, hpriv⟩, hroot⟩, -⟩, -⟩, -⟩, -⟩, -⟩, -⟩, hwritable⟩ := hnil
    exact {
      capDrop := by simpa using hdrop
      capAdd := by simpa using hadd
      noNewPrivileges := by simpa using hpriv
      readOnlyRootfs := by simpa using hroot
      writable := by simpa using hwritable }
  · cases h

section Build

variable {disk : DriverDisk} {driver : DockerDriver} {spec : SandboxSpec}

/-- What reached the daemon. -/
theorem createArguments_eq_ok {printable : Char → Bool} {kwargs : CreateKwargs}
    (h : driver.createArguments disk printable spec = .ok kwargs) :
    spec.Accepted ∧ driver.validateMounts disk spec = .ok () ∧
      driver.buildCreateKwargs disk spec = .ok kwargs := by
  obtain ⟨⟨⟩, hvalid, h⟩ := bind_eq_ok.mp h
  obtain ⟨⟨⟩, hmounts, h⟩ := bind_eq_ok.mp h
  exact ⟨accepted_of_validate (mapError_eq_ok.mp hvalid), mapError_eq_ok.mp hmounts,
    mapError_eq_ok.mp h⟩

theorem orNone_eq_none {items : List String} : orNone items = none ↔ items = [] := by
  rw [orNone]
  split <;> simp_all

/-- Reading a profile gives one exactly when the spec names one. -/
theorem isSome_of_loadSeccomp {path? profile : Option String}
    (h : driver.loadSeccomp disk path? = .ok profile) : profile.isSome = path?.isSome := by
  cases path? with
  | none =>
    obtain rfl := Except.ok.inj h
    rfl
  | some path =>
    obtain ⟨content, -, rfl⟩ := map_eq_ok.mp h
    rfl

/-- The options name a profile exactly when there is one. -/
theorem exists_seccomp_mem {profile : Option String} :
    (∃ text, "seccomp=" ++ text ∈ DockerDriver.securityOpt spec profile) ↔ profile.isSome := by
  have hother : ∀ text, "seccomp=" ++ text ≠ "no-new-privileges:true" := fun text heq => by
    have hhead := congrArg (fun s => s.toList.head?) heq
    rw [String.toList_append] at hhead
    exact absurd hhead (by simp)
  have hfirst : ∀ text, "seccomp=" ++ text ∉
      if spec.noNewPrivileges then ["no-new-privileges:true"] else [] := fun text hmem => by
    split at hmem
    · exact hother text (List.mem_singleton.mp hmem)
    · cases hmem
  constructor
  · rintro ⟨text, hmem⟩
    obtain hmem | hmem := List.mem_append.mp hmem
    · exact absurd hmem (hfirst text)
    · obtain ⟨content, hcontent, -⟩ := List.mem_map.mp hmem
      exact Option.isSome_of_mem (Option.mem_toList.mp hcontent)
  · intro hsome
    obtain ⟨content, rfl⟩ := Option.isSome_iff_exists.mp hsome
    exact ⟨content, List.mem_append_right _ (List.mem_singleton_self _)⟩

/-- The entry of a mount: a directory of the run root, and its mode. -/
theorem of_volumeOf_eq_ok {m : BindMount} {v : String × Volume}
    (hm : driver.validateMount disk m = .ok ()) (h : driver.volumeOf disk m = .ok v) :
    (∃ p, driver.runRoot <+: p ∧ v.1 = driver.hostText p) ∧
      (v.2.mode = "rw" ↔ m.mode = .readWrite) := by
  obtain ⟨key, hkey, rfl⟩ := map_eq_ok.mp h
  obtain ⟨resolved, hresolved, hkey⟩ := bind_eq_ok.mp hkey
  obtain ⟨resolved', hresolved', hm⟩ := bind_eq_ok.mp hm
  obtain rfl := Except.ok.inj (hresolved.symm.trans hresolved')
  refine ⟨⟨resolved, ?_, ?_⟩, ?_⟩
  · split at hm
    · rename_i hpre
      exact List.isPrefixOf_iff_prefix.mp hpre
    · cases hm
  · split at hkey
    · cases hkey
    · exact (Except.ok.inj hkey).symm
  · cases m.mode <;> simp

/-- **A request that reaches the daemon is locked down** exactly when its user is not root by some
other name and it has a seccomp profile. -/
theorem lockedDown_iff {printable : Char → Bool} {kwargs : CreateKwargs}
    (h : driver.createArguments disk printable spec = .ok kwargs) :
    kwargs.LockedDown driver ↔ ¬NamesRoot spec.user ∧ spec.seccompProfile ≠ none := by
  obtain ⟨haccepted, hmounts, hbuild⟩ := createArguments_eq_ok h
  obtain ⟨profile, hprofile, hbuild⟩ := bind_eq_ok.mp hbuild
  split at hbuild
  · cases hbuild
  obtain ⟨volumes, hvolumes, hbuild⟩ := bind_eq_ok.mp hbuild
  obtain rfl := Except.ok.inj hbuild
  have hsome := isSome_of_loadSeccomp hprofile
  have hvolume : ∀ m ∈ spec.mounts, ∀ v, driver.volumeOf disk m = .ok v → _ := fun m hm v hv =>
    of_volumeOf_eq_ok (forM_eq_ok.mp hmounts m hm) hv
  have hseccomp : (∃ text, "seccomp=" ++ text ∈ DockerDriver.securityOpt spec profile) ↔
      spec.seccompProfile ≠ none := by
    rw [exists_seccomp_mem, hsome, Option.isSome_iff_ne_none]
  have hwritable : (Dict.entries volumes).countP (·.2.mode = "rw") ≤ 1 := by
    refine (Dict.countP_entries_le volumes _).trans (le_of_eq_of_le ?_ haccepted.writable)
    have hmodes : volumes.map (fun v => decide (v.2.mode = "rw"))
        = spec.mounts.map fun m => decide (m.mode = .readWrite) :=
      map_of_mapM_eq_ok hvolumes fun m hm v hv => decide_eq_decide.mpr (hvolume m hm v hv).2
    rw [SandboxSpec.writable, List.length_map, ← List.countP_eq_length_filter]
    simpa [List.countP_map] using congrArg (List.countP id) hmodes
  constructor
  · intro hlocked
    exact ⟨hlocked.user, hseccomp.mp hlocked.seccomp⟩
  · rintro ⟨huser, hset⟩
    exact {
      user := huser
      network := rfl
      capDrop := haccepted.capDrop
      capAdd := orNone_eq_none.mpr haccepted.capAdd
      noNewPrivileges := by simp [DockerDriver.securityOpt, haccepted.noNewPrivileges]
      readOnly := haccepted.readOnlyRootfs
      seccomp := hseccomp.mpr hset
      sources := fun v hv => by
        have hmem := Dict.mem_of_get?_eq_some (Dict.mem_entries.mp hv)
        obtain ⟨m, hm, hv⟩ := mem_of_mapM_eq_ok hvolumes hmem
        exact (hvolume m hm v hv).1
      writable := hwritable }

end Build

/-! ## Derived specs -/

/-- An override that is not guarded leaves the guards alone. -/
theorem sameGuards_of_replace {spec spec' : SandboxSpec} {change : Override}
    (hfree : change.guarded? = none) (h : spec.replace change = .ok spec') :
    spec.SameGuards spec' := by
  cases change
  case network | readOnlyRootfs | user | capDrop | noNewPrivileges => cases hfree
  case other => cases h
  all_goals
    obtain rfl := Except.ok.inj h
    exact ⟨rfl, rfl, rfl, rfl, rfl⟩

theorem SandboxSpec.SameGuards.trans {s t u : SandboxSpec} (h : s.SameGuards t)
    (h' : t.SameGuards u) : s.SameGuards u where
  network := h'.network.trans h.network
  readOnlyRootfs := h'.readOnlyRootfs.trans h.readOnlyRootfs
  user := h'.user.trans h.user
  capDrop := h'.capDrop.trans h.capDrop
  noNewPrivileges := h'.noNewPrivileges.trans h.noNewPrivileges

/-- A loop over specs keeps the guards if every turn does. -/
theorem sameGuards_of_foldlM {α : Type} {f : SandboxSpec → α → Except PyError SandboxSpec}
    {l : List α} {spec spec' : SandboxSpec}
    (hstep : ∀ a ∈ l, ∀ s s', f s a = .ok s' → s.SameGuards s') (h : l.foldlM f spec = .ok spec') :
    spec.SameGuards spec' := by
  induction l generalizing spec with
  | nil =>
    obtain rfl := Except.ok.inj h
    exact ⟨rfl, rfl, rfl, rfl, rfl⟩
  | cons a l ih =>
    rw [List.foldlM_cons] at h
    obtain ⟨next, hnext, h⟩ := bind_eq_ok.mp h
    exact (hstep a List.mem_cons_self spec next hnext).trans
      (ih (fun a' ha' => hstep a' (List.mem_cons_of_mem a ha')) h)

/-- **`with_overrides` keeps the guarded fields.** -/
theorem sameGuards_of_withOverrides {spec spec' : SandboxSpec} {changes : List Override}
    (h : spec.withOverrides changes = .ok spec') : spec.SameGuards spec' := by
  rw [SandboxSpec.withOverrides] at h
  split at h
  · rename_i hfree
    refine sameGuards_of_foldlM (fun change hchange s s' hs => ?_) h
    exact sameGuards_of_replace (List.filterMap_eq_nil_iff.mp hfree change hchange) hs
  · cases h

/-- A disk without links, where every profile is there. -/
def plainDisk : DriverDisk where
  resolve text := .ok ((Path.resolve (Path.partsOf text)).filterMap fun part =>
    if h : IsComponent part then some ⟨part, h⟩ else none)
  isFile _ := true
  readText _ := .ok "[]"
  reserialise text := .ok text

theorem isComponent_runs : IsComponent "runs" := by decide

theorem isComponent_bare : IsComponent "bare" := by decide

/-- A driver over `/runs`, and a run of the unpack analyzer below it. -/
def plainDriver : DockerDriver where
  runRoot := [⟨"runs", isComponent_runs⟩]
  repoRoot := [⟨"bare", isComponent_bare⟩]

def unpackSpec (user : String) : SandboxSpec where
  image := "bare/unpack"
  runId := "run-1"
  analyzer := "unpack"
  user := user
  mounts := [⟨"/runs/run-1/staging", inputDir, .readOnly⟩,
    ⟨"/runs/run-1/../run-1/results", outputDir, .readWrite⟩]

end BareAnalysis
