import BareAnalysis.Sandbox.Lockdown

/-!
# Sandbox/Mounts — which mounts of a spec reach the container

    mounts   /input ◂── /runs/run-1      /output ◂── /runs/run-1/.
    volumes  { /runs/run-1: … }          one entry for both, and the last mount's

The arguments of a container keep its volumes in a dictionary by host path, so two mounts of one
directory are one volume.  Where the host's paths are POSIX the directories must be the same;
Windows reads more texts alike.
-/

namespace BareAnalysis

/-- What a mount asks for. -/
def BindMount.volume (m : BindMount) : Volume where
  bind := m.target.str "/"
  mode := if m.mode = .readWrite then "rw" else "ro"

/-- Mounts that ask for the same have the same mode. -/
theorem BindMount.volume_eq_iff {m m' : BindMount} :
    m.volume = m'.volume ↔ m.target.str "/" = m'.target.str "/" ∧ m.mode = m'.mode := by
  rw [BindMount.volume, BindMount.volume, Volume.mk.injEq]
  refine and_congr_right fun _ => ?_
  cases m.mode <;> cases m'.mode <;> decide

namespace DockerDriver

variable (disk : DriverDisk) (driver : DockerDriver)

/-- The components below the run root. -/
def below (resolved : ResolvedPath) : List String :=
  (resolved.drop driver.runRoot.length).map Subtype.val

/-- A host root that is read by the rules of Windows. -/
def looksLikeWindows (root : String) : Bool :=
  root.toList.contains '\\' || root.toList[1]? = some ':'

/-- Two directories of the run root that are one for the daemon: one directory, or two whose names
Windows joins to one path. -/
def SameOnHost (p q : ResolvedPath) : Prop :=
  match driver.hostRunRoot with
  | none => p = q
  | some root =>
    if looksLikeWindows root then
      PurePath.windowsChild root (driver.below p) = PurePath.windowsChild root (driver.below q)
    else p = q

/-- Two mounts whose sources are one directory for the daemon. -/
def SameSource (m m' : BindMount) : Prop :=
  ∃ p q, disk.resolve m.source = .ok p ∧ disk.resolve m'.source = .ok q ∧ driver.SameOnHost p q

/-- **Every mount reaches the container**: its source, as the daemon resolves it, has a volume with
its target and its mode. -/
def MountsArrive (spec : SandboxSpec) (kwargs : CreateKwargs) : Prop :=
  ∀ m ∈ spec.mounts, ∃ resolved, disk.resolve m.source = .ok resolved ∧
    (driver.hostText resolved, m.volume) ∈ kwargs.volumes

variable {disk driver} {spec : SandboxSpec} {kwargs : CreateKwargs}

/-- Below the run root the components say which directory it is. -/
theorem below_inj {p q : ResolvedPath} (hp : driver.runRoot <+: p) (hq : driver.runRoot <+: q) :
    driver.below p = driver.below q ↔ p = q := by
  refine ⟨fun h => ?_, fun h => h ▸ rfl⟩
  obtain ⟨a, rfl⟩ := hp
  obtain ⟨b, rfl⟩ := hq
  rw [below, below, List.drop_left, List.drop_left] at h
  rw [Subtype.val_injective.list_map h]

theorem isComponent_of_mem_below {p : ResolvedPath} {part : String} (h : part ∈ driver.below p) :
    IsComponent part := by
  obtain ⟨c, -, rfl⟩ := List.mem_map.mp h
  exact c.2

/-- **Directories have one host path exactly if they are one for the daemon.** -/
theorem hostText_inj {p q : ResolvedPath} (hp : driver.runRoot <+: p) (hq : driver.runRoot <+: q) :
    driver.hostText p = driver.hostText q ↔ driver.SameOnHost p q := by
  unfold hostText SameOnHost
  cases driver.hostRunRoot with
  | none => exact ⟨fun h => ResolvedPath.str_injective h, fun h => congrArg ResolvedPath.str h⟩
  | some root =>
    by_cases hwindows : looksLikeWindows root = true
    · simp only [hwindows, if_true]
      rw [looksLikeWindows] at hwindows
      simp only [hwindows, if_true]
      exact Iff.rfl
    · simp only [hwindows, Bool.false_eq_true, if_false]
      rw [looksLikeWindows, Bool.not_eq_true] at hwindows
      simp only [hwindows, Bool.false_eq_true, if_false]
      refine ⟨fun h => (below_inj hp hq).mp ?_, fun h => h ▸ rfl⟩
      exact PurePath.posixChild_inj (fun _ => isComponent_of_mem_below)
        (fun _ => isComponent_of_mem_below) h

/-- The entry of a mount that is accepted. -/
theorem volumeOf_eq_ok {m : BindMount} {v : String × Volume}
    (h : driver.volumeOf disk m = .ok v) :
    ∃ resolved, disk.resolve m.source = .ok resolved ∧ v = (driver.hostText resolved, m.volume) := by
  obtain ⟨key, hkey, rfl⟩ := map_eq_ok.mp h
  obtain ⟨resolved, hresolved, hkey⟩ := bind_eq_ok.mp hkey
  split at hkey
  · cases hkey
  · obtain rfl := Except.ok.inj hkey
    exact ⟨resolved, hresolved, rfl⟩

/-- A mount that is accepted lies below the run root. -/
theorem prefix_of_validateMount {m : BindMount} {resolved : ResolvedPath}
    (h : driver.validateMount disk m = .ok ()) (hresolved : disk.resolve m.source = .ok resolved) :
    driver.runRoot <+: resolved := by
  obtain ⟨resolved', hresolved', h⟩ := bind_eq_ok.mp h
  obtain rfl := Except.ok.inj (hresolved.symm.trans hresolved')
  split at h
  · exact List.isPrefixOf_iff_prefix.mp ‹_›
  · cases h

/-- The volumes of a container are the entries of its mounts. -/
theorem volumes_of_buildCreateKwargs (h : driver.buildCreateKwargs disk spec = .ok kwargs) :
    ∃ volumes, spec.mounts.mapM (driver.volumeOf disk) = .ok volumes ∧
      kwargs.volumes = Dict.entries volumes := by
  obtain ⟨profile, -, h⟩ := bind_eq_ok.mp h
  split at h
  · cases h
  obtain ⟨volumes, hvolumes, h⟩ := bind_eq_ok.mp h
  obtain rfl := Except.ok.inj h
  exact ⟨volumes, hvolumes, rfl⟩

/-- The mounts and what is assigned for them. -/
theorem mem_volumes_iff {volumes : List (String × Volume)}
    (h : spec.mounts.mapM (driver.volumeOf disk) = .ok volumes) {v : String × Volume} :
    v ∈ volumes ↔ ∃ m ∈ spec.mounts, ∃ p, disk.resolve m.source = .ok p ∧
      v = (driver.hostText p, m.volume) := by
  constructor
  · intro hv
    obtain ⟨m, hm, hof⟩ := mem_of_mapM_eq_ok h hv
    exact ⟨m, hm, volumeOf_eq_ok hof⟩
  · rintro ⟨m, hm, p, hp, rfl⟩
    obtain ⟨v, hv, hof⟩ := exists_mem_of_mapM_eq_ok h hm
    obtain ⟨q, hq, rfl⟩ := volumeOf_eq_ok hof
    obtain rfl := Except.ok.inj (hp.symm.trans hq)
    exact hv

/-- The mounts arrive exactly if every assignment is kept. -/
theorem mountsArrive_iff_get? {volumes : List (String × Volume)}
    (h : spec.mounts.mapM (driver.volumeOf disk) = .ok volumes)
    (hkwargs : kwargs.volumes = Dict.entries volumes) :
    driver.MountsArrive disk spec kwargs ↔ ∀ v ∈ volumes, Dict.get? volumes v.1 = some v.2 := by
  constructor
  · intro hall v hv
    obtain ⟨m, hm, p, hp, rfl⟩ := (mem_volumes_iff h).mp hv
    obtain ⟨q, hq, hmem⟩ := hall m hm
    obtain rfl := Except.ok.inj (hp.symm.trans hq)
    exact Dict.mem_entries.mp (hkwargs ▸ hmem)
  · intro hall m hm
    obtain ⟨v, -, hof⟩ := exists_mem_of_mapM_eq_ok h hm
    obtain ⟨p, hp, rfl⟩ := volumeOf_eq_ok hof
    have hv := hall _ ((mem_volumes_iff h).mpr ⟨m, hm, p, hp, rfl⟩)
    exact ⟨p, hp, hkwargs ▸ Dict.mem_entries.mpr hv⟩

/-- **Every mount of a spec that is accepted reaches the container exactly if** mounts whose sources
are one directory for the daemon have one target and one mode. -/
theorem mountsArrive_iff {printable : Char → Bool}
    (h : driver.createArguments disk printable spec = .ok kwargs) :
    driver.MountsArrive disk spec kwargs ↔
      ∀ m ∈ spec.mounts, ∀ m' ∈ spec.mounts, driver.SameSource disk m m' →
        m.target.str "/" = m'.target.str "/" ∧ m.mode = m'.mode := by
  obtain ⟨-, hmounts, hbuild⟩ := createArguments_eq_ok h
  obtain ⟨volumes, hvolumes, hkwargs⟩ := volumes_of_buildCreateKwargs hbuild
  have hroot : ∀ m ∈ spec.mounts, ∀ p, disk.resolve m.source = .ok p → driver.runRoot <+: p :=
    fun m hm p hp => prefix_of_validateMount (forM_eq_ok.mp hmounts m hm) hp
  rw [mountsArrive_iff_get? hvolumes hkwargs, Dict.forall_get?_iff]
  constructor
  · rintro hall m hm m' hm' ⟨p, q, hp, hq, hsame⟩
    have hv := (mem_volumes_iff hvolumes).mpr ⟨m, hm, p, hp, rfl⟩
    have hv' := (mem_volumes_iff hvolumes).mpr ⟨m', hm', q, hq, rfl⟩
    have hkey := (hostText_inj (hroot m hm p hp) (hroot m' hm' q hq)).mpr hsame
    exact BindMount.volume_eq_iff.mp (hall _ hv _ hv' hkey)
  · intro hall v hv v' hv' hkey
    obtain ⟨m, hm, p, hp, rfl⟩ := (mem_volumes_iff hvolumes).mp hv
    obtain ⟨m', hm', q, hq, rfl⟩ := (mem_volumes_iff hvolumes).mp hv'
    have hsame := (hostText_inj (hroot m hm p hp) (hroot m' hm' q hq)).mp hkey
    exact BindMount.volume_eq_iff.mpr (hall m hm m' hm' ⟨p, q, hp, hq, hsame⟩)

end DockerDriver

/-- The usual mounts arrive. -/
theorem mountsArrive_unpack : ∃ kwargs,
    plainDriver.createArguments plainDisk (fun _ => true) (unpackSpec "10001:10001") = .ok kwargs ∧
      plainDriver.MountsArrive plainDisk (unpackSpec "10001:10001") kwargs := by
  obtain ⟨kwargs, hkwargs⟩ : ∃ kwargs, plainDriver.createArguments plainDisk (fun _ => true)
      (unpackSpec "10001:10001") = .ok kwargs := exists_eq_ok (by decide +kernel)
  refine ⟨kwargs, hkwargs, (DockerDriver.mountsArrive_iff hkwargs).mpr fun m hm m' hm' hsame => ?_⟩
  obtain ⟨p, q, hp, hq, hpq⟩ := hsame
  obtain rfl : p = q := hpq
  simp only [unpackSpec, List.mem_cons, List.not_mem_nil, or_false] at hm hm'
  have hdiffer : plainDisk.resolve "/runs/run-1/staging"
      ≠ plainDisk.resolve "/runs/run-1/../run-1/results" := fun h =>
    absurd (Except.ok.inj h) (by decide +kernel)
  obtain rfl | rfl := hm <;> obtain rfl | rfl := hm'
  · exact ⟨rfl, rfl⟩
  · exact absurd (hp.trans hq.symm) hdiffer
  · exact absurd (hq.trans hp.symm) hdiffer
  · exact ⟨rfl, rfl⟩

/-- A run that reads the directory it writes to. -/
def sharedSpec : SandboxSpec where
  image := "bare/unpack"
  runId := "run-1"
  analyzer := "unpack"
  mounts := [⟨"/runs/run-1", inputDir, .readOnly⟩, ⟨"/runs/run-1", outputDir, .readWrite⟩]

/-- **Of two mounts of one directory the last is left**: the input is not there, and what was to be
read only is writable. -/
theorem shared_not_mountsArrive : ∃ kwargs,
    plainDriver.createArguments plainDisk (fun _ => true) sharedSpec = .ok kwargs ∧
      kwargs.volumes = [("/runs/run-1", ⟨"/output", "rw"⟩)] ∧
      ¬plainDriver.MountsArrive plainDisk sharedSpec kwargs := by
  obtain ⟨kwargs, hkwargs⟩ : ∃ kwargs, plainDriver.createArguments plainDisk (fun _ => true)
      sharedSpec = .ok kwargs := exists_eq_ok (by decide +kernel)
  have hvolumes : kwargs.volumes = [("/runs/run-1", ⟨"/output", "rw"⟩)] := by
    have h : (plainDriver.createArguments plainDisk (fun _ => true) sharedSpec).map (·.volumes)
        = .ok [("/runs/run-1", ⟨"/output", "rw"⟩)] := by decide +kernel
    rw [hkwargs] at h
    exact Except.ok.inj h
  refine ⟨kwargs, hkwargs, hvolumes, fun h => ?_⟩
  obtain ⟨resolved, -, hmem⟩ := h ⟨"/runs/run-1", inputDir, .readOnly⟩ List.mem_cons_self
  rw [hvolumes, List.mem_singleton, Prod.mk.injEq] at hmem
  exact absurd hmem.2 (by decide +kernel)

end BareAnalysis
