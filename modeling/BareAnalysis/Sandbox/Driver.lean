import BareAnalysis.Machinery.Fallible
import BareAnalysis.Sandbox.Spec

/-!
# Sandbox/Driver — from a spec to the arguments of a container

    spec ──validate──▸ ──_validate_mounts──▸ ──_build_create_kwargs──▸ containers.create(**kwargs)
             raises          raises               START_FAILED

The front of `DockerDriver.run` in `core/sandbox/docker_driver.py`.  What the disk says, links and
all, is a parameter: `resolve` gives the components of a path from the root down.
-/

namespace BareAnalysis

/-- The disk of the process the driver runs in. -/
structure DriverDisk where
  /-- `Path(text).resolve()`. -/
  resolve : String → Except PyError ResolvedPath
  /-- `path.is_file()`. -/
  isFile : String → Bool
  /-- `path.read_text(encoding="utf-8")`. -/
  readText : String → Except PyError String
  /-- `json.dumps(json.loads(text), separators=(",", ":"))`. -/
  reserialise : String → Except PyError String

/-- `DockerDriver`: the run root as this process sees it, and as the daemon does if that differs. -/
structure DockerDriver where
  runRoot : ResolvedPath
  repoRoot : ResolvedPath
  hostRunRoot : Option String := none
  seccompCache : Dict String String := []

/-- A host directory bound into the container. -/
structure Volume where
  bind : String
  mode : String
  deriving DecidableEq, Repr

/-- The keyword arguments of `containers.create`. -/
structure CreateKwargs where
  image : String
  command : Option (List String)
  environment : List (String × String)
  user : String
  networkMode : String
  readOnly : Bool
  capDrop : List String
  capAdd : Option (List String)
  securityOpt : List String
  tmpfs : List (String × String)
  volumes : List (String × Volume)
  memLimit : ℤ
  memswapLimit : ℤ
  nanoCpus : ℤ
  pidsLimit : ℤ
  ulimits : List (String × ℤ × ℤ)
  labels : List (String × String)
  detach : Bool := true
  autoRemove : Bool := false
  tty : Bool := false
  stdinOpen : Bool := false
  workingDir : String := "/work"
  deriving DecidableEq

/-- `list(items) or None`. -/
def orNone (items : List String) : Option (List String) := if items = [] then none else some items

/-- `SandboxSpec.labels`. -/
def SandboxSpec.labels (spec : SandboxSpec) : List (String × String) :=
  [("bare.run", spec.runId), ("bare.analyzer", spec.analyzer), ("bare.managed", "true")]

namespace DockerDriver

variable (disk : DriverDisk) (driver : DockerDriver)

/-- One turn of `_validate_mounts`. -/
def validateMount (mount : BindMount) : Except PyError Unit := do
  let source ← disk.resolve mount.source
  if driver.runRoot.isPrefixOf source then .ok ()
  else
    .error (.valueError ("mount source " ++ source.str ++ " is outside the run root "
      ++ driver.runRoot.str ++ "; analyzers may only see per-run staging directories"))

/-- `_validate_mounts`. -/
def validateMounts (spec : SandboxSpec) : Except PyError Unit :=
  spec.mounts.forM (driver.validateMount disk)

/-- A directory below the run root, as the daemon will resolve it. -/
def hostText (resolved : ResolvedPath) : String :=
  match driver.hostRunRoot with
  | none => resolved.str
  | some root =>
    let relative := (resolved.drop driver.runRoot.length).map Subtype.val
    let looksLikeWindows := root.toList.contains '\\' || root.toList[1]? = some ':'
    if looksLikeWindows then PurePath.windowsChild root relative else PurePath.posixChild root relative

/-- `_to_host_path`. -/
def toHostPath (source : String) : Except PyError String := do
  let resolved ← disk.resolve source
  if driver.hostRunRoot.isSome ∧ ¬driver.runRoot.isPrefixOf resolved then
    .error (.valueError (resolved.str ++ " is not in the subpath of "
      ++ driver.runRoot.str))
  else .ok (driver.hostText resolved)

/-- The file of a profile: a relative path starts at the root of the repository. -/
def profileFile (profilePath : String) : String :=
  if profilePath.toList.head? = some '/' then (PurePath.posix profilePath).str "/"
  else PurePath.posixChild driver.repoRoot.str [profilePath]

/-- `_load_seccomp`, for a path. -/
def loadProfile (profilePath : String) : Except PyError String :=
  match driver.seccompCache.get? profilePath with
  | some content => .ok content
  | none =>
    let path := driver.profileFile profilePath
    if disk.isFile path then disk.readText path >>= disk.reserialise
    else .error (.external ("seccomp profile " ++ path
      ++ " not found; refusing to run without it"))

/-- `_load_seccomp`. -/
def loadSeccomp : Option String → Except PyError (Option String)
  | none => .ok none
  | some profilePath => some <$> driver.loadProfile disk profilePath

/-- The entry of `volumes` for a mount. -/
def volumeOf (m : BindMount) : Except PyError (String × Volume) :=
  (fun key => (key, { bind := m.target.str "/"
                      mode := if m.mode = .readWrite then "rw" else "ro" }))
    <$> driver.toHostPath disk m.source

/-- The `security_opt` of a spec, once its profile is read. -/
def securityOpt (spec : SandboxSpec) (profile : Option String) : List String :=
  (if spec.noNewPrivileges then ["no-new-privileges:true"] else [])
    ++ profile.toList.map fun text => "seccomp=" ++ text

/-- `_build_create_kwargs`. -/
def buildCreateKwargs (spec : SandboxSpec) : Except PyError CreateKwargs := do
  let profile ← driver.loadSeccomp disk spec.seccompProfile
  if spec.network ≠ .none then
    .error (.external ("network mode sinkhole is not implemented; "
      ++ "dynamic analysis with a sinkhole netns lands in M5"))
  else
    let volumes ← spec.mounts.mapM (driver.volumeOf disk)
    .ok { image := spec.image
          command := orNone spec.command
          environment := Dict.entries spec.env
          user := spec.user
          networkMode := "none"
          readOnly := spec.readOnlyRootfs
          capDrop := spec.capDrop
          capAdd := orNone spec.capAdd
          securityOpt := securityOpt spec profile
          tmpfs := Dict.entries (spec.tmpfs.map fun t => (t.target.str "/", t.toOptions))
          volumes := Dict.entries volumes
          memLimit := spec.memLimitBytes
          memswapLimit := spec.memLimitBytes
          nanoCpus := spec.nanoCpus
          pidsLimit := spec.pidsLimit
          ulimits := spec.ulimits.map fun u => (u.name, u.soft, u.hardOrSoft)
          labels := spec.labels }

/-- How a run ends ahead of the create call. -/
inductive Refusal
  | raised (e : PyError)
  /-- A `START_FAILED` result. -/
  | startFailed (error : String)
  deriving DecidableEq, Repr

/-- `DockerDriver.run`, as far as the create call. -/
def createArguments (printable : Char → Bool) (spec : SandboxSpec) :
    Except Refusal CreateKwargs := do
  (spec.validate printable).mapError .raised
  (driver.validateMounts disk spec).mapError .raised
  (driver.buildCreateKwargs disk spec).mapError fun e =>
    .startFailed ("could not build container spec: " ++ e.message)

end DockerDriver

end BareAnalysis
