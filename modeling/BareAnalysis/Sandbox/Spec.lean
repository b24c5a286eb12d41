import BareAnalysis.Machinery.Json
import BareAnalysis.Machinery.PurePath
import BareAnalysis.Machinery.Sorting
import Mathlib.Algebra.Group.Int.Defs

/-!
# Sandbox/Spec — what a container is asked to be

    base spec ──with_overrides──▸ spec ──validate──▸ accepted, or every way the boundary is weak

`core/sandbox/spec.py`.  A spec is the only way to ask for a container, and validation the only
place that refuses one.
-/

namespace BareAnalysis

/-- `ANALYZER_UID`. -/
def analyzerUid : ℕ := 10001

/-- `ANALYZER_GID`. -/
def analyzerGid : ℕ := 10001

/-- `INPUT_DIR`. -/
def inputDir : PurePath := .posix "/input"

/-- `OUTPUT_DIR`. -/
def outputDir : PurePath := .posix "/output"

inductive NetworkMode
  | none
  | sinkhole
  deriving DecidableEq, Repr

inductive MountMode
  | readOnly
  | readWrite
  deriving DecidableEq, Repr

/-- A host directory exposed inside the container. -/
structure BindMount where
  source : String
  target : PurePath
  mode : MountMode := .readOnly
  deriving DecidableEq

/-- A writable in-memory filesystem. -/
structure TmpfsMount where
  target : PurePath
  sizeBytes : ℤ
  noexec : Bool := true
  nosuid : Bool := true
  nodev : Bool := true
  uid : ℕ := analyzerUid
  gid : ℕ := analyzerGid
  mode : ℕ := 0o770
  deriving DecidableEq

/-- `TmpfsMount.to_options`. -/
def TmpfsMount.toOptions (t : TmpfsMount) : String :=
  ",".intercalate
    (["size=" ++ toString t.sizeBytes, "mode=" ++ String.ofList (Nat.toDigits 8 t.mode),
      "uid=" ++ toString t.uid, "gid=" ++ toString t.gid]
      ++ (if t.noexec then ["noexec"] else []) ++ (if t.nosuid then ["nosuid"] else [])
      ++ if t.nodev then ["nodev"] else [])

structure Ulimit where
  name : String
  soft : ℤ
  hard : Option ℤ := none
  deriving DecidableEq

/-- `Ulimit.hard_or_soft`. -/
def Ulimit.hardOrSoft (u : Ulimit) : ℤ := u.hard.getD u.soft

/-- `_GIB`. -/
def gib : ℤ := 1024 ^ 3

/-- `_default_tmpfs`. -/
def defaultTmpfs : List TmpfsMount :=
  [{ target := .posix "/tmp", sizeBytes := 2 * gib },
    { target := .posix "/work", sizeBytes := 8 * gib, noexec := false }]

/-- `_default_ulimits`. -/
def defaultUlimits : List Ulimit :=
  [⟨"nofile", 4096, some 4096⟩, ⟨"fsize", 2 * gib, some (2 * gib)⟩, ⟨"nproc", 512, some 512⟩]

/-- A single analyzer container run. -/
structure SandboxSpec where
  image : String
  runId : String
  analyzer : String
  command : List String := []
  env : List (String × String) := []
  network : NetworkMode := .none
  readOnlyRootfs : Bool := true
  user : String := "10001:10001"
  capDrop : List String := ["ALL"]
  capAdd : List String := []
  noNewPrivileges : Bool := true
  seccompProfile : Option String := some "sandbox/profiles/analyzer.json"
  memLimitBytes : ℤ := 4 * gib
  nanoCpus : ℤ := 2000000000
  pidsLimit : ℤ := 512
  tmpfs : List TmpfsMount := defaultTmpfs
  ulimits : List Ulimit := defaultUlimits
  timeoutS : ℤ := 900
  graceS : ℤ := 10
  autoRemove : Bool := true
  mounts : List BindMount := []
  deriving DecidableEq

/-! ## Derived specs -/

/-- A keyword argument of `with_overrides`. -/
inductive Override
  | image (v : String)
  | runId (v : String)
  | analyzer (v : String)
  | command (v : List String)
  | env (v : List (String × String))
  | network (v : NetworkMode)
  | readOnlyRootfs (v : Bool)
  | user (v : String)
  | capDrop (v : List String)
  | capAdd (v : List String)
  | noNewPrivileges (v : Bool)
  | seccompProfile (v : Option String)
  | memLimitBytes (v : ℤ)
  | nanoCpus (v : ℤ)
  | pidsLimit (v : ℤ)
  | tmpfs (v : List TmpfsMount)
  | ulimits (v : List Ulimit)
  | timeoutS (v : ℤ)
  | graceS (v : ℤ)
  | autoRemove (v : Bool)
  | mounts (v : List BindMount)
  /-- A keyword that is no field. -/
  | other (name : String)

/-- The fields `with_overrides` guards, by name. -/
def Override.guarded? : Override → Option String
  | network _ => some "network"
  | readOnlyRootfs _ => some "read_only_rootfs"
  | user _ => some "user"
  | capDrop _ => some "cap_drop"
  | noNewPrivileges _ => some "no_new_privileges"
  | _ => none

/-- `dataclasses.replace` of one field. -/
def SandboxSpec.replace (spec : SandboxSpec) : Override → Except PyError SandboxSpec
  | .image v => .ok { spec with image := v }
  | .runId v => .ok { spec with runId := v }
  | .analyzer v => .ok { spec with analyzer := v }
  | .command v => .ok { spec with command := v }
  | .env v => .ok { spec with env := v }
  | .network v => .ok { spec with network := v }
  | .readOnlyRootfs v => .ok { spec with readOnlyRootfs := v }
  | .user v => .ok { spec with user := v }
  | .capDrop v => .ok { spec with capDrop := v }
  | .capAdd v => .ok { spec with capAdd := v }
  | .noNewPrivileges v => .ok { spec with noNewPrivileges := v }
  | .seccompProfile v => .ok { spec with seccompProfile := v }
  | .memLimitBytes v => .ok { spec with memLimitBytes := v }
  | .nanoCpus v => .ok { spec with nanoCpus := v }
  | .pidsLimit v => .ok { spec with pidsLimit := v }
  | .tmpfs v => .ok { spec with tmpfs := v }
  | .ulimits v => .ok { spec with ulimits := v }
  | .timeoutS v => .ok { spec with timeoutS := v }
  | .graceS v => .ok { spec with graceS := v }
  | .autoRemove v => .ok { spec with autoRemove := v }
  | .mounts v => .ok { spec with mounts := v }
  | .other name =>
    .error (.typeError ("SandboxSpec.__init__() got an unexpected keyword argument '" ++ name ++ "'"))

/-- A list of texts, as Python prints it. -/
def reprTexts (printable : Char → Bool) (texts : List String) : String :=
  Json.reprText printable (.arr (texts.map .str))

/-- `with_overrides`. -/
def SandboxSpec.withOverrides (spec : SandboxSpec) (changes : List Override) :
    Except PyError SandboxSpec :=
  match changes.filterMap Override.guarded? with
  | [] => changes.foldlM SandboxSpec.replace spec
  | weakened =>
    .error (.valueError ("refusing to weaken isolation via with_overrides: "
      ++ reprTexts (fun _ => true) (sortBy id weakened)
      ++ "; construct a new SandboxSpec explicitly if this is really intended"))

/-- What no override changes. -/
structure SandboxSpec.SameGuards (spec spec' : SandboxSpec) : Prop where
  network : spec'.network = spec.network
  readOnlyRootfs : spec'.readOnlyRootfs = spec.readOnlyRootfs
  user : spec'.user = spec.user
  capDrop : spec'.capDrop = spec.capDrop
  noNewPrivileges : spec'.noNewPrivileges = spec.noNewPrivileges

/-! ## Validation -/

/-- One of the messages of `validate`. -/
def complaint (wrong : Bool) (message : String) : List String := if wrong then [message] else []

/-- What `validate` says about one mount. -/
def BindMount.errors (mount : BindMount) : List String :=
  let src := mount.source.toList.map fun c => if c = '\\' then '/' else c
  complaint ("docker.sock".toList.isSuffixOf src || decide ("/var/run/docker".toList <:+: src))
      "refusing to mount the Docker socket into an analyzer"
    ++ complaint (mount.target = outputDir && mount.mode ≠ .readWrite)
      (outputDir.str "/" ++ " must be writable")
    ++ complaint (mount.target = inputDir && mount.mode ≠ .readOnly)
      (inputDir.str "/" ++ " must be read-only")

/-- The targets of the writable mounts. -/
def SandboxSpec.writable (spec : SandboxSpec) : List PurePath :=
  (spec.mounts.filter (·.mode = .readWrite)).map (·.target)

/-- The errors `validate` collects. -/
def SandboxSpec.errors (printable : Char → Bool) (spec : SandboxSpec) : List String :=
  complaint (["0:0", "root", "0", ""].contains spec.user) "analyzers must not run as root"
    ++ complaint (!spec.capDrop.contains "ALL") "cap_drop must include ALL"
    ++ complaint (spec.capAdd ≠ [])
      ("cap_add is not permitted for analyzers: " ++ reprTexts printable spec.capAdd)
    ++ complaint (!spec.noNewPrivileges) "no_new_privileges must be set"
    ++ complaint (!spec.readOnlyRootfs) "rootfs must be read-only"
    ++ complaint (spec.timeoutS ≤ 0) "timeout_s must be positive"
    ++ complaint (spec.graceS < 0) "grace_s must not be negative"
    ++ complaint (spec.pidsLimit ≤ 0) "pids_limit must be positive"
    ++ complaint (spec.memLimitBytes ≤ 0) "mem_limit_bytes must be positive"
    ++ complaint (spec.runId = "" || spec.analyzer = "")
      "run_id and analyzer are required for reaper labelling"
    ++ spec.mounts.flatMap BindMount.errors
    ++ complaint (1 < spec.writable.length)
      ("at most one writable mount is allowed, got [" ++ ", ".intercalate (spec.writable.map
        fun t => "PurePosixPath(" ++ Json.quoteText printable (t.str "/") ++ ")") ++ "]")

/-- `validate`: a `SpecViolation` with every error. -/
def SandboxSpec.validate (printable : Char → Bool) (spec : SandboxSpec) : Except PyError Unit :=
  match spec.errors printable with
  | [] => .ok ()
  | errors => .error (.valueError ("invalid SandboxSpec for analyzer "
      ++ Json.quoteText printable spec.analyzer ++ ": " ++ "; ".intercalate errors))

end BareAnalysis
