import BareAnalysis.Machinery.Effects
import BareAnalysis.Sandbox.Driver
import BareAnalysis.Unpack.Detect
import Mathlib.Algebra.Order.Archimedean.Basic
import Mathlib.Data.Rat.Floor
import Mathlib.Tactic.Linarith

/-!
# Sandbox/Watchdog — the deadline of a container

    wait(timeout) ──exit──▸ EXITED
        ╲ SIGTERM, wait(grace) ──exit──▸ TERMINATED
            ╲ SIGKILL, a short wait ──exit──▸ KILLED, else ESCAPED

`enforce_deadline` of `core/sandbox/watchdog.py` over the `_ContainerHandle` of
`core/sandbox/docker_driver.py`.  A handle with a consumer waits in slices and offers it the output
between them.  Time is the monotonic clock; it passes in waits, in calls that fail and in the
consumer.
-/

namespace BareAnalysis

open Eff

/-! ## The daemon -/

inductive Signal
  | sigterm
  | sigkill
  deriving DecidableEq, Repr

/-- What the driver asks of the daemon. -/
inductive DaemonCall
  | create (kwargs : CreateKwargs)
  | imageGet
  | start
  | wait (timeoutS : ℚ)
  | kill (signal : Signal)
  | logs (stdout stderr : Bool)
  | reload
  /-- `container.remove(force=True)`. -/
  | remove
  deriving DecidableEq

/-- An exception of a call: the type names along its causes, and its text. -/
structure DaemonError where
  chain : List String
  text : String
  deriving DecidableEq, Repr

/-- `_is_timeout`. -/
def DaemonError.isTimeout (e : DaemonError) : Bool :=
  e.chain.any (fun name => decide ("Timeout".toList <:+: name.toList))
    || decide ("timed out".toList <:+: e.text.toList.map Char.toLower)

/-- A container and the daemon it runs under. -/
structure Daemon where
  containerId : String := ""
  /-- `RepoDigests` and `Id` of the image. -/
  repoDigests : List String := []
  imageId : String := ""
  /-- The moment the container ends at and its exit code, if SIGTERM and SIGKILL reach it at these
  moments. -/
  ending : Option ℚ → Option ℚ → Option (ℚ × ℤ)
  /-- The kernel OOM-killed it. -/
  oomKilled : Bool := false
  /-- What it has written by a moment, to stdout or to stderr. -/
  output : ℚ → Bool → Bytes := fun _ _ => []
  /-- How the `n`-th call fails, if it does, and how long that takes. -/
  failure : ℕ → DaemonCall → Option DaemonError := fun _ _ => none
  delay : ℕ → ℚ := fun _ => 1
  /-- No call fails in no time. -/
  latency : ℚ := 1
  latency_pos : 0 < latency := by decide
  latency_le : ∀ n, latency ≤ delay n := by exact fun _ => le_rfl

/-- The live consumer: how long its `n`-th call takes, and whether that raises. -/
structure Consumer where
  duration : ℕ → ℚ
  duration_nonneg : ∀ n, 0 ≤ duration n
  raises : ℕ → Option String := fun _ => none

/-- What has happened since the driver began. -/
structure WatchState where
  now : ℚ
  /-- When the signals were sent. -/
  sigterm : Option ℚ := none
  sigkill : Option ℚ := none
  calls : List DaemonCall := []
  /-- How often the consumer was called. -/
  offers : ℕ := 0
  deriving DecidableEq

/-- What ends a program early; a loop that is cut short raises nothing. -/
inductive Halt
  | raised (e : PyError)
  | outOfFuel
  deriving DecidableEq, Repr

abbrev Watch := Eff Halt WatchState

/-- `try: x except Exception as exc: handler(exc)`. -/
def catching {α : Type} (x : Watch α) (handler : PyError → Watch α) : Watch α :=
  tryCatch x fun
    | .raised e => handler e
    | .outOfFuel => throw .outOfFuel

/-- `_quiet`. -/
def quiet (x : Watch Unit) : Watch Unit := catching x fun _ => pure ()

namespace Daemon

variable (d : Daemon)

/-- One call of the daemon, and how it failed. -/
def attempt (call : DaemonCall) : Watch (Option DaemonError) := do
  let s ← get
  let failure := d.failure s.calls.length call
  modify fun s => { s with
    calls := s.calls ++ [call]
    now := s.now + if failure.isSome then d.delay s.calls.length else 0 }
  return failure

/-- A call whose failure is raised. -/
def request (call : DaemonCall) : Watch Unit := do
  match ← d.attempt call with
  | some e => throw (.raised (.external e.text))
  | none => return ()

/-- `_wait_once`. -/
def waitOnce (timeoutS : ℚ) : Watch (Option ℤ) := do
  match ← d.attempt (.wait timeoutS) with
  | some e => if e.isTimeout then return none else throw (.raised (.external e.text))
  | none =>
    let s ← get
    match d.ending s.sigterm s.sigkill with
    | some (moment, code) =>
      if moment ≤ s.now + timeoutS then
        modify fun s => { s with now := max s.now moment }
        return some code
      else
        modify fun s => { s with now := s.now + timeoutS }
        return none
    | none =>
      modify fun s => { s with now := s.now + timeoutS }
      return none

/-- `terminate`. -/
def terminate : Watch Unit :=
  quiet do
    d.request (.kill .sigterm)
    modify fun s => { s with sigterm := s.sigterm.or (some s.now) }

/-- `kill`. -/
def kill : Watch Unit :=
  quiet do
    d.request (.kill .sigkill)
    modify fun s => { s with sigkill := s.sigkill.or (some s.now) }

/-- `_MAX_LOG_BYTES`. -/
def maxLogBytes : ℕ := 8 * 1024 * 1024

/-- A stream, cut at the cap. -/
def cappedLog (raw : Bytes) : Bytes :=
  if raw.length > maxLogBytes then
    raw.take maxLogBytes ++ ("\n[bare: log truncated]\n".toList.map fun c => c.toNat.toUInt8)
  else raw

/-- One stream, empty if it cannot be read. -/
def readLog (stderr : Bool) : Watch Bytes := do
  match ← d.attempt (.logs (!stderr) stderr) with
  | some _ => return []
  | none =>
    let s ← get
    return cappedLog (d.output s.now stderr)

/-- `_collect_logs`. -/
def collectLogs : Watch (Bytes × Bytes) := do
  let stdout ← d.readLog false
  let stderr ← d.readLog true
  return (stdout, stderr)

end Daemon

/-- One call of the consumer. -/
def Consumer.onOutput (c : Consumer) : Watch Unit := do
  let s ← get
  modify fun s => { s with now := s.now + c.duration s.offers, offers := s.offers + 1 }
  match c.raises s.offers with
  | some message => throw (.raised (.external message))
  | none => return ()

/-- `_offer_output`. -/
def Daemon.offerOutput (d : Daemon) (c : Consumer) : Watch Unit :=
  quiet do
    let _ ← d.collectLogs
    c.onOutput

/-! ## The handle -/

/-- `_ContainerHandle`: the container, and who is offered its output. -/
structure ContainerHandle where
  daemon : Daemon
  consumer : Option Consumer := none
  /-- `_OUTPUT_POLL_S`. -/
  tickS : ℚ := 2
  tickS_pos : 0 < tickS := by decide

namespace ContainerHandle

variable (h : ContainerHandle)

/-- The loop of `wait`, over slices. -/
def waitSliced (c : Consumer) (deadline : ℚ) : ℕ → Watch (Option ℤ)
  | 0 => throw .outOfFuel
  | fuel + 1 => do
    let s ← get
    if deadline - s.now ≤ 0 then return none
    match ← h.daemon.waitOnce (min (deadline - s.now) h.tickS) with
    | some code => return some code
    | none =>
      h.daemon.offerOutput c
      waitSliced c deadline fuel

/-- `wait`. -/
def wait (fuel : ℕ) (timeoutS : ℚ) : Watch (Option ℤ) := do
  match h.consumer with
  | none => h.daemon.waitOnce timeoutS
  | some c =>
    let s ← get
    h.waitSliced c (s.now + timeoutS) fuel

end ContainerHandle

/-! ## The watchdog -/

inductive WatchdogVerdict
  | exited
  | terminated
  | killed
  | escaped
  deriving DecidableEq, Repr

/-- `str(verdict)`. -/
def WatchdogVerdict.value : WatchdogVerdict → String
  | exited => "exited"
  | terminated => "terminated"
  | killed => "killed"
  | escaped => "escaped"

structure WatchdogOutcome where
  verdict : WatchdogVerdict
  exitCode : Option ℤ
  waitedS : ℚ
  deriving DecidableEq, Repr

/-- `timed_out`. -/
def WatchdogOutcome.timedOut (o : WatchdogOutcome) : Bool := o.verdict != .exited

namespace ContainerHandle

variable (h : ContainerHandle) (fuel : ℕ)

/-- What follows a SIGTERM that was ignored. -/
def killNow (started graceS : ℚ) : Watch WatchdogOutcome := do
  h.daemon.kill
  let exitCode ← h.wait fuel (if min graceS 5 = 0 then 5 else min graceS 5)
  let s ← get
  return ⟨if exitCode.isSome then .killed else .escaped, exitCode, s.now - started⟩

/-- What follows a deadline that is blown. -/
def escalate (started graceS : ℚ) : Watch WatchdogOutcome := do
  h.daemon.terminate
  if 0 < graceS then
    match ← h.wait fuel graceS with
    | some code =>
      let s ← get
      return ⟨.terminated, some code, s.now - started⟩
    | none => h.killNow fuel started graceS
  else h.killNow fuel started graceS

/-- `enforce_deadline`. -/
def enforceDeadline (timeoutS graceS : ℚ) : Watch WatchdogOutcome := do
  if timeoutS ≤ 0 then throw (.raised (.valueError "timeout_s must be positive"))
  if graceS < 0 then throw (.raised (.valueError "grace_s must not be negative"))
  let started ← get
  match ← h.wait fuel timeoutS with
  | some code =>
    let s ← get
    return ⟨.exited, some code, s.now - started.now⟩
  | none => h.escalate fuel started.now graceS

end ContainerHandle

end BareAnalysis
