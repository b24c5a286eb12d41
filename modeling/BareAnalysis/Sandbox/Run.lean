import BareAnalysis.Pipeline.Scan
import BareAnalysis.Sandbox.Lockdown
import BareAnalysis.Sandbox.Watching

/-!
# Sandbox/Run — one container, from create to remove

    create ──▸ images.get ──▸ start ──▸ ⟨ wait … logs, reload ⟩ ──▸ remove
       ╲ START_FAILED           ╲ remove, START_FAILED    ╲ ERROR, remove

`DockerDriver.run`, with every call of the daemon fallible.  It always answers and cleans up; what
it may get wrong is a container that was OOM-killed, if the daemon does not say so.
-/

namespace BareAnalysis

open Eff

namespace DockerDriver

/-- `SandboxResult`, but for its wall-clock times. -/
structure SandboxResult where
  spec : SandboxSpec
  status : SandboxStatus
  exitCode : Option ℤ := none
  stdout : Bytes := []
  stderr : Bytes := []
  containerId : Option String := none
  imageDigest : Option String := none
  error : Option String := none
  durationS : ℚ := 0

/-- `SandboxResult.failure`. -/
def SandboxResult.failure (spec : SandboxSpec) (status : SandboxStatus) (error : String)
    (containerId : Option String) (durationS : ℚ) : SandboxResult where
  spec := spec
  status := status
  containerId := containerId
  error := some error
  durationS := max durationS 0

end DockerDriver

namespace Daemon

variable (d : Daemon)

/-- `_resolve_digest`. -/
def resolveDigest : Watch (Option String) := do
  match ← d.attempt .imageGet with
  | some _ => return none
  | none =>
    return match d.repoDigests with
      | digest :: _ => some digest
      | [] => if d.imageId ≠ "" then some d.imageId else none

/-- `_was_oom_killed`. -/
def wasOomKilled : Watch Bool := do
  match ← d.attempt .reload with
  | some _ => return false
  | none => return d.oomKilled

/-- `_quiet(container.remove, force=True)`. -/
def removeQuietly : Watch Unit := quiet (d.request .remove)

end Daemon

namespace DockerDriver

section Run

variable (printable : Char → Bool) (disk : DriverDisk) (driver : DockerDriver) (d : Daemon)
  (consumer : Option Consumer) (fuel : ℕ) (spec : SandboxSpec)

/-- The handle of a run. -/
def handle : ContainerHandle := { daemon := d, consumer := consumer }

/-- The status of a container that was waited for. -/
def statusOf (oom : Bool) (verdict : WatchdogVerdict) : SandboxStatus :=
  if oom then .oom else if verdict = .exited then .completed else .timeout

/-- What `run` does to a container that has started. -/
def supervise (digest : Option String) (started : ℚ) : Watch SandboxResult := do
  let outcome ← (handle d consumer).enforceDeadline fuel spec.timeoutS spec.graceS
  let (stdout, stderr) ← d.collectLogs
  let oom ← d.wasOomKilled
  let s ← get
  return {
    spec := spec
    status := statusOf oom outcome.verdict
    exitCode := outcome.exitCode
    stdout := stdout
    stderr := stderr
    containerId := some d.containerId
    imageDigest := digest
    error := if oom then some "container was OOM-killed"
      else if outcome.verdict = .exited then none
      else some ("exceeded " ++ toString spec.timeoutS ++ "s deadline ("
        ++ outcome.verdict.value ++ ")")
    durationS := s.now - started }

/-- The result of an exception past the start. -/
def errorResult (started : ℚ) (e : PyError) : Watch SandboxResult := do
  let s ← get
  return .failure spec .error e.message (some d.containerId) (s.now - started)

/-- …and once its container is created. -/
def runContainer (started : ℚ) : Watch SandboxResult := do
  let digest ← d.resolveDigest
  match ← d.attempt .start with
  | some e =>
    d.removeQuietly
    let s ← get
    return .failure spec .startFailed e.text (some d.containerId) (s.now - started)
  | none =>
    let result ← catching (supervise d consumer fuel spec digest started)
      (errorResult d spec started)
    if spec.autoRemove then d.removeQuietly
    return result

/-- `DockerDriver.run`. -/
def run : Watch SandboxResult := do
  Eff.ofExcept ((spec.validate printable).mapError .raised)
  Eff.ofExcept ((driver.validateMounts disk spec).mapError .raised)
  let started ← get
  match driver.buildCreateKwargs disk spec with
  | .error e =>
    return .failure spec .startFailed ("could not build container spec: " ++ e.message) none 0
  | .ok kwargs =>
    match ← d.attempt (.create kwargs) with
    | some e =>
      let s ← get
      return .failure spec .startFailed e.text none (s.now - started.now)
    | none => runContainer d consumer fuel spec started.now

end Run

end DockerDriver

/-! ## The wait -/

section Wait

variable (h : ContainerHandle)

theorem watches_waitOnce (d : Daemon) (t : ℚ) (ht : 0 ≤ t) : Within Watches (d.waitOnce t) := by
  intro s
  have hmove : ∀ now, s.now ≤ now →
      Watches s { s with calls := s.calls ++ [.wait t], now := now } := fun now hnow =>
    ⟨⟨hnow, [.wait t], rfl, fun hmem => by cases List.mem_singleton.mp hmem⟩, rfl, rfl⟩
  obtain ⟨-, e, code, -, -, hexec⟩ | ⟨-, -, hexec⟩ | ⟨e, -, hexec⟩ := waitOnce_cases d t s
  · rw [hexec]
    exact hmove _ (le_max_left _ _)
  · rw [hexec]
    exact hmove _ (le_add_of_nonneg_right ht)
  · rw [hexec]
    exact hmove _ (le_add_of_nonneg_right (d.latency_pos.le.trans (d.latency_le _)))

theorem watches_waitSliced (c : Consumer) (deadline : ℚ) (fuel : ℕ) :
    Within Watches (h.waitSliced c deadline fuel) := by
  induction fuel with
  | zero => exact within_throw _
  | succ fuel ih =>
    rw [waitSliced_succ]
    refine within_get_bind fun s => ?_
    split
    · exact Std.Refl.refl s
    · rename_i hopen
      refine within_bind (watches_waitOnce h.daemon _ ?_) (fun seen => ?_) s
      · exact le_min (not_le.mp hopen).le h.tickS_pos.le
      · cases seen with
        | some code => exact within_pure _
        | none => exact within_bind (watches_offerOutput h.daemon c) fun _ => ih

theorem watches_wait (fuel : ℕ) {t : ℚ} (ht : 0 ≤ t) : Within Watches (h.wait fuel t) := by
  rw [ContainerHandle.wait]
  cases h.consumer with
  | none => exact watches_waitOnce h.daemon t ht
  | some c => exact within_get_bind fun s => watches_waitSliced h c _ fuel s

/-- **An exit code is the container's**, and it ended within the wait… -/
theorem ends_of_waitOnce {d : Daemon} {timeoutS : ℚ} {s t : WatchState} {code : ℤ}
    (hexec : exec (d.waitOnce timeoutS) s = (.ok (some code), t)) :
    ∃ e, d.ending s.sigterm s.sigkill = some (e, code) ∧ e ≤ s.now + timeoutS := by
  obtain ⟨-, e, code', hend, hle, hsome⟩ | ⟨-, -, hnone⟩ | ⟨e, -, hfail⟩ :=
    waitOnce_cases d timeoutS s
  · obtain ⟨hcode, -⟩ := Prod.mk.inj (hsome.symm.trans hexec)
    refine ⟨e, ?_, hle⟩
    rw [hend, Option.some.inj (Except.ok.inj hcode)]
  · exact absurd (hnone.symm.trans hexec) (fun h => by cases h)
  · have hfalse := hfail.symm.trans hexec
    split at hfalse <;> cases hfalse

/-- …or, in slices, by the deadline. -/
theorem ends_of_waitSliced {c : Consumer} {deadline : ℚ} {fuel : ℕ} {s t : WatchState} {code : ℤ}
    (hexec : exec (h.waitSliced c deadline fuel) s = (.ok (some code), t)) :
    ∃ e, h.daemon.ending s.sigterm s.sigkill = some (e, code) ∧ e ≤ deadline := by
  induction fuel generalizing s with
  | zero => cases hexec
  | succ fuel ih =>
    rw [waitSliced_succ, exec_get_bind] at hexec
    split at hexec
    · cases hexec
    · rename_i hopen
      obtain ⟨seen, u, hwait, hrest⟩ := exec_bind_ok hexec
      cases seen with
      | some code' =>
        obtain ⟨hcode, -⟩ := exec_pure_ok hrest
        obtain ⟨e, hend, hle⟩ := ends_of_waitOnce hwait
        refine ⟨e, ?_, ?_⟩
        · rw [hend, Option.some.inj hcode]
        · have := min_le_left (deadline - s.now) h.tickS
          linarith
      | none =>
        obtain ⟨_, v, hoffer, hrest⟩ := exec_bind_ok hrest
        obtain ⟨e, hend, hle⟩ := ih hrest
        -- neither the slice nor the offer sent a signal
        have hslice := watches_waitOnce h.daemon (min (deadline - s.now) h.tickS)
          (le_min (not_le.mp hopen).le h.tickS_pos.le) s
        have hmove := watches_offerOutput h.daemon c u
        rw [hwait] at hslice
        rw [hoffer] at hmove
        rw [hmove.sigterm, hmove.sigkill, hslice.sigterm, hslice.sigkill] at hend
        exact ⟨e, hend, hle⟩

theorem ends_of_wait {fuel : ℕ} {timeoutS : ℚ} {s t : WatchState} {code : ℤ}
    (hexec : exec (h.wait fuel timeoutS) s = (.ok (some code), t)) :
    ∃ e, h.daemon.ending s.sigterm s.sigkill = some (e, code) ∧ e ≤ s.now + timeoutS := by
  rw [ContainerHandle.wait] at hexec
  cases hconsumer : h.consumer with
  | none =>
    rw [hconsumer] at hexec
    exact ends_of_waitOnce hexec
  | some c =>
    rw [hconsumer] at hexec
    dsimp only at hexec
    rw [exec_get_bind] at hexec
    exact ends_of_waitSliced h hexec

end Wait

/-! ## The watchdog -/

theorem proceeds_of_watches {α : Type} {x : Watch α} (h : Within Watches x) : Within Proceeds x :=
  fun s => (h s).toProceeds

section Enforce

variable (h : ContainerHandle) (fuel : ℕ) {timeoutS graceS : ℚ}

theorem proceeds_request (d : Daemon) (call : DaemonCall) (hcall : call ≠ .remove) :
    Within Proceeds (d.request call) := by
  refine within_bind (proceeds_of_watches (watches_attempt d call hcall)) fun failure => ?_
  cases failure with
  | some e => exact within_throw _
  | none => exact within_pure _

theorem proceeds_quiet {x : Watch Unit} (hx : Within Proceeds x) : Within Proceeds (quiet x) :=
  within_catching hx fun _ => within_pure ()

/-- Noting a signal is no call. -/
theorem proceeds_modify {f : WatchState → WatchState} (hnow : ∀ s, (f s).now = s.now)
    (hcalls : ∀ s, (f s).calls = s.calls) : Within Proceeds (modify f : Watch Unit) :=
  within_modify fun s => ⟨(hnow s).ge, [], by rw [hcalls, List.append_nil], List.not_mem_nil⟩

theorem proceeds_terminate (d : Daemon) : Within Proceeds d.terminate := by
  refine proceeds_quiet (within_bind (proceeds_request d _ fun h => by cases h) fun _ => ?_)
  exact proceeds_modify (fun _ => rfl) fun _ => rfl

theorem proceeds_kill (d : Daemon) : Within Proceeds d.kill := by
  refine proceeds_quiet (within_bind (proceeds_request d _ fun h => by cases h) fun _ => ?_)
  exact proceeds_modify (fun _ => rfl) fun _ => rfl

theorem killWait_nonneg (hgrace : 0 ≤ graceS) :
    (0 : ℚ) ≤ if min graceS 5 = 0 then 5 else min graceS 5 := by
  split
  · norm_num
  · exact le_min hgrace (by norm_num)

theorem proceeds_killNow (started : ℚ) (hgrace : 0 ≤ graceS) :
    Within Proceeds (h.killNow fuel started graceS) := by
  refine within_bind (proceeds_kill h.daemon) fun _ => ?_
  refine within_bind (proceeds_of_watches (watches_wait h fuel (killWait_nonneg hgrace))) fun seen => ?_
  exact within_get_bind fun s => Std.Refl.refl s

theorem proceeds_escalate (started : ℚ) (hgrace : 0 ≤ graceS) :
    Within Proceeds (h.escalate fuel started graceS) := by
  refine within_bind (proceeds_terminate h.daemon) fun _ => ?_
  split
  · refine within_bind (proceeds_of_watches (watches_wait h fuel hgrace)) fun seen => ?_
    cases seen with
    | some code => exact within_get_bind fun s => Std.Refl.refl s
    | none => exact proceeds_killNow h fuel started hgrace
  · exact proceeds_killNow h fuel started hgrace

/-- The watchdog waits first, if it was given sense. -/
theorem enforceDeadline_eq (htimeout : 0 < timeoutS) (hgrace : 0 ≤ graceS) :
    h.enforceDeadline fuel timeoutS graceS = get >>= fun started =>
      h.wait fuel timeoutS >>= fun seen =>
        match seen with
        | some code => get >>= fun s => pure ⟨.exited, some code, s.now - started.now⟩
        | none => h.escalate fuel started.now graceS := by
  unfold ContainerHandle.enforceDeadline
  exact (if_neg (not_le.mpr htimeout)).trans (if_neg (not_lt.mpr hgrace))

theorem proceeds_enforceDeadline (htimeout : 0 < timeoutS) (hgrace : 0 ≤ graceS) :
    Within Proceeds (h.enforceDeadline fuel timeoutS graceS) := by
  rw [enforceDeadline_eq h fuel htimeout hgrace]
  refine within_get_bind fun s => ?_
  refine within_bind (proceeds_of_watches (watches_wait h fuel htimeout.le)) (fun seen => ?_) s
  cases seen with
  | some code => exact within_get_bind fun s => Std.Refl.refl s
  | none => exact proceeds_escalate h fuel s.now hgrace

/-- Past the deadline no verdict is `EXITED`. -/
theorem verdict_of_escalate {started : ℚ} {s t : WatchState} {o : WatchdogOutcome}
    (hexec : exec (h.escalate fuel started graceS) s = (.ok o, t)) : o.verdict ≠ .exited := by
  have hkill : ∀ {s}, exec (h.killNow fuel started graceS) s = (.ok o, t) →
      o.verdict ≠ .exited := by
    intro s hexec
    obtain ⟨_, _, -, hexec⟩ := exec_bind_ok hexec
    obtain ⟨seen, u, -, hexec⟩ := exec_bind_ok hexec
    rw [exec_get_bind] at hexec
    obtain ⟨rfl, -⟩ := exec_pure_ok hexec
    cases seen with
    | some code => exact fun h => by cases h
    | none => exact fun h => by cases h
  obtain ⟨_, u, -, hexec⟩ := exec_bind_ok hexec
  split at hexec
  · obtain ⟨seen, v, -, hexec⟩ := exec_bind_ok hexec
    cases seen with
    | some code =>
      rw [exec_get_bind] at hexec
      obtain ⟨rfl, -⟩ := exec_pure_ok hexec
      exact fun h => by cases h
    | none => exact hkill hexec
  · exact hkill hexec

/-- **`EXITED` is said of a container that ended by itself within the timeout.** -/
theorem ends_of_exited (htimeout : 0 < timeoutS) (hgrace : 0 ≤ graceS) {s t : WatchState}
    {o : WatchdogOutcome} (hexec : exec (h.enforceDeadline fuel timeoutS graceS) s = (.ok o, t))
    (hexited : o.verdict = .exited) :
    ∃ e code, h.daemon.ending s.sigterm s.sigkill = some (e, code) ∧ e ≤ s.now + timeoutS ∧
      o.exitCode = some code := by
  rw [enforceDeadline_eq h fuel htimeout hgrace, exec_get_bind] at hexec
  obtain ⟨seen, u, hwait, hrest⟩ := exec_bind_ok hexec
  cases seen with
  | some code =>
    rw [exec_get_bind] at hrest
    obtain ⟨rfl, -⟩ := exec_pure_ok hrest
    obtain ⟨e, hend, hle⟩ := ends_of_wait h hwait
    exact ⟨e, code, hend, hle, rfl⟩
  | none => exact absurd hexited (verdict_of_escalate h fuel hrest)

/-- **The watchdog always comes back.** -/
theorem finishes_enforceDeadline (htimeout : 0 < timeoutS) (hgrace : 0 ≤ graceS)
    (hfuel : h.turns timeoutS graceS ≤ fuel) (s : WatchState) :
    Finishes (h.enforceDeadline fuel timeoutS graceS) s := by
  have hkill : ∀ started s, Finishes (h.killNow fuel started graceS) s := by
    intro started s
    obtain ⟨t, hexec⟩ := exec_kill h.daemon s
    refine finishes_bind (by rw [Finishes, hexec]; exact fun h => by cases h) fun _ u _ => ?_
    refine finishes_bind (finishes_wait h hfuel killWait_le u) fun seen v _ => ?_
    exact fun h => by cases h
  rw [enforceDeadline_eq h fuel htimeout hgrace, Finishes, exec_get_bind]
  refine finishes_bind (finishes_wait h hfuel (le_max_left _ _) s) fun seen t _ => ?_
  cases seen with
  | some code => exact fun h => by cases h
  | none =>
    obtain ⟨u, hexec⟩ := exec_terminate h.daemon t
    refine finishes_bind (by rw [Finishes, hexec]; exact fun h => by cases h) fun _ v _ => ?_
    split
    · refine finishes_bind (finishes_wait h hfuel
        ((le_max_left graceS 5).trans (le_max_right timeoutS _)) v) fun seen w _ => ?_
      cases seen with
      | some code => exact fun h => by cases h
      | none => exact hkill _ w
    · exact hkill _ v

end Enforce

/-! ## The other calls -/

section Calls

variable (d : Daemon) (s : WatchState)

/-- A stream that is read or not is one call. -/
theorem exec_readLog (stderr : Bool) :
    ∃ raw, exec (d.readLog stderr) s = (.ok raw, s.asked d (.logs (!stderr) stderr)) := by
  rw [Daemon.readLog, exec_bind, exec_attempt]
  cases d.failure s.calls.length (.logs (!stderr) stderr) with
  | some e => exact ⟨_, rfl⟩
  | none => exact ⟨_, rfl⟩

/-- The state after `_collect_logs`. -/
def WatchState.logged (s : WatchState) : WatchState :=
  (s.asked d (.logs true false)).asked d (.logs false true)

theorem exec_collectLogs : ∃ out, exec d.collectLogs s = (.ok out, s.logged d) := by
  obtain ⟨stdout, hstdout⟩ := exec_readLog d s false
  obtain ⟨stderr, hstderr⟩ := exec_readLog d (s.asked d (.logs true false)) true
  refine ⟨(stdout, stderr), ?_⟩
  rw [Daemon.collectLogs, exec_bind, hstdout]
  dsimp only
  rw [Bool.not_false, exec_bind, hstderr]
  rfl

theorem exec_wasOomKilled : exec d.wasOomKilled s
    = (.ok ((d.failure s.calls.length .reload).isNone && d.oomKilled), s.asked d .reload) := by
  rw [Daemon.wasOomKilled, exec_bind, exec_attempt]
  cases d.failure s.calls.length .reload with
  | some e => rfl
  | none => rfl

theorem exec_resolveDigest : ∃ digest, exec d.resolveDigest s = (.ok digest, s.asked d .imageGet) := by
  rw [Daemon.resolveDigest, exec_bind, exec_attempt]
  cases d.failure s.calls.length .imageGet with
  | some e => exact ⟨_, rfl⟩
  | none => exact ⟨_, rfl⟩

/-- A removal is attempted, whatever comes of it. -/
theorem exec_removeQuietly :
    ∃ t, exec d.removeQuietly s = (.ok (), t) ∧ t.calls = s.calls ++ [.remove] := by
  refine ⟨s.asked d .remove, ?_, rfl⟩
  rw [Daemon.removeQuietly, quiet, catching, exec_tryCatch, Daemon.request, exec_bind, exec_attempt]
  cases d.failure s.calls.length .remove with
  | some e => rfl
  | none => rfl

end Calls

namespace DockerDriver

section Supervise

variable {d : Daemon} {consumer : Option Consumer} {fuel : ℕ} {spec : SandboxSpec}
  {digest : Option String} {started : ℚ} {s t : WatchState}

/-- **The status follows the verdict and what the daemon says of the kernel.** -/
theorem exec_supervise {o : WatchdogOutcome}
    (h : exec ((handle d consumer).enforceDeadline fuel spec.timeoutS spec.graceS) s
      = (.ok o, t)) :
    ∃ result, exec (supervise d consumer fuel spec digest started) s
        = (.ok result, (t.logged d).asked d .reload) ∧
      result.status = statusOf
        ((d.failure (t.calls.length + 2) .reload).isNone && d.oomKilled) o.verdict ∧
      result.exitCode = o.exitCode := by
  obtain ⟨⟨stdout, stderr⟩, hlogs⟩ := exec_collectLogs d t
  have hlength : (t.logged d).calls.length = t.calls.length + 2 := by
    simp [WatchState.logged, WatchState.asked]
  have hoom := exec_wasOomKilled d (t.logged d)
  rw [hlength] at hoom
  rw [supervise, exec_bind, h]
  dsimp only
  rw [exec_bind, hlogs]
  dsimp only
  rw [exec_bind, hoom]
  dsimp only
  rw [exec_get_bind, exec_pure]
  exact ⟨_, rfl, rfl, rfl⟩

theorem exec_supervise_of_halt {e : Halt}
    (h : exec ((handle d consumer).enforceDeadline fuel spec.timeoutS spec.graceS) s
      = (.error e, t)) :
    exec (supervise d consumer fuel spec digest started) s = (.error e, t) := by
  rw [supervise, exec_bind, h]

/-- The watchdog and what follows it proceed. -/
theorem proceeds_supervise (htimeout : 0 < spec.timeoutS) (hgrace : 0 ≤ spec.graceS) :
    Within Proceeds (supervise d consumer fuel spec digest started) := by
  refine within_bind (proceeds_enforceDeadline _ fuel (Int.cast_pos.mpr htimeout)
    (Int.cast_nonneg hgrace)) fun o => ?_
  refine within_bind (proceeds_of_watches (watches_collectLogs d)) fun logs => ?_
  refine within_bind ?_ fun oom => within_get_bind fun s => Std.Refl.refl s
  intro s
  rw [exec_wasOomKilled]
  exact (watches_asked d .reload (fun h => by cases h) s).toProceeds

end Supervise

/-! ## A whole run -/

section Run

variable (printable : Char → Bool) (disk : DriverDisk) (driver : DockerDriver) (d : Daemon)
  (consumer : Option Consumer) (fuel : ℕ) (spec : SandboxSpec) (now : ℚ)

/-- The container is created with these arguments. -/
def Created (kwargs : CreateKwargs) : Prop :=
  driver.buildCreateKwargs disk spec = .ok kwargs ∧ d.failure 0 (.create kwargs) = none

/-- The state the wait begins in. -/
def waiting (kwargs : CreateKwargs) : WatchState :=
  ((({ now := now } : WatchState).asked d (.create kwargs)).asked d .imageGet).asked d .start

/-- **The driver answers, cleans up, and calls nothing completed that was not.** -/
def AnswersAndCleansUp : Prop :=
  ∃ result t, exec (run printable disk driver d consumer fuel spec) { now := now } = (.ok result, t) ∧
    (∀ kwargs, Created disk driver d spec kwargs →
      ((d.failure 2 .start).isSome = true ∨ spec.autoRemove = true) →
        ∃ earlier, t.calls = earlier ++ [.remove] ∧ .remove ∉ earlier) ∧
    (result.status = .completed → d.oomKilled = false ∧
      ∃ kwargs e code, Created disk driver d spec kwargs ∧ d.ending none none = some (e, code) ∧
        e ≤ (waiting d now kwargs).now + spec.timeoutS ∧ result.exitCode = some code)

/-- The container was OOM-killed and ended within its deadline, and the daemon does not answer when
it is asked about it. -/
def OomGoesUnread : Prop :=
  d.oomKilled = true ∧ ∃ kwargs o t, Created disk driver d spec kwargs ∧ d.failure 2 .start = none ∧
    exec ((handle d consumer).enforceDeadline fuel spec.timeoutS spec.graceS) (waiting d now kwargs)
      = (.ok o, t) ∧
    o.verdict = .exited ∧ (d.failure (t.calls.length + 2) .reload).isSome = true

variable {printable disk driver d consumer fuel spec now}

/-- A spec that is accepted has a deadline. -/
theorem times_of_validate (h : spec.validate printable = .ok ()) :
    0 < spec.timeoutS ∧ 0 ≤ spec.graceS := by
  rw [SandboxSpec.validate] at h
  split at h
  · rename_i hnil
    simp only [SandboxSpec.errors, List.append_eq_nil_iff, complaint_eq_nil] at hnil
    obtain ⟨⟨⟨⟨⟨⟨⟨-, htimeout⟩, hgrace⟩, -⟩, -⟩, -⟩, -⟩, -⟩ := hnil
    exact ⟨by simpa using htimeout, by simpa using hgrace⟩
  · cases h

/-- What follows the checks. -/
theorem exec_run (hvalid : spec.validate printable = .ok ())
    (hmounts : driver.validateMounts disk spec = .ok ()) (s : WatchState) :
    exec (run printable disk driver d consumer fuel spec) s
      = match driver.buildCreateKwargs disk spec with
        | .error e => (.ok (.failure spec .startFailed
            ("could not build container spec: " ++ e.message) none 0), s)
        | .ok kwargs => match d.failure s.calls.length (.create kwargs) with
          | some e => (.ok (.failure spec .startFailed e.text none
              ((s.asked d (.create kwargs)).now - s.now)), s.asked d (.create kwargs))
          | none => exec (runContainer d consumer fuel spec s.now) (s.asked d (.create kwargs)) := by
  rw [run, hvalid, hmounts]
  dsimp only [Except.mapError, Eff.ofExcept]
  rw [exec_bind, exec_pure]
  dsimp only
  rw [exec_bind, exec_pure]
  dsimp only
  rw [exec_get_bind]
  cases driver.buildCreateKwargs disk spec with
  | error e => rfl
  | ok kwargs =>
    dsimp only
    rw [exec_bind, exec_attempt]
    dsimp only
    cases d.failure s.calls.length (.create kwargs) with
    | some e => rfl
    | none => rfl

/-- A container that does not start is removed. -/
theorem exec_runContainer_of_failure {started : ℚ} {s : WatchState}
    (hstart : (d.failure (s.calls.length + 1) .start).isSome = true) :
    ∃ result t, exec (runContainer d consumer fuel spec started) s = (.ok result, t) ∧
      result.status = .startFailed ∧
      t.calls = s.calls ++ [.imageGet] ++ [.start] ++ [.remove] := by
  obtain ⟨digest, hdigest⟩ := exec_resolveDigest d s
  obtain ⟨t, hremove, hcalls⟩ := exec_removeQuietly d ((s.asked d .imageGet).asked d .start)
  have hlength : (s.asked d .imageGet).calls.length = s.calls.length + 1 :=
    List.length_append
  obtain ⟨e, he⟩ := Option.isSome_iff_exists.mp hstart
  rw [runContainer, exec_bind, hdigest]
  dsimp only
  rw [exec_bind, exec_attempt, hlength, he]
  dsimp only
  rw [exec_bind, hremove]
  exact ⟨_, t, rfl, rfl, hcalls⟩

/-- **A container that starts is waited for**, and removed if the spec says so. -/
theorem exec_runContainer_of_start (htimeout : 0 < spec.timeoutS) (hgrace : 0 ≤ spec.graceS)
    (hfuel : (handle d consumer).turns spec.timeoutS spec.graceS ≤ fuel) {started : ℚ}
    {s : WatchState} (hstart : (d.failure (s.calls.length + 1) .start) = none) :
    ∃ result u t, exec (runContainer d consumer fuel spec started) s = (.ok result, t) ∧
      Proceeds ((s.asked d .imageGet).asked d .start) u ∧
      t.calls = u.calls ++ (if spec.autoRemove then [.remove] else []) ∧
      ((∃ e v, exec ((handle d consumer).enforceDeadline fuel spec.timeoutS spec.graceS)
          ((s.asked d .imageGet).asked d .start) = (.error e, v) ∧ result.status = .error) ∨
        ∃ o v, exec ((handle d consumer).enforceDeadline fuel spec.timeoutS spec.graceS)
            ((s.asked d .imageGet).asked d .start) = (.ok o, v) ∧
          result.status = statusOf
            ((d.failure (v.calls.length + 2) .reload).isNone && d.oomKilled) o.verdict ∧
          result.exitCode = o.exitCode) := by
  obtain ⟨digest, hdigest⟩ := exec_resolveDigest d s
  have hlength : (s.asked d .imageGet).calls.length = s.calls.length + 1 :=
    List.length_append
  -- what `finally` does to a result
  have hfinally : ∀ (x : Watch SandboxResult) result u,
      exec x ((s.asked d .imageGet).asked d .start) = (.ok result, u) →
      ∃ t, exec (x >>= fun result => if spec.autoRemove = true then
          d.removeQuietly >>= fun _ => pure result else pure result)
          ((s.asked d .imageGet).asked d .start) = (.ok result, t) ∧
        t.calls = u.calls ++ (if spec.autoRemove then [.remove] else []) := by
    intro x result u hx
    rw [exec_bind, hx]
    dsimp only
    by_cases hremove : spec.autoRemove = true
    · obtain ⟨t, hexec, hcalls⟩ := exec_removeQuietly d u
      rw [if_pos hremove, if_pos hremove, exec_bind, hexec]
      exact ⟨t, rfl, hcalls⟩
    · rw [if_neg hremove, if_neg hremove]
      exact ⟨u, rfl, (List.append_nil _).symm⟩
  have hfinish := finishes_enforceDeadline (handle d consumer) fuel (Int.cast_pos.mpr htimeout)
    (Int.cast_nonneg hgrace) hfuel ((s.asked d .imageGet).asked d .start)
  have hproceed := @proceeds_supervise d consumer fuel spec digest started htimeout hgrace
    ((s.asked d .imageGet).asked d .start)
  rw [runContainer, exec_bind, hdigest]
  dsimp only
  rw [exec_bind, exec_attempt, hlength, hstart]
  dsimp only
  rcases henforce : exec ((handle d consumer).enforceDeadline fuel spec.timeoutS spec.graceS)
    ((s.asked d .imageGet).asked d .start) with ⟨(e | -) | o, v⟩
  · have hsupervise := @exec_supervise_of_halt d consumer fuel spec digest started _ _ _ henforce
    rw [hsupervise] at hproceed
    have hcaught : exec (catching (supervise d consumer fuel spec digest started)
        (errorResult d spec started)) ((s.asked d .imageGet).asked d .start)
        = (.ok (.failure spec .error e.message (some d.containerId) (v.now - started)), v) := by
      rw [catching, exec_tryCatch, hsupervise]
      rfl
    obtain ⟨t, hexec, hcalls⟩ := hfinally _ _ v hcaught
    exact ⟨_, v, t, hexec, hproceed, hcalls, Or.inl ⟨_, _, rfl, rfl⟩⟩
  · exact absurd (congrArg Prod.fst henforce) hfinish
  · obtain ⟨result, hsupervise, hstatus, hcode⟩ :=
      @exec_supervise d consumer fuel spec digest started _ _ _ henforce
    rw [hsupervise] at hproceed
    have hcaught : exec (catching (supervise d consumer fuel spec digest started)
        (errorResult d spec started)) ((s.asked d .imageGet).asked d .start)
        = (.ok result, (v.logged d).asked d .reload) := by
      rw [catching, exec_tryCatch, hsupervise]
    obtain ⟨t, hexec, hcalls⟩ := hfinally _ result _ hcaught
    exact ⟨result, _, t, hexec, hproceed, hcalls, Or.inr ⟨o, v, rfl, hstatus, hcode⟩⟩

/-- **The driver keeps its promises exactly when no OOM kill goes unread.** -/
theorem answersAndCleansUp_iff (hvalid : spec.validate printable = .ok ())
    (hmounts : driver.validateMounts disk spec = .ok ())
    (hfuel : (handle d consumer).turns spec.timeoutS spec.graceS ≤ fuel) :
    AnswersAndCleansUp printable disk driver d consumer fuel spec now ↔
      ¬OomGoesUnread disk driver d consumer fuel spec now := by
  obtain ⟨htimeout, hgrace⟩ := times_of_validate hvalid
  have hexec := @exec_run printable disk driver d consumer fuel spec hvalid hmounts { now := now }
  rcases hbuild : driver.buildCreateKwargs disk spec with e | kwargs
  · rw [hbuild] at hexec
    have hnot : ∀ kwargs, ¬Created disk driver d spec kwargs := fun kwargs h => by
      rw [Created, hbuild] at h
      cases h.1
    refine iff_of_true ⟨_, _, hexec, fun kwargs h => absurd h (hnot kwargs), fun h => by cases h⟩ ?_
    rintro ⟨-, kwargs, -, -, h, -⟩
    exact hnot kwargs h
  rw [hbuild] at hexec
  dsimp only at hexec
  rcases hcreate : d.failure 0 (.create kwargs) with - | e
  case some =>
    rw [List.length_nil, hcreate] at hexec
    have hnot : ∀ kwargs, ¬Created disk driver d spec kwargs := fun kwargs' h => by
      obtain rfl := Except.ok.inj (hbuild.symm.trans h.1)
      exact absurd (hcreate.symm.trans h.2) (fun h => by cases h)
    refine iff_of_true ⟨_, _, hexec, fun kwargs h => absurd h (hnot kwargs), fun h => by cases h⟩ ?_
    rintro ⟨-, kwargs, -, -, h, -⟩
    exact hnot kwargs h
  rw [List.length_nil, hcreate] at hexec
  dsimp only at hexec
  have hcreated : Created disk driver d spec kwargs := ⟨hbuild, hcreate⟩
  rcases hstart : d.failure 2 .start with - | e
  case some =>
    obtain ⟨result, t, hrun, hstatus, hcalls⟩ := @exec_runContainer_of_failure d consumer fuel spec
      now (({ now := now } : WatchState).asked d (.create kwargs)) (by
        change (d.failure 2 .start).isSome = true
        rw [hstart]
        rfl)
    refine iff_of_true ⟨result, t, hexec.trans hrun, fun _ _ _ => ⟨_, hcalls, ?_⟩, fun h => ?_⟩ ?_
    · simp [WatchState.asked]
    · rw [hstatus] at h
      cases h
    · rintro ⟨-, _, _, _, -, h, -⟩
      rw [hstart] at h
      cases h
  obtain ⟨result, u, t, hrun, hproceeds, hcalls, hend⟩ := @exec_runContainer_of_start d consumer fuel
    spec htimeout hgrace hfuel now (({ now := now } : WatchState).asked d (.create kwargs)) hstart
  have hclean : ∀ kwargs, Created disk driver d spec kwargs →
      ((d.failure 2 .start).isSome = true ∨ spec.autoRemove = true) →
        ∃ earlier, t.calls = earlier ++ [.remove] ∧ .remove ∉ earlier := by
    rintro _ - (hfailed | hremove)
    · rw [hstart] at hfailed
      cases hfailed
    · rw [if_pos hremove] at hcalls
      obtain ⟨more, hmore, hnot⟩ := hproceeds.calls
      refine ⟨_, hcalls, ?_⟩
      rw [hmore, List.mem_append]
      refine fun hmem => hmem.elim (fun hmem => ?_) hnot
      simp [WatchState.asked] at hmem
  obtain ⟨e, v, henforce, hstatus⟩ | ⟨o, v, henforce, hstatus, hcode⟩ := hend
  · refine iff_of_true ⟨result, t, hexec.trans hrun, hclean, fun h => ?_⟩ ?_
    · rw [hstatus] at h
      cases h
    · rintro ⟨-, kwargs', o', v', hcreated', -, henforce', -⟩
      obtain rfl := Except.ok.inj (hbuild.symm.trans hcreated'.1)
      exact absurd (henforce.symm.trans henforce') (fun h => by cases h)
  · constructor
    · rintro ⟨result', t', hrun', -, hcompleted⟩ ⟨hoom, kwargs', o', v', hcreated', -, henforce',
        hexited, hreload⟩
      obtain rfl := Except.ok.inj (hbuild.symm.trans hcreated'.1)
      obtain ⟨ho, rfl⟩ := Prod.mk.inj (henforce.symm.trans henforce')
      obtain rfl := Except.ok.inj ho
      obtain ⟨hresult, -⟩ := Prod.mk.inj ((hexec.trans hrun).symm.trans hrun')
      obtain rfl := Except.ok.inj hresult
      have hfalse := (hcompleted (by
        rw [hstatus, hexited, ← Option.not_isSome, hreload]
        rfl)).1
      rw [hoom] at hfalse
      cases hfalse
    · intro hread
      refine ⟨result, t, hexec.trans hrun, hclean, fun hcompleted => ?_⟩
      rw [hstatus, statusOf] at hcompleted
      split at hcompleted
      · cases hcompleted
      rename_i hoom
      split at hcompleted
      case isFalse => cases hcompleted
      rename_i hexited
      obtain ⟨e, code, hending, hle, hexit⟩ := ends_of_exited (handle d consumer) fuel
        (Int.cast_pos.mpr htimeout) (Int.cast_nonneg hgrace) henforce hexited
      refine ⟨?_, kwargs, e, code, hcreated, hending, hle, hcode.trans hexit⟩
      -- a kill that was read is a status of its own, and none goes unread
      refine Bool.eq_false_iff.mpr fun hkilled => hread ⟨hkilled, kwargs, o, v, hcreated, hstart,
        henforce, hexited, ?_⟩
      rw [hkilled, Bool.and_true, Bool.not_eq_true, Option.isNone_eq_false_iff] at hoom
      exact hoom

end Run

/-! ## A kill that goes unread -/

/-- A disk with nothing on it. -/
def emptyDisk : DriverDisk where
  resolve _ := .ok []
  isFile _ := false
  readText text := .error (.external text)
  reserialise text := .ok text

/-- A container for one analyzer. -/
def plainSpec : SandboxSpec :=
  { image := "bare/static", runId := "run", analyzer := "static", seccompProfile := none }

theorem second_pos : (0 : ℚ) < 1 := one_pos

theorem second_le : ∀ _ : ℕ, (1 : ℚ) ≤ 1 := fun _ => le_rfl

/-- A container that the kernel kills after five seconds, under a daemon that fails at the calls
this says. -/
def killedDaemon (fails : DaemonCall → Bool) : Daemon where
  ending _ _ := some (5, 137)
  oomKilled := true
  failure _ call := if fails call then some ⟨["ConnectionError"], "connection refused"⟩ else none
  latency_pos := second_pos
  latency_le := second_le

/-- A kill that the daemon tells of is reported. -/
theorem answersAndCleansUp_killed :
    AnswersAndCleansUp (fun _ => true) emptyDisk ⟨[], [], none, []⟩ (killedDaemon fun _ => false) none
      ((handle (killedDaemon fun _ => false) none).turns plainSpec.timeoutS plainSpec.graceS) plainSpec 0 := by
  refine (answersAndCleansUp_iff (by decide +kernel) rfl le_rfl).mpr ?_
  rintro ⟨-, kwargs, o, t, -, -, -, -, hreload⟩
  cases hreload

/-- **A kill called a completed run**: the daemon fails when it is asked how the container ended. -/
theorem killed_completed :
    ¬AnswersAndCleansUp (fun _ => true) emptyDisk ⟨[], [], none, []⟩
      (killedDaemon fun call => call = .reload) none
      ((handle (killedDaemon fun call => call = .reload) none).turns plainSpec.timeoutS plainSpec.graceS) plainSpec 0 := by
  rintro ⟨result, t, hexec, -, hcompleted⟩
  have hstatus : (exec (run (fun _ => true) emptyDisk ⟨[], [], none, []⟩
      (killedDaemon fun call => call = .reload) none
      ((handle (killedDaemon fun call => call = .reload) none).turns plainSpec.timeoutS plainSpec.graceS) plainSpec)
      { now := 0 }).1.map SandboxResult.status = .ok .completed := by decide +kernel
  rw [hexec] at hstatus
  exact absurd (hcompleted (Except.ok.inj hstatus)).1 (by decide)

end DockerDriver

end BareAnalysis
