import BareAnalysis.Sandbox.Watchdog

/-!
# Sandbox/Watching — what a live consumer does to the deadline

    now ──slice──▸ offer 0 ──slice──▸ offer 1 ── … ── deadline
                      ╲______ the container ends, and the offer outlasts the deadline: not seen

A wait in slices answers as a wait in one piece does, but for a container that ends while the
consumer is at work, if the consumer does not return before the deadline.
-/

namespace BareAnalysis

open Eff

/-! ## One step at a time -/

/-- The state after a call. -/
def WatchState.asked (d : Daemon) (call : DaemonCall) (s : WatchState) : WatchState :=
  { s with
    calls := s.calls ++ [call]
    now := s.now + if (d.failure s.calls.length call).isSome then d.delay s.calls.length else 0 }

theorem exec_attempt (d : Daemon) (call : DaemonCall) (s : WatchState) :
    exec (d.attempt call) s = (.ok (d.failure s.calls.length call), s.asked d call) := rfl

theorem asked_of_none {d : Daemon} {call : DaemonCall} {s : WatchState}
    (h : d.failure s.calls.length call = none) :
    s.asked d call = { s with calls := s.calls ++ [call] } := by
  rw [WatchState.asked, h, Option.isSome_none, if_neg Bool.false_ne_true, add_zero]

theorem asked_of_some {d : Daemon} {call : DaemonCall} {s : WatchState} {e : DaemonError}
    (h : d.failure s.calls.length call = some e) :
    s.asked d call
      = { s with calls := s.calls ++ [call], now := s.now + d.delay s.calls.length } := by
  rw [WatchState.asked, h, Option.isSome_some, if_pos rfl]

/-- A part of a run lets time pass and does not remove the container. -/
structure Proceeds (s t : WatchState) : Prop where
  now : s.now ≤ t.now
  calls : ∃ more, t.calls = s.calls ++ more ∧ .remove ∉ more

instance : Std.Refl Proceeds := ⟨fun _ => ⟨le_rfl, [], (List.append_nil _).symm, List.not_mem_nil⟩⟩

instance : IsTrans WatchState Proceeds where
  trans s t u h h' := by
    obtain ⟨more, hmore, hnot⟩ := h.calls
    obtain ⟨more', hmore', hnot'⟩ := h'.calls
    refine ⟨h.now.trans h'.now, more ++ more', ?_, ?_⟩
    · rw [hmore', hmore, List.append_assoc]
    · rw [List.mem_append]
      exact fun hmem => hmem.elim hnot hnot'

/-- A part of a run sends no signal either. -/
structure Watches (s t : WatchState) : Prop extends Proceeds s t where
  sigterm : t.sigterm = s.sigterm
  sigkill : t.sigkill = s.sigkill

instance : Std.Refl Watches := ⟨fun s => ⟨Std.Refl.refl s, rfl, rfl⟩⟩

instance : IsTrans WatchState Watches where
  trans _ _ _ h h' := ⟨IsTrans.trans _ _ _ h.toProceeds h'.toProceeds,
    h'.sigterm.trans h.sigterm, h'.sigkill.trans h.sigkill⟩

section Steps

variable (d : Daemon)

theorem watches_asked (call : DaemonCall) (hcall : call ≠ .remove) (s : WatchState) :
    Watches s (s.asked d call) := by
  refine ⟨⟨?_, [call], rfl, fun h => hcall (List.mem_singleton.mp h).symm⟩, rfl, rfl⟩
  rw [WatchState.asked]
  split
  · exact le_add_of_nonneg_right (d.latency_pos.le.trans (d.latency_le _))
  · exact (add_zero s.now).ge

theorem watches_attempt (call : DaemonCall) (hcall : call ≠ .remove) :
    Within Watches (d.attempt call) := fun s => watches_asked d call hcall s

theorem watches_readLog (stderr : Bool) : Within Watches (d.readLog stderr) := by
  refine within_bind (watches_attempt d _ (fun h => by cases h)) fun failure => ?_
  cases failure with
  | some e => exact within_pure _
  | none => exact within_get_bind fun s => Std.Refl.refl s

theorem watches_collectLogs : Within Watches d.collectLogs := by
  refine within_bind (watches_readLog d false) fun _ => ?_
  exact within_bind (watches_readLog d true) fun _ => within_pure _

theorem watches_onOutput (c : Consumer) : Within Watches c.onOutput := by
  refine within_get_bind fun s => ?_
  rw [exec_modify_bind]
  have hmove : Watches s { s with now := s.now + c.duration s.offers, offers := s.offers + 1 } :=
    ⟨⟨le_add_of_nonneg_right (c.duration_nonneg _), [], (List.append_nil _).symm,
      List.not_mem_nil⟩, rfl, rfl⟩
  cases c.raises s.offers with
  | some message => exact hmove
  | none => exact hmove

/-- What a handler does is all that happens besides. -/
theorem within_catching {R : WatchState → WatchState → Prop} [Std.Refl R] [IsTrans WatchState R]
    {α : Type} {x : Watch α} {handler : PyError → Watch α} (hx : Within R x)
    (hh : ∀ e, Within R (handler e)) : Within R (catching x handler) := by
  refine within_tryCatch hx fun halt => ?_
  cases halt with
  | raised e => exact hh e
  | outOfFuel => exact within_throw _

theorem watches_offerOutput (c : Consumer) : Within Watches (d.offerOutput c) := by
  refine within_catching ?_ fun _ => within_pure ()
  exact within_bind (watches_collectLogs d) fun _ => watches_onOutput c

/-- The container has ended by this moment, if nothing is sent to it. -/
def Daemon.EndsBy (moment : ℚ) (s : WatchState) : Prop :=
  ∃ e code, d.ending s.sigterm s.sigkill = some (e, code) ∧ e ≤ moment

/-- **All that one wait can do**: it sees the end, it sees none, or the call fails. -/
theorem waitOnce_cases (t : ℚ) (s : WatchState) :
    (d.failure s.calls.length (.wait t) = none ∧ ∃ e code,
      d.ending s.sigterm s.sigkill = some (e, code) ∧ e ≤ s.now + t ∧
        exec (d.waitOnce t) s
          = (.ok (some code), { s with calls := s.calls ++ [.wait t], now := max s.now e })) ∨
    (d.failure s.calls.length (.wait t) = none ∧ ¬d.EndsBy (s.now + t) s ∧
      exec (d.waitOnce t) s
        = (.ok none, { s with calls := s.calls ++ [.wait t], now := s.now + t })) ∨
    ∃ e, d.failure s.calls.length (.wait t) = some e ∧
      exec (d.waitOnce t) s
        = (if e.isTimeout then .ok none else .error (.raised (.external e.text)),
          { s with calls := s.calls ++ [.wait t], now := s.now + d.delay s.calls.length }) := by
  rw [Daemon.waitOnce, exec_bind, exec_attempt]
  rcases hfail : d.failure s.calls.length (.wait t) with - | e
  · rw [asked_of_none hfail]
    dsimp only
    rw [exec_get_bind]
    dsimp only
    rcases hend : d.ending s.sigterm s.sigkill with - | ⟨e, code⟩
    · refine Or.inr (Or.inl ⟨rfl, ?_, rfl⟩)
      rintro ⟨e, code, hsome, -⟩
      rw [hend] at hsome
      cases hsome
    · dsimp only
      by_cases hle : e ≤ s.now + t
      · refine Or.inl ⟨rfl, e, code, rfl, hle, ?_⟩
        rw [if_pos hle]
        rfl
      · refine Or.inr (Or.inl ⟨rfl, ?_, ?_⟩)
        · rintro ⟨e', code', hsome, hle'⟩
          rw [hend] at hsome
          obtain ⟨rfl, -⟩ := Prod.mk.inj (Option.some.inj hsome)
          exact hle hle'
        · rw [if_neg hle]
          rfl
  · rw [asked_of_some hfail]
    refine Or.inr (Or.inr ⟨e, rfl, ?_⟩)
    dsimp only
    by_cases htimeout : e.isTimeout = true
    · rw [if_pos htimeout, if_pos htimeout]
      rfl
    · rw [if_neg htimeout, if_neg htimeout]
      rfl

end Steps

/-! ## Programs that end -/

/-- The program does not run out of fuel. -/
def Finishes {α : Type} (x : Watch α) (s : WatchState) : Prop :=
  (exec x s).1 ≠ .error .outOfFuel

section Finishes

variable {α β : Type} {x : Watch α} {s : WatchState}

theorem finishes_pure (a : α) : Finishes (pure a) s := fun h => by cases h

theorem finishes_bind {f : α → Watch β} (hx : Finishes x s)
    (hf : ∀ a t, exec x s = (.ok a, t) → Finishes (f a) t) : Finishes (x >>= f) s := by
  rw [Finishes, exec_bind]
  rcases hxs : exec x s with ⟨e | a, t⟩
  · intro h
    refine hx ?_
    rw [hxs, Except.error.inj h]
  · exact hf a t hxs

theorem finishes_catching {handler : PyError → Watch α} (hx : Finishes x s)
    (hh : ∀ e t, Finishes (handler e) t) : Finishes (catching x handler) s := by
  rw [Finishes, catching, exec_tryCatch]
  rcases hxs : exec x s with ⟨(e | -) | a, t⟩
  · exact hh e t
  · exact absurd (congrArg Prod.fst hxs) hx
  · exact fun h => by cases h

variable (d : Daemon)

theorem finishes_attempt (call : DaemonCall) : Finishes (d.attempt call) s := fun h => by cases h

theorem finishes_readLog (stderr : Bool) : Finishes (d.readLog stderr) s := by
  refine finishes_bind (finishes_attempt d _) fun failure t _ => ?_
  cases failure with
  | some e => exact finishes_pure _
  | none => exact fun h => by cases h

theorem finishes_collectLogs : Finishes d.collectLogs s := by
  refine finishes_bind (finishes_readLog d false) fun _ t _ => ?_
  exact finishes_bind (finishes_readLog d true) fun _ u _ => finishes_pure _

theorem finishes_onOutput (c : Consumer) : Finishes c.onOutput s := by
  rw [Finishes, Consumer.onOutput, exec_get_bind, exec_modify_bind]
  cases c.raises s.offers with
  | some message => exact fun h => by cases h
  | none => exact fun h => by cases h

theorem finishes_offerOutput (c : Consumer) : Finishes (d.offerOutput c) s := by
  refine finishes_catching ?_ fun _ _ => finishes_pure ()
  exact finishes_bind (finishes_collectLogs d) fun _ _ _ => finishes_onOutput c

theorem finishes_waitOnce (t : ℚ) : Finishes (d.waitOnce t) s := by
  rw [Finishes]
  obtain ⟨-, _, _, -, -, hexec⟩ | ⟨-, -, hexec⟩ | ⟨e, -, hexec⟩ := waitOnce_cases d t s
  · rw [hexec]
    exact fun h => by cases h
  · rw [hexec]
    exact fun h => by cases h
  · rw [hexec]
    dsimp only
    split
    · exact fun h => by cases h
    · exact fun h => by cases h

end Finishes

section Slices

variable (h : ContainerHandle) (c : Consumer) (deadline : ℚ)

/-- One turn of the loop. -/
theorem waitSliced_succ (fuel : ℕ) :
    h.waitSliced c deadline (fuel + 1) = get >>= fun s =>
      if deadline - s.now ≤ 0 then pure none
      else h.daemon.waitOnce (min (deadline - s.now) h.tickS) >>= fun seen =>
        match seen with
        | some code => pure (some code)
        | none => h.daemon.offerOutput c >>= fun _ => h.waitSliced c deadline fuel := rfl

/-- A wait that saw nothing took its time, or the time of a failing call. -/
theorem now_of_waitOnce_none {d : Daemon} {t : ℚ} {s u : WatchState}
    (hexec : exec (d.waitOnce t) s = (.ok none, u)) : s.now + min t d.latency ≤ u.now := by
  obtain ⟨-, e, code, -, -, hsome⟩ | ⟨-, -, hnone⟩ | ⟨e, -, hfail⟩ := waitOnce_cases d t s
  · rw [hsome] at hexec
    cases hexec
  · obtain rfl := congrArg Prod.snd (hnone.symm.trans hexec)
    exact add_le_add_right (min_le_left t d.latency) s.now
  · obtain rfl := congrArg Prod.snd (hfail.symm.trans hexec)
    exact add_le_add_right ((min_le_right t d.latency).trans (d.latency_le _)) s.now

/-- The least a turn of the loop takes. -/
def ContainerHandle.step : ℚ := min h.tickS h.daemon.latency

theorem ContainerHandle.step_pos : 0 < h.step := lt_min h.tickS_pos h.daemon.latency_pos

/-- **The loop ends**, after no more turns than there is time for. -/
theorem finishes_waitSliced (n fuel : ℕ) (s : WatchState) (hn : deadline - s.now ≤ n * h.step)
    (hfuel : n < fuel) : Finishes (h.waitSliced c deadline fuel) s := by
  induction n generalizing fuel s with
  | zero =>
    obtain ⟨fuel, rfl⟩ : ∃ m, fuel = m + 1 := ⟨fuel - 1, by omega⟩
    rw [Finishes, waitSliced_succ, exec_get_bind, if_pos (by simpa using hn)]
    exact fun h => by cases h
  | succ n ih =>
    obtain ⟨fuel, rfl⟩ : ∃ m, fuel = m + 1 := ⟨fuel - 1, by omega⟩
    rw [Finishes, waitSliced_succ, exec_get_bind]
    split
    · exact fun h => by cases h
    · refine finishes_bind (finishes_waitOnce _ _) fun seen t hseen => ?_
      cases seen with
      | some code => exact finishes_pure _
      | none =>
        refine finishes_bind (finishes_offerOutput _ c) fun _ u hoffer => ih fuel u ?_ (by omega)
        have hslice := now_of_waitOnce_none hseen
        have hmove := watches_offerOutput h.daemon c t
        rw [hoffer] at hmove
        have hlater : t.now ≤ u.now := hmove.now
        rw [min_assoc] at hslice
        rw [Nat.cast_succ, add_mul, one_mul] at hn
        -- the last slice ends at the deadline, any other takes a step
        obtain hlast | hstep := min_choice (deadline - s.now) h.step
        · rw [ContainerHandle.step] at hlast
          rw [hlast] at hslice
          have hnonneg : 0 ≤ (n : ℚ) * h.step := mul_nonneg n.cast_nonneg h.step_pos.le
          linarith
        · rw [ContainerHandle.step] at hstep hn ⊢
          rw [hstep] at hslice
          linarith

end Slices

/-! ## A daemon that answers -/

section Undisturbed

variable {d : Daemon} (hquiet : ∀ n call, d.failure n call = none)

include hquiet

theorem exec_readLog_of_quiet (stderr : Bool) (s : WatchState) :
    exec (d.readLog stderr) s = (.ok (Daemon.cappedLog (d.output s.now stderr)),
      { s with calls := s.calls ++ [.logs (!stderr) stderr] }) := by
  rw [Daemon.readLog, exec_bind, exec_attempt, asked_of_none (hquiet _ _), hquiet]
  rfl

/-- An offer takes the time of the consumer, and says nothing of how it went. -/
theorem exec_offerOutput_of_quiet (c : Consumer) (s : WatchState) :
    exec (d.offerOutput c) s = (.ok (),
      { s with
        calls := s.calls ++ [.logs true false] ++ [.logs false true]
        now := s.now + c.duration s.offers
        offers := s.offers + 1 }) := by
  rw [Daemon.offerOutput, quiet, catching, exec_tryCatch, exec_bind, Daemon.collectLogs, exec_bind,
    exec_readLog_of_quiet hquiet]
  dsimp only
  rw [exec_bind, exec_readLog_of_quiet hquiet]
  dsimp only
  rw [exec_pure]
  dsimp only
  rw [Consumer.onOutput, exec_get_bind, exec_modify_bind]
  dsimp only
  cases c.raises s.offers with
  | some message => rfl
  | none => rfl

/-- **All that one wait can do**, when no call fails. -/
theorem waitOnce_of_quiet (t : ℚ) (s : WatchState) :
    (∃ e code, d.ending s.sigterm s.sigkill = some (e, code) ∧ e ≤ s.now + t ∧
      exec (d.waitOnce t) s
        = (.ok (some code), { s with calls := s.calls ++ [.wait t], now := max s.now e })) ∨
    (¬d.EndsBy (s.now + t) s ∧ exec (d.waitOnce t) s
      = (.ok none, { s with calls := s.calls ++ [.wait t], now := s.now + t })) := by
  obtain ⟨-, hseen⟩ | ⟨-, hnone⟩ | ⟨e, hfail, -⟩ := waitOnce_cases d t s
  · exact Or.inl hseen
  · exact Or.inr hnone
  · rw [hquiet] at hfail
    cases hfail

end Undisturbed

/-- The moment the `k`-th offer from now begins, if every slice is waited through. -/
def offerBegins (tickS : ℚ) (c : Consumer) (now : ℚ) (offers : ℕ) : ℕ → ℚ
  | 0 => now + tickS
  | k + 1 => offerBegins tickS c now offers k + c.duration (offers + k) + tickS

/-- What comes after an offer begins as if the wait began there. -/
theorem offerBegins_succ (tickS : ℚ) (c : Consumer) (now : ℚ) (offers k : ℕ) :
    offerBegins tickS c (now + tickS + c.duration offers) (offers + 1) k
      = offerBegins tickS c now offers (k + 1) := by
  induction k with
  | zero => rfl
  | succ k ih =>
    rw [offerBegins, ih, Nat.add_assoc, Nat.add_comm 1 k]
    rfl

theorem le_offerBegins {tickS : ℚ} (htick : 0 ≤ tickS) (c : Consumer) (now : ℚ) (offers k : ℕ) :
    now + tickS ≤ offerBegins tickS c now offers k := by
  induction k with
  | zero => exact le_rfl
  | succ k ih =>
    rw [offerBegins]
    have hduration := c.duration_nonneg (offers + k)
    linarith

/-- The container ends by the deadline, and no offer that it ends in outlasts the deadline. -/
def SeenInSlices (h : ContainerHandle) (c : Consumer) (deadline : ℚ) (s : WatchState) (code : ℤ) :
    Prop :=
  ∃ e, h.daemon.ending s.sigterm s.sigkill = some (e, code) ∧ e ≤ deadline ∧
    ∀ k, offerBegins h.tickS c s.now s.offers k < e →
      offerBegins h.tickS c s.now s.offers k + c.duration (s.offers + k) < deadline

section Seen

variable {h : ContainerHandle} {c : Consumer} {deadline : ℚ}

/-- Past the first offer, the rest is seen as if the wait began there. -/
theorem seenInSlices_iff_after_offer {s u : WatchState} {code : ℤ}
    (hterm : u.sigterm = s.sigterm) (hkill : u.sigkill = s.sigkill)
    (hoffers : u.offers = s.offers + 1) (hnow : u.now = s.now + h.tickS + c.duration s.offers)
    (hearly : u.now < deadline) :
    SeenInSlices h c deadline u code ↔ SeenInSlices h c deadline s code := by
  rw [SeenInSlices, SeenInSlices, hterm, hkill]
  refine exists_congr fun e => and_congr_right fun _ => and_congr_right fun _ => ?_
  rw [hoffers, hnow]
  constructor
  · intro hall k hk
    cases k with
    | zero =>
      rw [hnow] at hearly
      exact hearly
    | succ k =>
      have hlater := hall k
      rw [offerBegins_succ, Nat.add_right_comm, Nat.add_assoc] at hlater
      exact hlater hk
  · intro hall k hk
    rw [offerBegins_succ] at hk ⊢
    rw [Nat.add_right_comm, Nat.add_assoc]
    exact hall (k + 1) hk

/-- **A wait in slices sees an end by the deadline**, unless an offer it falls in outlasts it. -/
theorem waitSliced_of_quiet (hquiet : ∀ n call, h.daemon.failure n call = none) (n fuel : ℕ)
    (s : WatchState) (hearly : s.now < deadline) (hn : deadline - s.now ≤ n * h.tickS)
    (hfuel : n < fuel) :
    ∃ seen t, exec (h.waitSliced c deadline fuel) s = (.ok seen, t) ∧
      ∀ code, seen = some code ↔ SeenInSlices h c deadline s code := by
  induction n generalizing fuel s with
  | zero =>
    rw [Nat.cast_zero, zero_mul] at hn
    exact absurd hearly (by linarith)
  | succ n ih =>
    obtain ⟨fuel, rfl⟩ : ∃ m, fuel = m + 1 := ⟨fuel - 1, by omega⟩
    have hopen : ¬deadline - s.now ≤ 0 := by linarith
    rw [waitSliced_succ, exec_get_bind, if_neg hopen, exec_bind]
    obtain ⟨e, code, hend, hle, hexec⟩ | ⟨hnot, hexec⟩ :=
      waitOnce_of_quiet hquiet (min (deadline - s.now) h.tickS) s
    · rw [hexec]
      refine ⟨some code, _, rfl, fun code' => ?_⟩
      have hdeadline : s.now + min (deadline - s.now) h.tickS ≤ deadline := by
        have := min_le_left (deadline - s.now) h.tickS
        linarith
      have hslice : e ≤ s.now + h.tickS := by
        have := min_le_right (deadline - s.now) h.tickS
        linarith
      constructor
      · intro hcode
        obtain rfl := Option.some.inj hcode
        refine ⟨e, hend, hle.trans hdeadline, fun k hk => ?_⟩
        -- the end falls in the first slice, ahead of every offer
        exact absurd hk (not_lt_of_ge (hslice.trans (le_offerBegins h.tickS_pos.le c _ _ k)))
      · rintro ⟨e', hend', -, -⟩
        rw [hend] at hend'
        rw [(Prod.mk.inj (Option.some.inj hend')).2]
    · rw [hexec]
      dsimp only
      rw [exec_bind, exec_offerOutput_of_quiet hquiet]
      dsimp only
      generalize hu : ({ s with
        calls := s.calls ++ [.wait (min (deadline - s.now) h.tickS)] ++ [.logs true false]
          ++ [.logs false true]
        now := s.now + min (deadline - s.now) h.tickS + c.duration s.offers
        offers := s.offers + 1 } : WatchState) = u
      have hnow : u.now = s.now + min (deadline - s.now) h.tickS + c.duration s.offers := by
        rw [← hu]
      have hduration := c.duration_nonneg s.offers
      by_cases hover : deadline ≤ u.now
      · refine ⟨none, u, ?_, fun code => iff_of_false (fun h => by cases h) ?_⟩
        · obtain ⟨fuel, rfl⟩ : ∃ m, fuel = m + 1 := ⟨fuel - 1, by omega⟩
          rw [waitSliced_succ, exec_get_bind, if_pos (by linarith), exec_pure]
        · rintro ⟨e, hend, hle, hall⟩
          -- the end is past the slice, and so in an offer that outlasts the deadline
          have hpast : s.now + min (deadline - s.now) h.tickS < e :=
            lt_of_not_ge fun hseen => hnot ⟨e, code, hend, hseen⟩
          obtain hlast | htick := min_choice (deadline - s.now) h.tickS
          · rw [hlast] at hpast
            linarith
          · rw [htick] at hpast hnow
            have hearly' := hall 0 hpast
            rw [Nat.add_zero, offerBegins, ← hnow] at hearly'
            exact absurd hearly' (not_lt_of_ge hover)
      · have hearly' : u.now < deadline := lt_of_not_ge hover
        have htick : min (deadline - s.now) h.tickS = h.tickS := by
          obtain hlast | htick := min_choice (deadline - s.now) h.tickS
          · rw [hlast] at hnow
            linarith
          · exact htick
        rw [htick] at hnow
        obtain ⟨seen, t, hrest, hseen⟩ := ih fuel u hearly'
          (by rw [Nat.cast_succ, add_mul, one_mul] at hn; linarith) (by omega)
        refine ⟨seen, t, hrest, fun code => (hseen code).trans ?_⟩
        refine seenInSlices_iff_after_offer ?_ ?_ ?_ hnow hearly'
        · rw [← hu]
        · rw [← hu]
        · rw [← hu]

end Seen

/-! ## The verdict -/

/-- A quiet call comes back. -/
theorem exec_quiet {x : Watch Unit} {s : WatchState} (hx : Finishes x s) :
    ∃ t, exec (quiet x) s = (.ok (), t) := by
  rw [quiet, catching, exec_tryCatch]
  rcases hxs : exec x s with ⟨(e | -) | -, t⟩
  · exact ⟨t, rfl⟩
  · exact absurd (congrArg Prod.fst hxs) hx
  · exact ⟨t, rfl⟩

section Signals

variable (d : Daemon) (s : WatchState)

theorem finishes_request (call : DaemonCall) : Finishes (d.request call) s := by
  refine finishes_bind (finishes_attempt d call) fun failure t _ => ?_
  cases failure with
  | some e => exact fun h => by cases h
  | none => exact finishes_pure _

theorem exec_terminate : ∃ t, exec d.terminate s = (.ok (), t) :=
  exec_quiet (finishes_bind (finishes_request d s _) fun _ _ _ h => by cases h)

theorem exec_kill : ∃ t, exec d.kill s = (.ok (), t) :=
  exec_quiet (finishes_bind (finishes_request d s _) fun _ _ _ h => by cases h)

end Signals

/-- As many turns as any wait of the watchdog takes. -/
def ContainerHandle.turns (h : ContainerHandle) (timeoutS graceS : ℚ) : ℕ :=
  ⌈max timeoutS (max graceS 5) / h.step⌉₊ + 1

section Turns

variable (h : ContainerHandle) {timeoutS graceS t : ℚ} {fuel : ℕ}
  (hfuel : h.turns timeoutS graceS ≤ fuel)

include hfuel

/-- There are turns enough for the timeout, the grace and the last wait. -/
theorem exists_turns (ht : t ≤ max timeoutS (max graceS 5)) : ∃ n : ℕ, t ≤ n * h.step ∧ n < fuel := by
  refine ⟨_, ?_, hfuel⟩
  have hceil := Nat.le_ceil (max timeoutS (max graceS 5) / h.step)
  rw [div_le_iff₀ h.step_pos] at hceil
  exact ht.trans hceil

omit hfuel in
theorem killWait_le : (if min graceS 5 = 0 then (5 : ℚ) else min graceS 5) ≤ max timeoutS (max graceS 5) := by
  refine le_max_of_le_right (le_max_of_le_right ?_)
  split
  · exact le_rfl
  · exact min_le_right _ _

/-- **No wait of the watchdog is cut short.** -/
theorem finishes_wait (ht : t ≤ max timeoutS (max graceS 5)) (s : WatchState) :
    Finishes (h.wait fuel t) s := by
  rw [ContainerHandle.wait]
  cases h.consumer with
  | none => exact finishes_waitOnce h.daemon t
  | some c =>
    obtain ⟨n, hn, hlt⟩ := exists_turns h hfuel ht
    rw [Finishes, exec_get_bind]
    exact finishes_waitSliced h c _ n fuel s (by linarith) hlt

variable (hquiet : ∀ n call, h.daemon.failure n call = none)

include hquiet

/-- A wait of an undisturbed handle comes back. -/
theorem exec_wait_of_quiet (ht : t ≤ max timeoutS (max graceS 5)) (s : WatchState) :
    ∃ seen u, exec (h.wait fuel t) s = (.ok seen, u) := by
  rw [ContainerHandle.wait]
  cases h.consumer with
  | none =>
    obtain ⟨e, code, -, -, hexec⟩ | ⟨-, hexec⟩ := waitOnce_of_quiet hquiet t s
    · exact ⟨_, _, hexec⟩
    · exact ⟨_, _, hexec⟩
  | some c =>
    obtain ⟨n, hn, hlt⟩ := exists_turns h hfuel ht
    dsimp only
    rw [exec_get_bind]
    by_cases hearly : s.now < s.now + t
    · have htick : (n : ℚ) * h.step ≤ n * h.tickS :=
        mul_le_mul_of_nonneg_left (min_le_left _ _) n.cast_nonneg
      obtain ⟨seen, u, hexec, -⟩ :=
        waitSliced_of_quiet (c := c) hquiet n fuel s hearly (by linarith) hlt
      exact ⟨seen, u, hexec⟩
    · obtain ⟨fuel, rfl⟩ : ∃ m, fuel = m + 1 := ⟨fuel - 1, by omega⟩
      refine ⟨none, s, ?_⟩
      rw [waitSliced_succ, exec_get_bind, if_pos (by linarith), exec_pure]

/-- Past its deadline a container is timed out, whatever the signals do. -/
theorem escalate_of_quiet (started : ℚ) (s : WatchState) :
    ∃ o t, exec (h.escalate fuel started graceS) s = (.ok o, t) ∧ o.timedOut = true := by
  have hkill : ∀ s, ∃ o t, exec (h.killNow fuel started graceS) s = (.ok o, t) ∧
      o.timedOut = true := by
    intro s
    obtain ⟨s₁, hexec₁⟩ := exec_kill h.daemon s
    obtain ⟨seen, s₂, hexec₂⟩ := exec_wait_of_quiet h hfuel hquiet killWait_le s₁
    refine ⟨⟨if seen.isSome then .killed else .escaped, seen, s₂.now - started⟩, s₂, ?_, ?_⟩
    · rw [ContainerHandle.killNow, exec_bind, hexec₁]
      dsimp only
      rw [exec_bind, hexec₂]
      rfl
    · cases seen with
      | some code => rfl
      | none => rfl
  obtain ⟨s₁, hexec₁⟩ := exec_terminate h.daemon s
  rw [ContainerHandle.escalate, exec_bind, hexec₁]
  dsimp only
  by_cases hgrace : 0 < graceS
  · rw [if_pos hgrace, exec_bind]
    obtain ⟨seen, s₂, hexec₂⟩ := exec_wait_of_quiet h hfuel hquiet
      ((le_max_left graceS 5).trans (le_max_right timeoutS _)) s₁
    rw [hexec₂]
    cases seen with
    | some code => exact ⟨_, _, rfl, rfl⟩
    | none => exact hkill s₂
  · rw [if_neg hgrace]
    exact hkill s₁

end Turns

/-- The verdict is `EXITED`, with this code. -/
def SaysExited (h : ContainerHandle) (fuel : ℕ) (timeoutS graceS : ℚ) (s : WatchState) (code : ℤ) :
    Prop :=
  ∃ o t, exec (h.enforceDeadline fuel timeoutS graceS) s = (.ok o, t) ∧ o.verdict = .exited ∧
    o.exitCode = some code

/-- The verdict is another one. -/
def SaysTimedOut (h : ContainerHandle) (fuel : ℕ) (timeoutS graceS : ℚ) (s : WatchState) : Prop :=
  ∃ o t, exec (h.enforceDeadline fuel timeoutS graceS) s = (.ok o, t) ∧ o.timedOut = true

section Verdict

variable {h : ContainerHandle} {timeoutS graceS : ℚ} {fuel : ℕ} {s t : WatchState}
  (htimeout : 0 < timeoutS) (hgrace : 0 ≤ graceS)

include htimeout hgrace

/-- The watchdog waits first. -/
theorem exec_enforceDeadline (seen : Option ℤ) : exec (h.wait fuel timeoutS) s = (.ok seen, t) →
    exec (h.enforceDeadline fuel timeoutS graceS) s = match seen with
      | some code => (.ok ⟨.exited, some code, t.now - s.now⟩, t)
      | none => exec (h.escalate fuel s.now graceS) t := by
  intro hwait
  rw [ContainerHandle.enforceDeadline, if_neg (not_le.mpr htimeout), if_neg (not_lt.mpr hgrace)]
  dsimp only
  rw [exec_get_bind, exec_bind, hwait]
  cases seen with
  | some code => rfl
  | none => rfl

/-- **What the first wait sees is the verdict.** -/
theorem verdict_of_quiet (hfuel : h.turns timeoutS graceS ≤ fuel)
    (hquiet : ∀ n call, h.daemon.failure n call = none) {seen : Option ℤ}
    (hwait : exec (h.wait fuel timeoutS) s = (.ok seen, t)) :
    (∀ code, SaysExited h fuel timeoutS graceS s code ↔ seen = some code) ∧
      (SaysTimedOut h fuel timeoutS graceS s ↔ seen = none) := by
  have hexec := exec_enforceDeadline htimeout hgrace seen hwait
  cases seen with
  | some code =>
    refine ⟨fun code' => ⟨?_, ?_⟩, iff_of_false ?_ (fun h => by cases h)⟩
    · rintro ⟨o, u, hexec', -, hcode⟩
      obtain ⟨ho, -⟩ := Prod.mk.inj (hexec.symm.trans hexec')
      rw [← Except.ok.inj ho] at hcode
      exact hcode
    · intro hcode
      exact ⟨_, _, hexec, rfl, hcode⟩
    · rintro ⟨o, u, hexec', hlate⟩
      obtain ⟨ho, -⟩ := Prod.mk.inj (hexec.symm.trans hexec')
      rw [← Except.ok.inj ho] at hlate
      cases hlate
  | none =>
    obtain ⟨o, u, hescalate, hlate⟩ := escalate_of_quiet h hfuel hquiet s.now t
    have hout := hexec.trans hescalate
    refine ⟨fun code => iff_of_false ?_ (fun h => by cases h), iff_of_true ⟨o, u, hout, hlate⟩ rfl⟩
    rintro ⟨o', u', hexec', hexited, -⟩
    obtain ⟨ho, -⟩ := Prod.mk.inj (hout.symm.trans hexec')
    rw [← Except.ok.inj ho] at hexited
    rw [WatchdogOutcome.timedOut, hexited] at hlate
    cases hlate

end Verdict

/-! ## With and without a consumer -/

/-- A container whose daemon answers every call. -/
def Daemon.undisturbed (ending : Option ℚ → Option ℚ → Option (ℚ × ℤ)) : Daemon where
  ending := ending

section Consumer

variable (ending : Option ℚ → Option ℚ → Option (ℚ × ℤ)) (c : Consumer) {tickS : ℚ}
  (htick : 0 < tickS) (now timeoutS graceS : ℚ)

/-- The handle that nobody watches… -/
def unwatched : ContainerHandle := ⟨.undisturbed ending, none, tickS, htick⟩

/-- …and the one that offers its output. -/
def watched : ContainerHandle := ⟨.undisturbed ending, some c, tickS, htick⟩

/-- **Watching the output never changes the result.** -/
structure WatchingChangesNothing (fuel : ℕ) : Prop where
  exited : ∀ e code, ending none none = some (e, code) → e ≤ now + timeoutS →
    SaysExited (watched ending c htick) fuel timeoutS graceS { now := now } code ∧
      SaysExited (unwatched ending htick) fuel timeoutS graceS { now := now } code
  timedOut : (∀ e code, ending none none = some (e, code) → now + timeoutS < e) →
    SaysTimedOut (watched ending c htick) fuel timeoutS graceS { now := now } ∧
      SaysTimedOut (unwatched ending htick) fuel timeoutS graceS { now := now }

/-- The container ends within its deadline, during an offer that does not return before it. -/
def EndsDuringOverlongOffer (tickS : ℚ) : Prop :=
  ∃ k e code, ending none none = some (e, code) ∧ e ≤ now + timeoutS ∧
    offerBegins tickS c now 0 k < e ∧ now + timeoutS ≤ offerBegins tickS c now 0 k + c.duration k

variable {ending c now timeoutS graceS}

/-- What a wait in one piece sees. -/
theorem exec_wait_unwatched (fuel : ℕ) :
    ∃ seen t, exec ((unwatched ending htick).wait fuel timeoutS) { now := now } = (.ok seen, t) ∧
      ∀ code, seen = some code ↔ ∃ e, ending none none = some (e, code) ∧ e ≤ now + timeoutS := by
  obtain ⟨e, code, hend, hle, hexec⟩ | ⟨hnot, hexec⟩ :=
    @waitOnce_of_quiet (.undisturbed ending) (fun _ _ => rfl) timeoutS { now := now }
  · refine ⟨some code, _, hexec, fun code' => ⟨?_, ?_⟩⟩
    · rintro ⟨⟩
      exact ⟨e, hend, hle⟩
    · rintro ⟨e', hend', -⟩
      rw [(Prod.mk.inj (Option.some.inj (hend.symm.trans hend'))).2]
  · refine ⟨none, _, hexec, fun code => iff_of_false (fun h => by cases h) ?_⟩
    rintro ⟨e, hend, hle⟩
    exact hnot ⟨e, code, hend, hle⟩

/-- A handle with a consumer waits in slices. -/
theorem exec_wait_eq (fuel : ℕ) (s : WatchState) :
    exec ((watched ending c htick).wait fuel timeoutS) s
      = exec ((watched ending c htick).waitSliced c (s.now + timeoutS) fuel) s := by
  rw [ContainerHandle.wait, watched]
  exact exec_get_bind _ s

/-- What a wait in slices sees. -/
theorem exec_wait_watched (htimeout : 0 < timeoutS) {fuel : ℕ}
    (hfuel : (watched ending c htick).turns timeoutS graceS ≤ fuel) :
    ∃ seen t, exec ((watched ending c htick).wait fuel timeoutS) { now := now } = (.ok seen, t) ∧
      ∀ code, seen = some code ↔
        SeenInSlices (watched ending c htick) c (now + timeoutS) { now := now } code := by
  obtain ⟨n, hn, hlt⟩ := exists_turns (watched ending c htick) hfuel
    (le_max_left timeoutS (max graceS 5))
  have hstep : (n : ℚ) * (watched ending c htick).step ≤ n * tickS :=
    mul_le_mul_of_nonneg_left (min_le_left _ _) n.cast_nonneg
  have hspan : now + timeoutS - now ≤ n * tickS := by linarith
  rw [exec_wait_eq]
  exact waitSliced_of_quiet (fun _ _ => rfl) n fuel { now := now }
    (lt_add_of_pos_right now htimeout) hspan hlt

/-- Watching changes nothing as far as both waits see the same. -/
theorem watchingChangesNothing_iff_seen (htimeout : 0 < timeoutS) (hgrace : 0 ≤ graceS) {fuel : ℕ}
    (hfuel : (watched ending c htick).turns timeoutS graceS ≤ fuel) :
    WatchingChangesNothing ending c htick now timeoutS graceS fuel ↔
      ∀ e code, ending none none = some (e, code) → e ≤ now + timeoutS →
        SeenInSlices (watched ending c htick) c (now + timeoutS) { now := now } code := by
  obtain ⟨seen, t, hwatched, hseen⟩ := @exec_wait_watched ending c tickS htick now timeoutS graceS
    htimeout fuel hfuel
  obtain ⟨seen', t', hunwatched, hseen'⟩ := @exec_wait_unwatched ending tickS htick now timeoutS
    fuel
  have hverdict := verdict_of_quiet htimeout hgrace hfuel (fun _ _ => rfl) hwatched
  have hverdict' := @verdict_of_quiet (unwatched ending htick) timeoutS graceS fuel { now := now }
    t' htimeout hgrace hfuel (fun _ _ => rfl) seen' hunwatched
  constructor
  · intro h e code hend hle
    exact (hseen code).mp ((hverdict.1 code).mp (h.exited e code hend hle).1)
  · intro h
    refine ⟨fun e code hend hle => ⟨?_, ?_⟩, fun hlate => ⟨?_, ?_⟩⟩
    · exact (hverdict.1 code).mpr ((hseen code).mpr (h e code hend hle))
    · exact (hverdict'.1 code).mpr ((hseen' code).mpr ⟨e, hend, hle⟩)
    · refine hverdict.2.mpr (Option.eq_none_iff_forall_ne_some.mpr fun code hcode => ?_)
      obtain ⟨e, hend, hle, -⟩ := (hseen code).mp hcode
      exact absurd hle (not_le_of_gt (hlate e code hend))
    · refine hverdict'.2.mpr (Option.eq_none_iff_forall_ne_some.mpr fun code hcode => ?_)
      obtain ⟨e, hend, hle⟩ := (hseen' code).mp hcode
      exact absurd hle (not_le_of_gt (hlate e code hend))

/-- **Watching changes nothing exactly when no offer that the container ends in outlasts the
deadline.** -/
theorem watchingChangesNothing_iff (htimeout : 0 < timeoutS) (hgrace : 0 ≤ graceS) {fuel : ℕ}
    (hfuel : (watched ending c htick).turns timeoutS graceS ≤ fuel) :
    WatchingChangesNothing ending c htick now timeoutS graceS fuel ↔
      ¬EndsDuringOverlongOffer ending c now timeoutS tickS := by
  rw [watchingChangesNothing_iff_seen htick htimeout hgrace hfuel]
  constructor
  · rintro hseen ⟨k, e, code, hend, hle, hbegins, hlong⟩
    obtain ⟨e', hend', -, hall⟩ := hseen e code hend hle
    obtain ⟨rfl, -⟩ := Prod.mk.inj (Option.some.inj (hend.symm.trans hend'))
    have hshort := hall k hbegins
    rw [Nat.zero_add] at hshort
    exact absurd hshort (not_lt_of_ge hlong)
  · intro hnone e code hend hle
    refine ⟨e, hend, hle, fun k hbegins => lt_of_not_ge fun hlong => ?_⟩
    rw [Nat.zero_add] at hlong
    exact hnone ⟨k, e, code, hend, hle, hbegins, hlong⟩

end Consumer

/-- A container that exits with 0 after five seconds, if it is left alone. -/
def fiveSeconds : Option ℚ → Option ℚ → Option (ℚ × ℤ) := fun _ _ => some (5, 0)

/-- A consumer whose calls all take this long. -/
def Consumer.steady (duration : ℚ) (h : 0 ≤ duration) : Consumer where
  duration _ := duration
  duration_nonneg _ := h

/-- A consumer that takes a second a call changes nothing. -/
theorem watchingChangesNothing_steady :
    WatchingChangesNothing fiveSeconds (.steady 1 (by decide)) (by decide : (0 : ℚ) < 2) 0 10 10
      ((watched fiveSeconds (.steady 1 (by decide)) (by decide : (0 : ℚ) < 2)).turns 10 10) := by
  refine (watchingChangesNothing_iff _ (by decide) (by decide) le_rfl).mpr ?_
  rintro ⟨k, e, code, hend, -, hbegins, hlong⟩
  obtain ⟨rfl, -⟩ := Prod.mk.inj (Option.some.inj hend)
  cases k with
  | zero => exact absurd hlong (by decide +kernel)
  | succ k =>
    have hlater := le_offerBegins (by decide : (0 : ℚ) ≤ 2) (.steady 1 (by decide)) 0 0 k
    rw [offerBegins, Consumer.steady] at hbegins
    rw [Consumer.steady] at hlater
    linarith

/-- **An exit that nobody sees**: the consumer is called after two seconds and takes a minute, the
container exits in the meantime, and the watchdog reports a timeout. -/
theorem not_watchingChangesNothing_overlong :
    ¬WatchingChangesNothing fiveSeconds (.steady 60 (by decide)) (by decide : (0 : ℚ) < 2) 0 10 10
      ((watched fiveSeconds (.steady 60 (by decide)) (by decide : (0 : ℚ) < 2)).turns 10 10) := by
  rw [watchingChangesNothing_iff_seen _ (by decide) (by decide) le_rfl]
  intro hseen
  obtain ⟨e, hend, -, hall⟩ := hseen 5 0 rfl (by decide +kernel)
  obtain ⟨rfl, -⟩ := Prod.mk.inj (Option.some.inj hend)
  exact absurd (hall 0 (by decide +kernel)) (by decide +kernel)

end BareAnalysis
