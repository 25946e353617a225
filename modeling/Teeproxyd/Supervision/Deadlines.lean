import Teeproxyd.Supervision.StartupOrder

/-!
# Deadlines

Three places of the daemon add a number of seconds from the configuration to the
clock.  The addition panics beyond the clock's last second, and the sum of the
two boot timeouts wraps before that.  No number is refused when the
configuration is loaded.
-/

namespace Teeproxyd

open ProcessTable TransitionSystem

variable {cfg : Config} {s t : Daemon} {l : Label} {now : Instant}

/-- The clock can show the time that many seconds from now. -/
def FitsClock (now : Instant) (secs : ℕ) : Prop :=
  now + 1000000000 * secs < instantLimit

instance (now : Instant) (secs : ℕ) : Decidable (FitsClock now secs) :=
  inferInstanceAs (Decidable (_ < _))

theorem plus_fromSecs (now : Instant) (secs : UInt64) :
    now.plus (fromSecs secs) =
      if FitsClock now secs.toNat then some (now + 1000000000 * secs.toNat)
      else none :=
  rfl

/-- A time that the clock can show is not so far away that the seconds wrap. -/
theorem toNat_add_of_fits {a b : UInt64}
    (h : FitsClock now (a.toNat + b.toNat)) :
    (a + b).toNat = a.toNat + b.toNat := by
  have hbound : 1000000000 * (a.toNat + b.toNat) < 2 ^ 63 * 1000000000 :=
    Nat.lt_of_le_of_lt (Nat.le_add_left _ now) h
  rw [UInt64.toNat_add]
  apply Nat.mod_eq_of_lt
  omega

/-- A deadline is where the seconds say it is exactly if the clock can show it. -/
theorem plus_fromSecs_iff {secs : UInt64} :
    now.plus (fromSecs secs) = some (now + 1000000000 * secs.toNat) ↔
      FitsClock now secs.toNat := by
  rw [plus_fromSecs]
  by_cases hfits : FitsClock now secs.toNat
  · simp [hfits]
  · simp [hfits]

theorem plus_fromSecs_add_iff {a b : UInt64} :
    now.plus (fromSecs (a + b)) =
        some (now + 1000000000 * (a.toNat + b.toNat)) ↔
      FitsClock now (a.toNat + b.toNat) := by
  constructor
  · intro h
    rw [plus_fromSecs] at h
    split at h
    next hfits =>
      have hsum := Nat.add_left_cancel (Option.some.inj h)
      have hsum : (a + b).toNat = a.toNat + b.toNat := by omega
      rwa [hsum] at hfits
    next => cases h
  · intro hfits
    have hsum := toNat_add_of_fits hfits
    rw [← hsum] at hfits ⊢
    exact plus_fromSecs_iff.mpr hfits

/-! ## The three places -/

section Calls

variable {sys : Sys} {env : StartupEnv} {m : Manager} {k : Kernel}

theorem gracefulKill_alive {pid : Pid} {graceSecs : UInt64} {env : KillEnv}
    (halive : isAlive k pid = true) :
    gracefulKill k pid graceSecs env =
      match k.now.plus (fromSecs graceSecs) with
      | none => .error (k.kill pid .sigterm)
      | some deadline =>
          .ok (awaitDeadline (k.kill pid .sigterm) pid deadline env) := by
  unfold gracefulKill
  rw [halive]
  rfl

theorem vsockDeadline_iff (hdead : sys.vm.isDead sys.kernel = false)
    (hstart : VmManager.start cfg sys.vm sys.kernel env.vmStart =
      (m, k, .ok ())) :
    (∃ deadline, advanceStartup cfg .vmStarting sys env =
          .ok (.waitingVsock deadline k.now false, sys.set .vm m k) ∧
        deadline = k.now + 1000000000 *
          (cfg.vsockProbeDelaySecs.toNat + cfg.vmBootTimeoutSecs.toNat) ∧
        k.now + fromSecs cfg.vsockProbeDelaySecs ≤ deadline) ↔
      FitsClock k.now
        (cfg.vsockProbeDelaySecs.toNat + cfg.vmBootTimeoutSecs.toNat) := by
  rw [advanceStartup_vmStarting hdead, hstart, ← plus_fromSecs_add_iff]
  dsimp only
  constructor
  · rintro ⟨deadline, hcall, rfl, -⟩
    split at hcall
    next => cases hcall
    next deadline' hplus =>
      obtain ⟨hphase, -⟩ := Prod.mk.inj (Except.ok.inj hcall)
      rw [hplus, (StartupPhase.waitingVsock.inj hphase).1]
  · intro hplus
    rw [hplus]
    refine ⟨_, rfl, rfl, ?_⟩
    apply Nat.add_le_add_left
    apply Nat.mul_le_mul_left
    exact Nat.le_add_right _ _

theorem caDeadline_iff (hdead : sys.vm.isDead sys.kernel = false)
    (hstart : CaManager.start cfg sys.ca sys.kernel env.caStart =
      (m, k, .ok ())) :
    advanceStartup cfg .caStarting sys env =
        .ok (.waitingCaPort
          (k.now + 1000000000 * cfg.caReadyTimeoutSecs.toNat),
          sys.set .ca m k) ↔
      FitsClock k.now cfg.caReadyTimeoutSecs.toNat := by
  rw [advanceStartup_caStarting hdead, hstart, ← plus_fromSecs_iff]
  dsimp only
  constructor
  · intro hcall
    split at hcall
    next => cases hcall
    next deadline hplus =>
      obtain ⟨hphase, -⟩ := Prod.mk.inj (Except.ok.inj hcall)
      rw [hplus, StartupPhase.waitingCaPort.inj hphase]
  · intro hplus
    rw [hplus]

theorem graceDeadline_iff {pid : Pid} {graceSecs : UInt64} {env : KillEnv}
    (halive : isAlive k pid = true) :
    gracefulKill k pid graceSecs env =
        .ok (awaitDeadline (k.kill pid .sigterm) pid
          (k.now + 1000000000 * graceSecs.toNat) env) ↔
      FitsClock k.now graceSecs.toNat := by
  rw [gracefulKill_alive halive]
  by_cases hfits : FitsClock k.now graceSecs.toNat
  · rw [plus_fromSecs_iff.mpr hfits]
    exact iff_of_true rfl hfits
  · refine iff_of_false ?_ hfits
    rw [plus_fromSecs, if_neg hfits]
    intro hcall
    cases hcall

end Calls

/-- For every configuration, each of the three deadlines is where its seconds say
it is exactly if the clock can show it; the vsock deadline is then not before
the end of the boot delay. -/
theorem deadlines_exact_iff (cfg : Config) :
    (∀ sys env vm k, sys.vm.isDead sys.kernel = false →
      VmManager.start cfg sys.vm sys.kernel env.vmStart = (vm, k, .ok ()) →
      ((∃ deadline, advanceStartup cfg .vmStarting sys env =
            .ok (.waitingVsock deadline k.now false, sys.set .vm vm k) ∧
          deadline = k.now + 1000000000 *
            (cfg.vsockProbeDelaySecs.toNat + cfg.vmBootTimeoutSecs.toNat) ∧
          k.now + fromSecs cfg.vsockProbeDelaySecs ≤ deadline) ↔
        FitsClock k.now
          (cfg.vsockProbeDelaySecs.toNat + cfg.vmBootTimeoutSecs.toNat))) ∧
    (∀ sys env ca k, sys.vm.isDead sys.kernel = false →
      CaManager.start cfg sys.ca sys.kernel env.caStart = (ca, k, .ok ()) →
      (advanceStartup cfg .caStarting sys env =
          .ok (.waitingCaPort
            (k.now + 1000000000 * cfg.caReadyTimeoutSecs.toNat),
            sys.set .ca ca k) ↔
        FitsClock k.now cfg.caReadyTimeoutSecs.toNat)) ∧
    (∀ k pid env, isAlive k pid = true →
      (gracefulKill k pid cfg.shutdownGraceSecs env =
          .ok (awaitDeadline (k.kill pid .sigterm) pid
            (k.now + 1000000000 * cfg.shutdownGraceSecs.toNat) env) ↔
        FitsClock k.now cfg.shutdownGraceSecs.toNat)) := by
  refine ⟨?_, ?_, ?_⟩
  · intro sys env vm k hdead hstart
    exact vsockDeadline_iff hdead hstart
  · intro sys env ca k hdead hstart
    exact caDeadline_iff hdead hstart
  · intro k pid env halive
    exact graceDeadline_iff halive

/-- What the first start of the VM leaves behind. -/
def firstStart : VmManager × Kernel × Except String Unit :=
  VmManager.start Config.default Manager.new (init Config.default 0).kernel
    (.works 100)

/-- Under the default configuration the vsock deadline comes 75 s after the
start of the VM, and the started VM is given 3 s to end. -/
theorem deadlines_exact_default :
    (∃ deadline, advanceStartup Config.default .vmStarting
          (init Config.default 0).sys (.works 100 200) =
        .ok (.waitingVsock deadline 0 false,
          (init Config.default 0).sys.set .vm firstStart.1 firstStart.2.1) ∧
        deadline = 1000000000 * 75 ∧ fromSecs 15 ≤ deadline) ∧
      gracefulKill firstStart.2.1 100 3 .obeys =
        .ok (awaitDeadline (firstStart.2.1.kill 100 .sigterm) 100
          (1000000000 * 3) .obeys) := by
  obtain ⟨hvsock, -, hgrace⟩ := deadlines_exact_iff Config.default
  constructor
  · obtain ⟨deadline, hcall, hdeadline, hle⟩ :=
      (hvsock (init Config.default 0).sys (.works 100 200) firstStart.1
        firstStart.2.1 (by decide) rfl).mpr (by decide)
    exact ⟨deadline, hcall, hdeadline.trans (by decide), hle⟩
  · exact (hgrace firstStart.2.1 100 .obeys (by decide)).mpr (by decide)

/-- The first iteration up to the health check. -/
def firstAdvance : List Label :=
  [.poll .incoming, .accept false, .startup (.works 100 200)]

/-- A boot delay that no machine sees the end of. -/
def endlessDelay : Config :=
  { Config.default with vsockProbeDelaySecs := 18446744073709551615 }

/-- A boot timeout that takes the deadline beyond the end of the clock. -/
def endlessBoot : Config :=
  { Config.default with vmBootTimeoutSecs := 9223372036854775808 }

/-- With the endless delay, the deadline comes 59 s after the start; with the
endless timeout the program panics, and VM 100 is left behind. -/
theorem deadlines_break :
    (∃ t, exec (step endlessDelay) (init endlessDelay 0) firstAdvance = some t ∧
      t.startup = .waitingVsock (fromSecs 59) 0 false ∧
      fromSecs 59 < fromSecs endlessDelay.vsockProbeDelaySecs) ∧
    (∃ t, exec (step endlessBoot) (init endlessBoot 0) firstAdvance = some t ∧
      t.pc = .panicked ∧ t.kernel.table.isAlive 100 = true) := by
  constructor
  · have hwrap : (exec (step endlessDelay) (init endlessDelay 0)
        firstAdvance).any (fun t =>
          t.startup = .waitingVsock (fromSecs 59) 0 false) = true := by decide
    obtain ⟨t, hrun, hphase⟩ := (Option.any_eq_true _ _).mp hwrap
    exact ⟨t, hrun, of_decide_eq_true hphase, by decide⟩
  · have hpanic : (exec (step endlessBoot) (init endlessBoot 0)
        firstAdvance).any (fun t =>
          t.pc = .panicked ∧ t.kernel.table.isAlive 100 = true) = true := by
      decide
    obtain ⟨t, hrun, hgone⟩ := (Option.any_eq_true _ _).mp hpanic
    exact ⟨t, hrun, of_decide_eq_true hgone⟩

/-! ## Panics -/

/-- The longest time that the daemon adds to the clock. -/
def longestWait (cfg : Config) : ℕ :=
  max (fromSecs (cfg.vsockProbeDelaySecs + cfg.vmBootTimeoutSecs))
    (max (fromSecs cfg.caReadyTimeoutSecs) (fromSecs cfg.shutdownGraceSecs))

theorem late_of_plus {d : ℕ} (hd : d ≤ longestWait cfg)
    (h : now.plus d = none) : instantLimit ≤ now + longestWait cfg := by
  unfold Instant.plus at h
  split at h
  next => cases h
  next hover =>
    have hlate : instantLimit ≤ now + d := Nat.le_of_not_lt hover
    exact Nat.le_trans hlate (Nat.add_le_add_left hd now)

theorem patience_le (cfg : Config) (phase : StartupPhase) :
    phase.patience cfg ≤ longestWait cfg := by
  cases phase with
  | vmStarting => exact Nat.le_max_left _ _
  | caStarting =>
      exact Nat.le_trans (Nat.le_max_left _ _) (Nat.le_max_right _ _)
  | _ => exact Nat.zero_le _

theorem gracefulKill_error {k k' : Kernel} {pid : Pid} {graceSecs : UInt64}
    {env : KillEnv} (h : gracefulKill k pid graceSecs env = .error k') :
    k'.now.plus (fromSecs graceSecs) = none := by
  cases halive : isAlive k pid with
  | false => simp [gracefulKill, halive] at h
  | true =>
      rw [gracefulKill_alive halive] at h
      cases hplus : k.now.plus (fromSecs graceSecs) with
      | none =>
          rw [hplus] at h
          cases h
          exact hplus
      | some deadline =>
          rw [hplus] at h
          cases h

theorem stop_error {r : Role} {m : Manager} {k k' : Kernel} {env : KillEnv}
    (h : r.stop cfg m k env = .error k') :
    instantLimit ≤ k'.now + longestWait cfg := by
  have hlong : fromSecs cfg.shutdownGraceSecs ≤ longestWait cfg :=
    Nat.le_trans (Nat.le_max_right _ _) (Nat.le_max_right _ _)
  rcases stop_cases cfg r m k env with
    ⟨-, hstop⟩ | ⟨pid, -, ⟨k₁, hkill, hstop⟩ | ⟨k₁, gone, k₂, -, hstop⟩⟩
  · cases hstop.symm.trans h
  · cases hstop.symm.trans h
    exact late_of_plus hlong (gracefulKill_error hkill)
  · cases hstop.symm.trans h

theorem dispatch_panics {phase : StartupPhase} {startedAt : Instant}
    {req : Value} {sys : Sys} {env : RequestEnv} {k : Kernel}
    (h : dispatch cfg phase startedAt req sys env = .error k) :
    instantLimit ≤ k.now + longestWait cfg := by
  have hcall : ∀ r, env.call (requestCmd req) r = none := by
    intro r
    cases hcall : env.call (requestCmd req) r with
    | none => rfl
    | some env' =>
        obtain ⟨reply, hok⟩ := dispatch_call cfg phase startedAt sys hcall
        cases hok.symm.trans h
  have hserves := dispatch_serves cfg phase startedAt sys hcall
  rw [h] at hserves
  generalize requestCmd req = cmd at hserves
  cases hserves with
  | stopPanics hstops hstop => exact stop_error hstop
  | secondPanics hca hvm => exact stop_error (r := .vm) hvm

/-- A step that panics finds the clock too late for one of the deadlines. -/
theorem step_panics (hstep : step cfg s l = some t) (hpc : t.pc = .panicked)
    (hs : s.pc ≠ .panicked) : instantLimit ≤ t.kernel.now + longestWait cfg := by
  by_cases hquiet : l.isQuiet = true
  · have hsame := step_goesOn (Or.inl hquiet) hstep (Or.inr hpc)
    exact absurd (hsame.symm.trans hpc) hs
  cases l with
  | exit pid =>
      have hsame := step_goesOn (Or.inr ⟨pid, rfl⟩) hstep (Or.inr hpc)
      exact absurd (hsame.symm.trans hpc) hs
  | waitpid raw env =>
      obtain ⟨term, client, hat, -, rfl⟩ := step_waitpid hstep
      dsimp only at hpc
      split at hpc
      next => exact absurd hpc hs
      next => exact absurd hpc (afterSignals_cases _ _).2
  | request req env written =>
      rcases step_request hstep with ⟨-, ⟨k, herror, rfl⟩ | ⟨sys, reply, -, rfl⟩⟩
      · exact dispatch_panics herror
      · dsimp only at hpc
        split at hpc <;> cases hpc
  | startup env =>
      rcases step_startup hstep with
        ⟨-, ⟨k, r, m, env', -, -, hover, rfl⟩ | ⟨phase, sys, -, rfl⟩⟩
      · exact late_of_plus (patience_le cfg s.startup) hover
      · cases hpc
  | health env =>
      rcases step_health hstep with
        ⟨-, ⟨-, rfl⟩ | ⟨-, k, hcheck, rfl⟩ | ⟨-, health, sys, -, rfl⟩⟩
      · cases hpc
      · cases hcheck with
        | stopPanics hup hverdict hstop => exact stop_error (r := .ca) hstop
      · cases hpc
  | resetCounts =>
      obtain ⟨-, vm, k, ca, k', -, -, rfl⟩ := step_resetCounts hstep
      cases hpc
  | shutdown caKill vmKill =>
      rcases step_shutdown hstep with ⟨-, ⟨k, herror, rfl⟩ |
        ⟨ca, k, -, ⟨k', herror, rfl⟩ | ⟨vm, k', -, rfl⟩⟩⟩
      · exact stop_error (r := .ca) herror
      · exact stop_error (r := .vm) herror
      · cases hpc
  | _ => exact absurd rfl hquiet

/-- In every run, the program panics only when the clock and the longest time
that the configuration asks for reach the end of the clock. -/
theorem reach_panicked {guard : Daemon → Label → Prop}
    (hreach : Reach cfg guard s) (hpc : s.pc = .panicked) :
    instantLimit ≤ s.kernel.now + longestWait cfg := by
  obtain ⟨now, hpath⟩ := hreach
  refine hpath.preserves (I := fun s => s.pc = .panicked →
    instantLimit ≤ s.kernel.now + longestWait cfg) ?_ ?_ hpc
  · rintro u l v - hu hstep hv
    by_cases hgone : u.pc = .panicked
    · have hmono : u.kernel.now ≤ v.kernel.now := (step_continues hstep).now
      have hlate := hu hgone
      exact Nat.le_trans hlate (Nat.add_le_add_right hmono _)
    · exact step_panics hstep hv hgone
  · intro h
    cases h

end Teeproxyd
