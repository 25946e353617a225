import Teeproxyd.Supervision.Stops

/-!
# Recovery after a death

The startup machine asks `is_dead` whether it has to begin again, and `is_dead`
wants an `Idle` or `Error` manager that still records a pid.  The reap path
clears the pid before it leaves a manager in one of these states, so the test
never succeeds: a dead VM does not bring the machine back to `VmStarting`, and
what its next call does depends on the phase alone.
-/

namespace Teeproxyd

open ProcessTable TransitionSystem Supervision

variable {cfg : Config} {s t : Daemon} {l : Label} {r : Role}

/-! ## The death of the VM -/

theorem handleChildDeath_vm (sys : Sys) {pid : Pid} {env : StartEnv}
    (htracked : sys.vm.childPid = some pid) :
    (handleChildDeath cfg pid sys env).vm.AtRest ∧
      (handleChildDeath cfg pid sys env).vm.crashCount =
        sys.vm.crashCount + 1 ∧
      (handleChildDeath cfg pid sys env).vm.state =
        if sys.vm.crashCount + 1 < 5 then .idle else .error := by
  have howns : sys.vm.ownsPid pid = true := by simp [Manager.ownsPid, htracked]
  unfold handleChildDeath
  rw [if_pos howns]
  dsimp only
  by_cases hcount : sys.vm.crashCount + 1 < 5
  · have hfew : ¬ (Manager.markDead sys.vm).crashCount ≥ 5 :=
      UInt32.not_le.mpr hcount
    rw [if_pos hcount, if_neg hfew]
    refine ⟨⟨rfl, ?_, ?_, rfl⟩, rfl, rfl⟩
    · intro h
      cases h
    · intro h
      cases h
  · have hmany : (Manager.markDead sys.vm).crashCount ≥ 5 :=
      UInt32.not_lt.mp hcount
    rw [if_neg hcount, if_pos hmany]
    refine ⟨⟨rfl, ?_, ?_, rfl⟩, rfl, rfl⟩
    · intro h
      cases h
    · intro h
      cases h

theorem step_vmDeath {pid : Pid} (htracked : s.vm.childPid = some pid)
    (hreaps : l.reaps = some pid) (hstep : step cfg s l = some t) :
    t.startup = s.startup ∧ t.vm.AtRest ∧
      t.vm.crashCount = s.vm.crashCount + 1 ∧
      t.vm.state = if s.vm.crashCount + 1 < 5 then .idle else .error := by
  obtain ⟨-, env, rfl⟩ := step_reaps hreaps hstep
  refine ⟨rfl, ?_⟩
  exact handleChildDeath_vm { s.sys with kernel := s.kernel.reap pid } htracked

/-- The phases in which the death of the VM is to bring the machine back. -/
def StartupPhase.isWaiting : StartupPhase → Bool
  | waitingVsock _ _ _ | caStarting | waitingCaPort _ => true
  | _ => false

/-- The call of `advance_startup` that leads from `s` to `t` resets the
machine, by the VM's crash count, and neither probes vsock, nor marks the VM
`Ready`, nor starts the CA. -/
def Resets (s t : Daemon) : Prop :=
  (if s.vm.crashCount < 5 then t.startup = .vmStarting
    else ∃ reason, t.startup = .failed reason) ∧
  ∃ log, t.kernel.log = log ++ s.kernel.log ∧ ∀ te ∈ log,
    (∀ ok, te.2 ≠ .vsockProbe ok) ∧ te.2 ≠ .ready .vm ∧
      ∀ pid command, te.2 ≠ .spawned .ca pid command

/-- The phases in which a call fails on its own: the vsock deadline has passed,
or the CA cannot be started. -/
def FailsAnyway (cfg : Config) (s : Daemon) (env : StartupEnv) : Prop :=
  (∃ deadline bootStart,
    s.startup = .waitingVsock deadline bootStart true ∧
      deadline < s.kernel.now) ∨
  (s.startup = .caStarting ∧ startOutcome cfg .ca env.caStart ≠ .started)

theorem not_resets (hvm : t.startup ≠ .vmStarting)
    (hfailed : ∀ reason, t.startup ≠ .failed reason) : ¬ Resets s t := by
  rintro ⟨hphase, -⟩
  split at hphase
  next => exact hvm hphase
  next =>
    obtain ⟨reason, hreason⟩ := hphase
    exact hfailed reason hreason

theorem resets_iff_of_failed (hfailed : ∃ reason, t.startup = .failed reason)
    (hlog : t.kernel.log = s.kernel.log ∨
      t.kernel.log = (s.kernel.now, .spawnFailed .ca) :: s.kernel.log) :
    Resets s t ↔ 5 ≤ s.vm.crashCount := by
  unfold Resets
  obtain ⟨reason, hfailed⟩ := hfailed
  rw [hfailed]
  by_cases hcount : s.vm.crashCount < 5
  · simp [hcount, UInt32.not_le.mpr hcount]
  · rw [if_neg hcount]
    refine iff_of_true ⟨⟨reason, rfl⟩, ?_⟩ (UInt32.not_lt.mp hcount)
    rcases hlog with hlog | hlog
    · exact ⟨[], hlog, by simp⟩
    · exact ⟨[_], hlog, by simp⟩

theorem step_resets_iff {env : StartupEnv}
    (hwf : ∀ r, (s.sys.mgr r).WellFormed)
    (hphase : s.startup.isWaiting = true)
    (hstep : step cfg s (.startup env) = some t) :
    Resets s t ↔ 5 ≤ s.vm.crashCount ∧ FailsAnyway cfg s env := by
  rcases step_startup hstep with
    ⟨-, ⟨k, r, m, env', hcall, hstart, -, rfl⟩ | ⟨phase, sys, hadv, rfl⟩⟩
  · refine iff_of_false (not_resets ?_ ?_) ?_
    · exact fun h : s.startup = _ => by simp [h, StartupPhase.isWaiting] at hphase
    · exact fun _ (h : s.startup = _) => by
        simp [h, StartupPhase.isWaiting] at hphase
    · rintro ⟨-, ⟨deadline, bootStart, h, -⟩ | ⟨h, houtcome⟩⟩
      · rw [h] at hcall
        cases hcall
      · rw [h] at hcall
        cases r <;> cases hcall
        exact houtcome (start_ok hstart)
  unfold FailsAnyway
  generalize s.startup = before at hphase hadv
  cases hadv with
  | vmRestart _ hdead => exact absurd hdead ((hwf .vm).not_isDead _)
  | caRestart _ hdead => exact absurd hdead ((hwf .ca).not_isDead _)
  | final hfinal => cases phase <;> cases hphase <;> cases hfinal
  | vmStarted => cases hphase
  | vmNotStarted => cases hphase
  | delay => exact iff_of_false (not_resets nofun nofun) (by simp)
  | vsockTimeout hlate =>
      refine Iff.trans (resets_iff_of_failed ⟨_, rfl⟩ (Or.inl rfl)) ?_
      simp [hlate]
  | vsockUp hintime =>
      exact iff_of_false (not_resets nofun nofun) (by simp [hintime])
  | vsockDown hintime =>
      exact iff_of_false (not_resets nofun nofun) (by simp [hintime])
  | caStarted hstart =>
      exact iff_of_false (not_resets nofun nofun) (by simp [start_ok hstart])
  | caNotStarted hstart =>
      obtain ⟨houtcome, hkernel⟩ := start_error hstart
      refine Iff.trans (resets_iff_of_failed ⟨_, rfl⟩ ?_) ?_
      · rcases hkernel with rfl | rfl
        · exact Or.inl rfl
        · exact Or.inr rfl
      · simp [houtcome]
  | portUp => exact iff_of_false (not_resets nofun nofun) (by simp)
  | portTimeout => exact iff_of_false (not_resets nofun nofun) (by simp)
  | portDown => exact iff_of_false (not_resets nofun nofun) (by simp)

/-- The startup machine is not advanced, so it acts on nobody. -/
theorem not_machineActs (hl : l.isStartup = false) : ¬ MachineActs cfg s l r :=
  fun h => Bool.eq_false_iff.mp hl h.1

/-- The death of the VM in one of the waiting phases resets the startup machine
only when the strikes are used up and the next call fails for another reason.
Nothing that happens before that call changes the phase or the count. -/
theorem vmDeath_resets_iff {s₁ s₂ s₃ : Daemon} {pid : Pid} {env : StartupEnv}
    (hreach : Reachable cfg s) (hphase : s.startup.isWaiting = true)
    (htracked : s.vm.childPid = some pid) (hreaps : l.reaps = some pid)
    (hdeath : step cfg s l = some s₁)
    (hpath : Path (step cfg)
      (fun _ l => l.isOperator = false ∧ l.isStartup = false) s₁ s₂)
    (hstep : step cfg s₂ (.startup env) = some s₃) :
    s₂.vm.crashCount = s.vm.crashCount + 1 ∧
      (Resets s₂ s₃ ↔ 5 ≤ s.vm.crashCount + 1 ∧ FailsAnyway cfg s₂ env) := by
  obtain ⟨hstartup, hrest, hcount, -⟩ := step_vmDeath htracked hreaps hdeath
  have hsame : s₂.startup = s.startup := by
    refine hpath.preserves (I := fun u => u.startup = s.startup) ?_ hstartup
    exact fun u m v hm hu huv => (step_startup_eq hm.2 huv).trans hu
  have hreach₂ : Reachable cfg s₂ := by
    obtain ⟨now, hinit⟩ := hreach
    exact ⟨now, (hinit.tail ⟨l, trivial, hdeath⟩).trans hpath.reachable⟩
  obtain ⟨hremains, -⟩ := path_rests (r := .vm) hrest
    (hpath.mono fun _ _ hl => ⟨hl.1, not_machineActs hl.2⟩)
  have hpc : s₂.pc = .startup := (step_startup hstep).1
  have hvm : s₂.vm = s₁.vm := by
    rcases hremains with h | h | h
    · cases hpc.symm.trans h
    · cases hpc.symm.trans h
    · exact h
  have hcount₂ : s₂.vm.crashCount = s.vm.crashCount + 1 := by rw [hvm, hcount]
  refine ⟨hcount₂, ?_⟩
  rw [← hcount₂]
  exact step_resets_iff (reach_wellFormed hreach₂) (by rw [hsame]; exact hphase)
    hstep

/-- The VM dies while the machine waits for the CA port. -/
theorem vmDeath_waitingCaPort :
    ∃ s s₁ s₂ s₃, after (bootCa ++ vmExit) = some s ∧
      step Config.default s reapVm = some s₁ ∧
      exec (step Config.default) s₁ toStartup = some s₂ ∧
      step Config.default s₂ (.startup (.works 102 202)) = some s₃ ∧
      s₂.vm.crashCount = 1 ∧ ¬ Resets s₂ s₃ := by
  obtain ⟨s, hafter, hphase, htracked, hzero, hrun⟩ := exists_after
    (bootCa ++ vmExit)
    (P := fun s => s.startup.isWaiting = true ∧ s.vm.childPid = some 100 ∧
      s.vm.crashCount = 0 ∧
      (step Config.default s reapVm).any (fun s₁ =>
        (exec (step Config.default) s₁ toStartup).any fun s₂ =>
          (step Config.default s₂ (.startup (.works 102 202))).isSome) = true)
    (by decide)
  obtain ⟨s₁, hdeath, hrun⟩ := (Option.any_eq_true _ _).mp hrun
  obtain ⟨s₂, hmid, hrun⟩ := (Option.any_eq_true _ _).mp hrun
  obtain ⟨s₃, hstep⟩ := Option.isSome_iff_exists.mp hrun
  obtain ⟨hcount, hresets⟩ := vmDeath_resets_iff
    (reach_of_after hafter (.of_forall (fun _ _ => trivial) _ _)) hphase
    htracked rfl hdeath (path_of_exec hmid (.of_labels (by decide) _)) hstep
  rw [hzero] at hcount hresets
  exact ⟨s, s₁, s₂, s₃, hafter, hdeath, hmid, hstep, hcount,
    fun h => absurd (hresets.mp h).1 (by decide)⟩

/-- The VM dies while the machine waits for vsock, and some process answers
there: the dead VM is marked `Ready` and the CA is due. -/
theorem vmDeath_unnoticed :
    ∃ s s₁ s₂ s₃, Reachable Config.default s ∧ s.startup.isWaiting = true ∧
      s.vm.childPid = some 100 ∧ step Config.default s reapVm = some s₁ ∧
      Path (step Config.default)
        (fun _ l => l.isOperator = false ∧ l.isStartup = false) s₁ s₂ ∧
      step Config.default s₂ (.startup (.works 102 202)) = some s₃ ∧
      s₂.vm.crashCount = 1 ∧ s₃.vm.state = .ready ∧
      s₃.startup = .caStarting ∧ ¬ Resets s₂ s₃ := by
  obtain ⟨s, hafter, hphase, htracked, hrun⟩ := exists_after
    (goodRound ++ [.tick (fromSecs 15)] ++ goodRound ++ vmExit)
    (P := fun s => s.startup.isWaiting = true ∧ s.vm.childPid = some 100 ∧
      (step Config.default s reapVm).any (fun s₁ =>
        (exec (step Config.default) s₁ toStartup).any fun s₂ =>
          s₂.vm.crashCount = 1 &&
            (step Config.default s₂ (.startup (.works 102 202))).any fun s₃ =>
              s₃.vm.state = .ready ∧ s₃.startup = .caStarting) = true)
    (by decide)
  obtain ⟨s₁, hdeath, hrun⟩ := (Option.any_eq_true _ _).mp hrun
  obtain ⟨s₂, hmid, hrun⟩ := (Option.any_eq_true _ _).mp hrun
  obtain ⟨hcount, hrun⟩ := Bool.and_eq_true_iff.mp hrun
  obtain ⟨s₃, hstep, hready⟩ := (Option.any_eq_true _ _).mp hrun
  obtain ⟨hstate, hstartup⟩ := of_decide_eq_true hready
  refine ⟨s, s₁, s₂, s₃,
    reach_of_after hafter (.of_forall (fun _ _ => trivial) _ _), hphase,
    htracked, hdeath, path_of_exec hmid (.of_labels (by decide) _), hstep,
    of_decide_eq_true hcount, hstate, hstartup, not_resets ?_ ?_⟩
  · simp [hstartup]
  · simp [hstartup]

/-! ## After the startup -/

theorem not_machineActs_of_isFinal (hfinal : s.startup.isFinal = true) :
    ¬ MachineActs cfg s l r := by
  rintro ⟨hl, hacts⟩
  cases l with
  | startup env =>
      cases hphase : s.startup <;> rw [hphase] at hfinal <;> cases hfinal <;>
        simp [directStart, StartupEnv.call, marksReady, hphase] at hacts
  | _ => cases hl

/-- Once the startup is complete, a VM that dies before its fifth strike is
never started again by the daemon on its own: the machine stays in `Complete`
and the VM `Idle`, for as long as the program runs. -/
theorem vmDeath_complete {s₁ u : Daemon} {pid : Pid}
    (hphase : s.startup = .complete) (htracked : s.vm.childPid = some pid)
    (hreaps : l.reaps = some pid) (hcount : s.vm.crashCount + 1 < 5)
    (hdeath : step cfg s l = some s₁)
    (hpath : Path (step cfg) (fun _ l => l.isOperator = false) s₁ u) :
    u.startup = .complete ∧
      (u.pc = .exited ∨ u.pc = .panicked ∨
        (u.vm.state = .idle ∧ u.vm.childPid = none)) ∧
      Kernel.spawnsIn u.kernel.log .vm = Kernel.spawnsIn s₁.kernel.log .vm := by
  obtain ⟨hstartup, hrest, -, hstate⟩ := step_vmDeath htracked hreaps hdeath
  rw [hphase] at hstartup
  rw [if_pos hcount] at hstate
  have hcomplete : ∀ v m w, m.isOperator = false → v.startup = .complete →
      step cfg v m = some w → w.startup = .complete := by
    intro v m w _ hv hvw
    exact (step_isFinal (by rw [hv]; rfl) hvw).trans hv
  obtain ⟨hremains, hspawns⟩ := path_rests (r := .vm) hrest
    ((hpath.within hcomplete hstartup).mono fun v m hm =>
      ⟨hm.1, not_machineActs_of_isFinal (by rw [hm.2]; rfl)⟩)
  refine ⟨hpath.preserves hcomplete hstartup, ?_, hspawns⟩
  refine hremains.imp_right (Or.imp_right fun hsame => ?_)
  have hvm : u.vm = s₁.vm := hsame
  rw [hvm]
  exact ⟨hstate, hrest.untracked⟩

/-- The VM dies on a booted daemon. -/
theorem vmDeath_complete_bootUp :
    ∃ s s₁ u, after (bootUp ++ vmExit) = some s ∧
      step Config.default s reapVm = some s₁ ∧
      exec (step Config.default) s₁ restOfIteration = some u ∧
      u.startup = .complete ∧
      Kernel.spawnsIn u.kernel.log .vm = Kernel.spawnsIn s₁.kernel.log .vm := by
  obtain ⟨s, hafter, hphase, htracked, hcount, hrun⟩ := exists_after
    (bootUp ++ vmExit)
    (P := fun s => s.startup = .complete ∧ s.vm.childPid = some 100 ∧
      s.vm.crashCount + 1 < 5 ∧
      (step Config.default s reapVm).any (fun s₁ =>
        (exec (step Config.default) s₁ restOfIteration).isSome) = true)
    (by decide)
  obtain ⟨s₁, hdeath, hrun⟩ := (Option.any_eq_true _ _).mp hrun
  obtain ⟨u, hu⟩ := Option.isSome_iff_exists.mp hrun
  obtain ⟨hstartup, -, hspawns⟩ := vmDeath_complete hphase
    htracked rfl hcount hdeath (path_of_exec hu (.of_labels (by decide) _))
  exact ⟨s, s₁, u, hafter, hdeath, hu, hstartup, hspawns⟩

/-- The VM dies on a booted daemon, and the iteration that reaps it ends in
`Complete` with the VM `Idle`. -/
theorem vmDeath_abandoned :
    ∃ s s₁ u, Reachable Config.default s ∧ s.startup = .complete ∧
      s.vm.childPid = some 100 ∧ step Config.default s reapVm = some s₁ ∧
      s₁.vm.crashCount = 1 ∧
      Path (step Config.default) (fun _ l => l.isOperator = false) s₁ u ∧
      u.pc = .poll ∧ u.startup = .complete ∧ u.vm.state = .idle ∧
      Kernel.spawnsIn u.kernel.log .vm = [100] := by
  obtain ⟨s, hafter, hphase, htracked, hrun⟩ := exists_after
    (bootUp ++ vmExit)
    (P := fun s => s.startup = .complete ∧ s.vm.childPid = some 100 ∧
      (step Config.default s reapVm).any (fun s₁ => s₁.vm.crashCount = 1 &&
        (exec (step Config.default) s₁ restOfIteration).any fun u =>
          u.pc = .poll ∧ u.startup = .complete ∧ u.vm.state = .idle ∧
            Kernel.spawnsIn u.kernel.log .vm = [100]) = true)
    (by decide)
  obtain ⟨s₁, hdeath, hrun⟩ := (Option.any_eq_true _ _).mp hrun
  obtain ⟨hcount, hrun⟩ := Bool.and_eq_true_iff.mp hrun
  obtain ⟨u, hu, hend⟩ := (Option.any_eq_true _ _).mp hrun
  obtain ⟨hpc, hstartup, hstate, hspawns⟩ := of_decide_eq_true hend
  exact ⟨s, s₁, u, reach_of_after hafter (.of_forall (fun _ _ => trivial) _ _),
    hphase, htracked, hdeath, of_decide_eq_true hcount,
    path_of_exec hu (.of_labels (by decide) _), hpc, hstartup, hstate, hspawns⟩

/-! ## The strikes of the CA -/

/-- When CA `pid` was spawned, if it has answered every health probe since and
no other CA was spawned after it. -/
def steadySince (pid : Pid) : List (Instant × Event) → Option Instant
  | [] => none
  | (t, .spawned .ca q _) :: _ => if q = pid then some t else none
  | (_, .healthProbe outcome) :: log =>
      if outcome = .connected then steadySince pid log else none
  | _ :: log => steadySince pid log

/-- The CA that the manager records was spawned at least a minute ago, is
running, and has answered every health probe since. -/
def Steady (s : Daemon) : Prop :=
  ∃ pid since, s.ca.childPid = some pid ∧ s.kernel.table.AliveOf .ca pid ∧
    steadySince pid s.kernel.log = some since ∧
    fromSecs 60 ≤ since.elapsed s.kernel.now

theorem maybeReset_crashCount {m m' : Manager} {k k' : Kernel}
    (h : m.maybeResetCrashCount k r = (m', k')) :
    k'.now = k.now ∧
      (m'.crashCount = 0 ↔ m.crashCount = 0 ∨ m.stable k.now = true) := by
  unfold Manager.maybeResetCrashCount at h
  split at h
  next hstable =>
    cases h
    exact ⟨rfl, by simp [hstable]⟩
  next hstable =>
    cases h
    exact ⟨rfl, by simp [hstable]⟩

/-- `maybe_reset_crash_count` clears the CA's strikes exactly when a probe of
the startup machine marked the CA `Ready` at least a minute ago, and it was
neither stopped nor reaped since; how long the CA has been up does not
matter. -/
theorem strikes_cleared_iff (hreach : Reachable cfg s)
    (hstep : step cfg s .resetCounts = some t) :
    t.ca.crashCount = 0 ↔ s.ca.crashCount = 0 ∨
      ∃ since, readyMark s.kernel.log .ca = some since ∧
        fromSecs 60 ≤ since.elapsed s.kernel.now := by
  obtain ⟨hpc, vm, k, ca, k', hvm, hca, rfl⟩ := step_resetCounts hstep
  have hmark : s.ca.readySince = readyMark s.kernel.log .ca := by
    rcases reach_readySince hreach with hpanicked | hmark
    · cases hpc.symm.trans hpanicked
    · exact hmark .ca
  obtain ⟨hnow, -⟩ := maybeReset_crashCount hvm
  obtain ⟨-, hcount⟩ := maybeReset_crashCount hca
  rw [hnow] at hcount
  refine hcount.trans (or_congr_right ?_)
  simp [Manager.stable, hmark, Option.any_eq_true]

/-- A minute later, up to the reset of the crash counts. -/
def minute : List Label :=
  [.tick (fromSecs 61), .poll .incoming, .accept false,
    .startup (.works 102 202), .health (.answers .connected 302)]

/-- The CA crashes before the startup machine marks it `Ready`; a minute after
that the strike is cleared. -/
theorem strikes_cleared_bootCa :
    ∃ s t, after (bootCa ++ caCrash ++ minute) = some s ∧
      s.ca.crashCount = 1 ∧ step Config.default s .resetCounts = some t ∧
      t.ca.crashCount = 0 := by
  obtain ⟨s, hafter, hone, hmark, hrun⟩ := exists_after
    (bootCa ++ caCrash ++ minute)
    (P := fun s => s.ca.crashCount = 1 ∧
      (readyMark s.kernel.log .ca).any (fun since =>
        fromSecs 60 ≤ since.elapsed s.kernel.now) = true ∧
      (step Config.default s .resetCounts).isSome = true) (by decide)
  obtain ⟨since, hsince, hlong⟩ := (Option.any_eq_true _ _).mp hmark
  obtain ⟨t, hstep⟩ := Option.isSome_iff_exists.mp hrun
  refine ⟨s, t, hafter, hone, hstep, (strikes_cleared_iff
    (reach_of_after hafter (.of_forall (fun _ _ => trivial) _ _)) hstep).mpr ?_⟩
  exact Or.inr ⟨since, hsince, of_decide_eq_true hlong⟩

/-- A CA that was restarted after a crash is steady for a minute and keeps its
strike. -/
theorem steady_keeps_strike :
    ∃ s t, Reachable Config.default s ∧ Steady s ∧
      step Config.default s .resetCounts = some t ∧ t.ca.crashCount = 1 := by
  obtain ⟨s, hafter, hpid, halive, hsteady, hrun⟩ := exists_after
    (bootUp ++ caCrash ++ minute)
    (P := fun s => s.ca.childPid = some 201 ∧ s.kernel.table.AliveOf .ca 201 ∧
      (steadySince 201 s.kernel.log).any (fun since =>
        fromSecs 60 ≤ since.elapsed s.kernel.now) = true ∧
      (step Config.default s .resetCounts).any (fun t =>
        t.ca.crashCount = 1) = true) (by decide)
  obtain ⟨since, hsince, hlong⟩ := (Option.any_eq_true _ _).mp hsteady
  obtain ⟨t, hstep, hone⟩ := (Option.any_eq_true _ _).mp hrun
  exact ⟨s, t, reach_of_after hafter (.of_forall (fun _ _ => trivial) _ _),
    ⟨201, since, hpid, halive, hsince, of_decide_eq_true hlong⟩, hstep,
    of_decide_eq_true hone⟩

end Teeproxyd
