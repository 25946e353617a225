import Teeproxyd.Supervision.Strikes

/-!
# What the startup machine takes for granted

At the head of `advance_startup` stand two guards: one is to notice that the VM
died in the middle of the startup, the other that the CA died while the machine
waits for its port.  Neither ever fires (see `Teeproxyd.Supervision.Recovery`),
and no guard looks for a child that a client has stopped.  So the machine
starts the CA whether or not the VM is still there, and completes the startup
whether or not the CA is.  Both go well exactly as long as nothing touches the
VM, or takes the CA away, in the phase in question.
-/

namespace Teeproxyd

open ProcessTable TransitionSystem

variable {cfg : Config} {s t : Daemon} {l : Label} {r : Role}

instance : Decidable (LosesTracked s l) :=
  decidable_of_iff
    (∃ r, l.loses.any (fun pid => (s.sys.mgr r).childPid = some pid) = true)
    (by simp [LosesTracked, Option.any_eq_true])

/-! ## The VM under the CA -/

/-- The child that a manager recorded when it became `Ready`, unless it was
stopped, died or was replaced since. -/
def readyPid : List (Instant × Event) → Role → Option Pid
  | [], _ => none
  | (_, .ready q) :: log, r => if q = r then recordedPid log r else readyPid log r
  | (_, .spawned q _ _) :: log, r => if q = r then none else readyPid log r
  | (_, .stopped q) :: log, r => if q = r then none else readyPid log r
  | (_, .died q _) :: log, r => if q = r then none else readyPid log r
  | _ :: log, r => readyPid log r

/-- The VM is `Ready`, and it records an un-reaped child, the one whose vsock
probe succeeded. -/
def VmUnderCa (s : Daemon) : Prop :=
  s.vm.state = .ready ∧ ∃ pid, s.vm.childPid = some pid ∧
    readyPid s.kernel.log .vm = some pid ∧ s.kernel.table.OwnedBy .vm pid

/-- The step touches the VM on which the CA is to be started: the vsock probe
succeeds with no VM recorded; or, in `CaStarting`, the VM is stopped or reaped,
or a client's start of a VM gets past its early checks. -/
def UnsettlesVm (cfg : Config) (s : Daemon) (l : Label) : Prop :=
  (marksReady s l .vm = true ∧ s.vm.childPid = none) ∨
    (s.startup = .caStarting ∧
      (l.stops .vm = true ∨
        l.reaps.any (fun pid => s.vm.childPid = some pid) = true ∨
        (directStart s l .vm).any
          (fun env => startOutcome cfg .vm env ≠ .refused) = true))

instance : Decidable (UnsettlesVm cfg s l) :=
  inferInstanceAs (Decidable ((_ ∧ _) ∨ (_ ∧ (_ ∨ _ ∨ _))))

/-- The VM is `Ready` with the child that it had when it became so. -/
def Stands (log : List (Instant × Event)) (f : Fleet) : Prop :=
  (f.mgr .vm).state = .ready ∧
    ∃ pid, (f.mgr .vm).childPid = some pid ∧ readyPid log .vm = some pid

theorem readyPid_cons {te : Instant × Event} {log : List (Instant × Event)}
    (h : te.2.subject ≠ some r) : readyPid (te :: log) r = readyPid log r := by
  obtain ⟨time, e⟩ := te
  cases e with
  | ready q => exact if_neg fun hqr => h (congrArg some hqr)
  | spawned q pid command => exact if_neg fun hqr => h (congrArg some hqr)
  | stopped q => exact if_neg fun hqr => h (congrArg some hqr)
  | died q pid => exact if_neg fun hqr => h (congrArg some hqr)
  | _ => rfl

theorem Happens.stands {f g : Fleet} {te : Instant × Event}
    {log : List (Instant × Event)} (h : Happens f te g)
    (hsubject : te.2.subject ≠ some .vm ∨ te.2 = .countReset .vm)
    (hf : Stands log f) : Stands (te :: log) g := by
  obtain ⟨hstate, pid, hpid, hready⟩ := hf
  rcases hsubject with hsubject | hreset
  · rcases h.changes .vm with ⟨-, hsame⟩ | hchanges
    · refine ⟨by rw [hsame]; exact hstate, pid, by rw [hsame]; exact hpid, ?_⟩
      rw [readyPid_cons hsubject]
      exact hready
    · exact absurd hchanges.subject hsubject
  · obtain ⟨time, e⟩ := te
    obtain rfl : e = .countReset .vm := hreset
    cases h with
    | countReset => exact ⟨hstate, pid, hpid, hready⟩

/-- In `CaStarting` the VM stands as long as no step touches it. -/
theorem step_stands (hphase : s.startup = .caStarting)
    (hkept : ¬ UnsettlesVm cfg s l)
    (hrunning : ∀ caKill vmKill, l ≠ .shutdown caKill vmKill)
    (hstep : step cfg s l = some t)
    (hs : s.pc = .panicked ∨ Stands s.kernel.log s.sys.fleet) :
    t.pc = .panicked ∨ Stands t.kernel.log t.sys.fleet := by
  have hstops : ¬ StopsChild cfg s l .vm := by
    intro h
    cases l with
    | request req env written =>
        have hcmd : (requestCmd req).stops .vm = true := h
        refine hkept (Or.inr ⟨hphase, Or.inl ?_⟩)
        simpa [Label.stops, Label.cmd] using hcmd
    | health env => cases h.1
    | shutdown caKill vmKill => exact hrunning caKill vmKill rfl
    | _ => exact h
  have hreaps : ∀ pid, l.reaps = some pid → s.vm.childPid ≠ some pid := by
    intro pid hpid htracked
    refine hkept (Or.inr ⟨hphase, Or.inr (Or.inl ?_)⟩)
    simp [hpid, htracked]
  have hcalls : ∀ f env, CallsStart cfg s l f .vm env →
      startOutcome cfg .vm env = .refused := by
    rintro f env (⟨-, hdirect⟩ | ⟨hr, -⟩)
    · by_contra houtcome
      refine hkept (Or.inr ⟨hphase, Or.inr (Or.inr ?_)⟩)
      simp [hdirect, houtcome]
    · cases hr
  refine step_history (I := Stands) ?_ hstep hs
  rintro log f ⟨time, e⟩ g hcause hte hf
  refine hte.stands ?_ hf
  by_cases hsubject : e.subject = some .vm
  · right
    cases e <;> cases hsubject
    · obtain ⟨env, hcall, hstarted⟩ := hcause
      cases (hcalls f env hcall).symm.trans hstarted
    · obtain ⟨env, hcall, hfailed⟩ := hcause
      cases (hcalls f env hcall).symm.trans hfailed
    · exact absurd hcause hstops
    · exact absurd hcause.2 (hreaps _ hcause.1)
    · obtain ⟨pid, hpid, htracked⟩ := hcause
      exact absurd htracked (hreaps pid hpid)
    · obtain ⟨env, rfl, ⟨-, deadline, bootStart, h, -⟩ | ⟨hr, -⟩⟩ :=
        marksReady_iff.mp hcause.2
      · cases hphase.symm.trans h
      · cases hr
    · rfl
  · exact Or.inl hsubject

/-- In `CaStarting` the VM stands, unless the program has ended. -/
def Settled (s : Daemon) : Prop :=
  s.startup = .caStarting →
    s.pc.isRunning = false ∨ Stands s.kernel.log s.sys.fleet

theorem settled_init (now : Instant) : Settled (init cfg now) := by
  intro h
  rcases init_startup cfg now with hvm | hnone
  · cases hvm.symm.trans h
  · cases hnone.symm.trans h

theorem step_settled (hreach : Reach cfg (fun s l => ¬ LosesTracked s l) s)
    (hkept : ¬ UnsettlesVm cfg s l) (hs : Settled s)
    (hstep : step cfg s l = some t) : Settled t := by
  intro hphase
  by_cases hbefore : s.startup = .caStarting
  · rcases hs hbefore with hended | hstands
    · left
      rw [(step_ended hended hstep).1]
      exact hended
    by_cases hshutdown : ∃ caKill vmKill, l = .shutdown caKill vmKill
    · obtain ⟨caKill, vmKill, rfl⟩ := hshutdown
      exact Or.inl (step_shutdown_isRunning hstep)
    · have hrunning : ∀ caKill vmKill, l ≠ .shutdown caKill vmKill :=
        fun caKill vmKill h => hshutdown ⟨caKill, vmKill, h⟩
      rcases step_stands hbefore hkept hrunning hstep (Or.inr hstands) with
        hpanicked | hstands
      · left
        rw [hpanicked]
        rfl
      · exact Or.inr hstands
  cases l with
  | startup env =>
      rcases step_startup hstep with
        ⟨-, ⟨k, r, m, env', -, -, -, rfl⟩ | ⟨phase, sys, hadv, rfl⟩⟩
      · exact absurd hphase hbefore
      obtain rfl : phase = .caStarting := hphase
      have hwf := reach_wellFormed hreach
      generalize hfrom : s.startup = before at hadv
      generalize hto : StartupPhase.caStarting = after at hadv
      cases hadv with
      | vmRestart _ hdead => exact absurd hdead ((hwf .vm).not_isDead _)
      | caRestart _ hdead => exact absurd hdead ((hwf .ca).not_isDead _)
      | final => exact absurd (hfrom.trans hto.symm) hbefore
      | @vsockUp deadline bootStart hintime hup =>
          have hmarks : marksReady s (.startup env) .vm = true :=
            marksReady_iff.mpr
              ⟨env, rfl, Or.inl ⟨rfl, _, _, hfrom, hintime, hup⟩⟩
          have hsome : s.vm.childPid ≠ none :=
            fun hnone => hkept (Or.inl ⟨hmarks, hnone⟩)
          obtain ⟨pid, hpid⟩ := Option.ne_none_iff_exists'.mp hsome
          have hrecorded : recordedPid s.kernel.log .vm = some pid := by
            rcases reach_accounts hreach with hpanicked | haccounts
            · cases (step_startup hstep).1.symm.trans hpanicked
            · exact (haccounts .vm).pid.symm.trans hpid
          refine Or.inr ⟨rfl, pid, hpid, ?_⟩
          exact (if_pos rfl).trans hrecorded
      | _ => cases hto
  | _ => exact absurd ((step_startup_eq rfl hstep).symm.trans hphase) hbefore

/-- In every run that loses no recorded child and whose steps leave the VM alone
between its vsock probe and the start of the CA, the startup machine starts the
CA on a VM that is `Ready`: the one that has answered the probe. -/
theorem vmUnderCa_of_caStarting {env : StartupEnv}
    (hreach : Reach cfg
      (fun s l => ¬ LosesTracked s l ∧ ¬ UnsettlesVm cfg s l) s)
    (hphase : s.startup = .caStarting)
    (hstep : step cfg s (.startup env) = some t) : VmUnderCa s := by
  obtain ⟨hlost, hsettled⟩ := reach_preserves (I := Settled) settled_init
    (fun _ _ _ hu hkept hs huv => step_settled hu hkept hs huv) hreach
  rcases hsettled hphase with hended | ⟨hready, pid, hpid, hprobed⟩
  · rw [(step_startup hstep).1] at hended
    cases hended
  · exact ⟨hready, pid, hpid, hprobed, (reach_tracked hlost).sound .vm pid hpid⟩

/-- The start of the daemon up to `CaStarting`. -/
def bootVm : List Label :=
  goodRound ++ [.tick (fromSecs 15)] ++ goodRound ++ goodRound

theorem vmUnderCa_bootVm :
    ∃ s t, after (bootVm ++ [.poll .incoming, .accept false]) = some s ∧
      step Config.default s (.startup (.works 100 200)) = some t ∧
      Kernel.spawnsIn t.kernel.log .ca = [200] ∧ VmUnderCa s := by
  obtain ⟨s, hafter, hphase, hrun⟩ := exists_after
    (bootVm ++ [.poll .incoming, .accept false])
    (P := fun s => s.startup = .caStarting ∧
      (step Config.default s (.startup (.works 100 200))).any (fun t =>
        Kernel.spawnsIn t.kernel.log .ca = [200]) = true) (by decide)
  obtain ⟨t, hstep, hspawned⟩ := (Option.any_eq_true _ _).mp hrun
  exact ⟨s, t, hafter, hstep, of_decide_eq_true hspawned,
    vmUnderCa_of_caStarting (reach_of_after hafter (by decide)) hphase hstep⟩

/-- The VM dies between its vsock probe and the start of the CA, which is
started all the same. -/
theorem caStarted_without_vm :
    ∃ s t, Reachable Config.default s ∧ s.startup = .caStarting ∧
      step Config.default s (.startup (.works 102 200)) = some t ∧
      Kernel.spawnsIn t.kernel.log .ca = [200] ∧ s.vm.state = .idle ∧
      ¬ VmUnderCa s := by
  obtain ⟨s, hafter, hphase, hstate, hrun⟩ := exists_after
    (bootVm ++ vmExit ++ [reapVm] ++ toStartup)
    (P := fun s => s.startup = .caStarting ∧ s.vm.state = .idle ∧
      (step Config.default s (.startup (.works 102 200))).any (fun t =>
        Kernel.spawnsIn t.kernel.log .ca = [200]) = true) (by decide)
  obtain ⟨t, hstep, hspawned⟩ := (Option.any_eq_true _ _).mp hrun
  refine ⟨s, t, reach_of_after hafter (.of_forall (fun _ _ => trivial) _ _),
    hphase, hstep, of_decide_eq_true hspawned, hstate, fun h => ?_⟩
  cases hstate.symm.trans h.1

/-! ## The CA at the end of the startup -/

/-- The step takes the CA away while the machine waits for its port: a client
stops it, or it is reaped or stopped by the health check and not restarted. -/
def DropsCa (cfg : Config) (s : Daemon) (l : Label) : Prop :=
  s.startup.isWaitingCaPort = true ∧
    match l with
    | .request req _ _ => (requestCmd req).stops .ca = true
    | .waitpid _ env =>
        l.reaps.any (fun pid => s.ca.childPid = some pid) = true ∧
          ¬ (s.ca.crashCount + 1 < 5 ∧ startOutcome cfg .ca env = .started)
    | .health env =>
        healthRestarts cfg s env ∧ startOutcome cfg .ca env.start ≠ .started
    | _ => False

instance decidableDropsCa : (l : Label) → Decidable (DropsCa cfg s l)
  | .request _ _ _ => inferInstanceAs (Decidable (_ ∧ _))
  | .waitpid _ _ => inferInstanceAs (Decidable (_ ∧ _ ∧ _))
  | .health _ => inferInstanceAs (Decidable (_ ∧ _ ∧ _))
  | .tick _ | .exit _ | .crosvmStart _ | .crosvmExit _ | .others _ => .isFalse (·.2)
  | .terminate | .sigchld | .deliverChld | .deliverTerm => .isFalse (·.2)
  | .poll _ | .wake _ => .isFalse (·.2)
  | .drain | .accept _ | .hangup | .startup _ | .resetCounts => .isFalse (·.2)
  | .shutdown _ _ => .isFalse (·.2)

/-- A recorded child stays recorded, or is replaced, unless it is stopped or
reaped. -/
theorem step_recorded (hstops : ¬ StopsChild cfg s l r)
    (hreaps : ∀ pid, l.reaps = some pid → (s.sys.mgr r).childPid ≠ some pid)
    (hstep : step cfg s l = some t)
    (hs : s.pc = .panicked ∨ (s.sys.mgr r).childPid ≠ none) :
    t.pc = .panicked ∨ (t.sys.mgr r).childPid ≠ none := by
  refine step_history (I := fun _ f => (f.mgr r).childPid ≠ none) ?_ hstep hs
  rintro log f ⟨time, e⟩ g hcause hte hf
  rcases hte.changes r with ⟨-, hsame⟩ | hchanges
  · rw [hsame]
    exact hf
  generalize f.mgr r = m at hchanges hf
  generalize g.mgr r = m' at hchanges
  cases hchanges with
  | spawned => exact nofun
  | stopped => exact absurd hcause hstops
  | died => exact absurd hcause.2 (hreaps _ hcause.1)
  | _ => exact hf

/-- In `WaitingCaPort` the CA is recorded, unless the program has ended. -/
def Accompanied (s : Daemon) : Prop :=
  s.startup.isWaitingCaPort = true →
    s.pc.isRunning = false ∨ s.ca.childPid ≠ none

theorem accompanied_init (now : Instant) : Accompanied (init cfg now) := by
  intro h
  rcases init_startup cfg now with hvm | hnone
  · rw [hvm] at h
    cases h
  · rw [hnone] at h
    cases h

theorem step_recorded_ca (hphase : s.startup.isWaitingCaPort = true)
    (hdistinct : ∀ pid, s.ca.childPid = some pid → s.vm.childPid ≠ some pid)
    (hkept : ¬ DropsCa cfg s l) (hstep : step cfg s l = some t)
    (hs : s.ca.childPid ≠ none) :
    t.pc.isRunning = false ∨ t.ca.childPid ≠ none := by
  have hquiet : ¬ StopsChild cfg s l .ca →
      (∀ pid, l.reaps = some pid → s.ca.childPid ≠ some pid) →
      t.pc.isRunning = false ∨ t.ca.childPid ≠ none := by
    intro hstops hreaps
    rcases step_recorded hstops hreaps hstep (Or.inr hs) with hpanicked | ht
    · left
      rw [hpanicked]
      rfl
    · exact Or.inr ht
  cases l with
  | request req env written =>
      apply hquiet (fun h => hkept ⟨hphase, h⟩)
      intro pid h
      cases h
  | waitpid raw env =>
      by_cases hreaps : ∃ pid, (Label.waitpid raw env).reaps = some pid ∧
          s.ca.childPid = some pid
      · obtain ⟨pid, hpid, htracked⟩ := hreaps
        obtain ⟨hfew, hstarted⟩ : s.ca.crashCount + 1 < 5 ∧
            startOutcome cfg .ca env = .started := by
          by_contra hnot
          exact hkept ⟨hphase, by simp [hpid, htracked], hnot⟩
        rcases waitpid_ca hstep with ⟨-, k, hca⟩ | ⟨hnot, -⟩
        · right
          rw [hca]
          exact start_ca_tracked hstarted
        · have hvm := hdistinct pid htracked
          simp [crashRestarts, hpid, htracked, hvm, hfew] at hnot
      · exact hquiet id fun pid hpid htracked => hreaps ⟨pid, hpid, htracked⟩
  | health env =>
      by_cases hrestarts : healthRestarts cfg s env
      · by_cases hpc : t.pc = .panicked
        · left
          rw [hpc]
          rfl
        have hstarted : startOutcome cfg .ca env.start = .started := by
          by_contra hnot
          exact hkept ⟨hphase, hrestarts, hnot⟩
        obtain ⟨k, hca, -⟩ := health_ca hrestarts hstep hpc
        right
        rw [hca]
        exact start_ca_tracked hstarted
      · apply hquiet (fun h => hrestarts h.2)
        intro pid h
        cases h
  | shutdown caKill vmKill =>
      exact Or.inl (step_shutdown_isRunning hstep)
  | _ =>
      apply hquiet id
      intro pid h
      cases h

theorem step_accompanied (hreach : Reach cfg (fun s l => ¬ LosesTracked s l) s)
    (hkept : ¬ DropsCa cfg s l) (hs : Accompanied s)
    (hstep : step cfg s l = some t) : Accompanied t := by
  intro hphase
  by_cases hbefore : s.startup.isWaitingCaPort = true
  · rcases hs hbefore with hended | hsome
    · left
      rw [(step_ended hended hstep).1]
      exact hended
    · exact step_recorded_ca hbefore
        (fun pid hca hvm => (trackingSound hreach).2.1 pid hvm hca) hkept hstep
        hsome
  cases l with
  | startup env =>
      rcases step_startup hstep with
        ⟨-, ⟨k, r, m, env', -, -, -, rfl⟩ | ⟨phase, sys, hadv, rfl⟩⟩
      · exact absurd hphase hbefore
      have hphase : phase.isWaitingCaPort = true := hphase
      have hwf := reach_wellFormed hreach
      generalize s.startup = before at hadv hbefore
      cases hadv with
      | vmRestart _ hdead => exact absurd hdead ((hwf .vm).not_isDead _)
      | caRestart _ hdead => exact absurd hdead ((hwf .ca).not_isDead _)
      | final => exact absurd hphase hbefore
      | @caStarted m k deadline hstart =>
          right
          have htracked := start_ca_tracked (m := s.ca) (k := s.kernel)
            (start_ok hstart)
          have hca : CaManager.start cfg s.ca s.kernel env.caStart = _ := hstart
          rw [hca] at htracked
          exact htracked
      | portDown => exact absurd rfl hbefore
      | _ => cases hphase
  | _ =>
      rw [step_startup_eq rfl hstep] at hphase
      exact absurd hphase hbefore

/-- In every run that loses no recorded child and in which no step takes the CA
away in `WaitingCaPort`, every call of `advance_startup` in this phase, and so
the one that completes the startup, finds a CA that is recorded and un-reaped,
and leaves it so. -/
theorem waitingCaPort_has_ca {env : StartupEnv}
    (hreach : Reach cfg (fun s l => ¬ LosesTracked s l ∧ ¬ DropsCa cfg s l) s)
    (hphase : s.startup.isWaitingCaPort = true)
    (hstep : step cfg s (.startup env) = some t) :
    ∃ pid, s.ca.childPid = some pid ∧ t.ca.childPid = some pid ∧
      t.kernel.table.OwnedBy .ca pid := by
  obtain ⟨hlost, haccompanied⟩ := reach_preserves (I := Accompanied)
    accompanied_init
    (fun _ _ _ hu hkept hs huv => step_accompanied hu hkept hs huv) hreach
  have hsome : s.ca.childPid ≠ none := by
    rcases haccompanied hphase with hended | hsome
    · rw [(step_startup hstep).1] at hended
      cases hended
    · exact hsome
  obtain ⟨pid, hpid⟩ := Option.ne_none_iff_exists'.mp hsome
  have hlost' : Reach cfg (fun s l => ¬ LosesTracked s l) t := by
    obtain ⟨now, hpath⟩ := hlost
    refine ⟨now, hpath.tail ⟨.startup env, ?_, hstep⟩⟩
    rintro ⟨r, pid, hloses, -⟩
    cases hloses
  have hsame : t.ca.childPid = s.ca.childPid := by
    rcases step_startup hstep with
      ⟨-, ⟨k, r, m, env', hcall, -, -, rfl⟩ | ⟨phase, sys, hadv, rfl⟩⟩
    · cases hbefore : s.startup with
      | waitingCaPort deadline =>
          rw [hbefore] at hcall
          cases hcall
      | _ =>
          rw [hbefore] at hphase
          cases hphase
    generalize s.startup = before at hadv hphase
    cases hadv with
    | portUp => rfl
    | portTimeout => rfl
    | portDown => rfl
    | final hfinal => rfl
    | vmRestart => rfl
    | caRestart => rfl
    | _ => cases hphase
  refine ⟨pid, hpid, hsame.trans hpid, ?_⟩
  exact (reach_tracked hlost').sound .ca pid (hsame.trans hpid)

/-- The startup completes with CA 200. -/
theorem waitingCaPort_has_ca_bootCa :
    ∃ s t, after (bootCa ++ [.poll .incoming, .accept false]) = some s ∧
      step Config.default s (.startup (.works 100 200)) = some t ∧
      t.startup = .complete ∧ ∃ pid, t.ca.childPid = some pid ∧
        t.kernel.table.OwnedBy .ca pid := by
  obtain ⟨s, hafter, hphase, hrun⟩ := exists_after
    (bootCa ++ [.poll .incoming, .accept false])
    (P := fun s => s.startup.isWaitingCaPort = true ∧
      (step Config.default s (.startup (.works 100 200))).any (fun t =>
        t.startup = .complete) = true) (by decide)
  obtain ⟨t, hstep, hcomplete⟩ := (Option.any_eq_true _ _).mp hrun
  obtain ⟨pid, -, hpid, howned⟩ := waitingCaPort_has_ca
    (reach_of_after hafter (by decide)) hphase hstep
  exact ⟨s, t, hafter, hstep, of_decide_eq_true hcomplete, pid, hpid, howned⟩

/-- The port does not answer. -/
def StartupEnv.late : StartupEnv :=
  { StartupEnv.works 102 202 with portUp := false }

/-- The CA dies while the machine waits for its port and cannot be restarted;
when the time is up, the startup is complete. -/
theorem complete_without_ca :
    ∃ s t, Reachable Config.default s ∧ s.startup.isWaitingCaPort = true ∧
      step Config.default s (.startup .late) = some t ∧
      s.ca.crashCount = 1 ∧ t.startup = .complete ∧ t.ca.childPid = none := by
  obtain ⟨s, hafter, hphase, hcount, hrun⟩ := exists_after
    (bootCa ++ caExit ++ [.waitpid (some (200, .code 1)) .missing] ++
      toStartup ++ [.tick (fromSecs 16)])
    (P := fun s => s.startup.isWaitingCaPort = true ∧ s.ca.crashCount = 1 ∧
      (step Config.default s (.startup .late)).any (fun t =>
        t.startup = .complete ∧ t.ca.childPid = none) = true) (by decide)
  obtain ⟨t, hstep, hend⟩ := (Option.any_eq_true _ _).mp hrun
  obtain ⟨hcomplete, hnone⟩ := of_decide_eq_true hend
  exact ⟨s, t, reach_of_after hafter (.of_forall (fun _ _ => trivial) _ _),
    hphase, hstep, hcount, hcomplete, hnone⟩

end Teeproxyd
