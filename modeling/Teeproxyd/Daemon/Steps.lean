import Teeproxyd.Daemon.MainLoop

/-!
# What each kind of step does

One lemma for each kind of label, with everything a step under it can do.  The
proofs about runs use these and do not unfold the step function.
-/

namespace Teeproxyd

open TransitionSystem

variable {cfg : Config} {s t : Daemon}

/-! ## Steps that leave the records alone -/

/-- The labels of steps that neither call a manager nor touch a child. -/
def Label.isQuiet : Label → Bool
  | tick _ | crosvmStart _ | crosvmExit _ | others _ | terminate => true
  | sigchld | deliverChld | deliverTerm => true
  | poll _ | wake _ | drain | accept _ | hangup => true
  | _ => false

/-- What a quiet step leaves alone. -/
structure Frame (s t : Daemon) : Prop where
  vm : t.vm = s.vm
  ca : t.ca = s.ca
  table : t.kernel.table = s.kernel.table
  log : t.kernel.log = s.kernel.log
  startup : t.startup = s.startup
  health : t.health = s.health
  lastHealth : t.lastHealth = s.lastHealth
  now : s.kernel.now ≤ t.kernel.now

namespace Frame

theorem withPc (s : Daemon) (pc : Pc) : Frame s { s with pc := pc } :=
  ⟨rfl, rfl, rfl, rfl, rfl, rfl, rfl, Nat.le_refl _⟩

theorem withKernel {k : Kernel} (htable : k.table = s.kernel.table)
    (hlog : k.log = s.kernel.log) (hnow : s.kernel.now ≤ k.now) :
    Frame s (s.withKernel k) :=
  ⟨rfl, rfl, htable, hlog, rfl, rfl, rfl, hnow⟩

theorem refl (s : Daemon) : Frame s s := .withPc s s.pc

theorem trans {u : Daemon} (h : Frame s t) (h' : Frame t u) : Frame s u where
  vm := h'.vm.trans h.vm
  ca := h'.ca.trans h.ca
  table := h'.table.trans h.table
  log := h'.log.trans h.log
  startup := h'.startup.trans h.startup
  health := h'.health.trans h.health
  lastHealth := h'.lastHealth.trans h.lastHealth
  now := Nat.le_trans h.now h'.now

theorem mgr (h : Frame s t) : t.sys.mgr = s.sys.mgr := by
  funext r
  cases r with
  | vm => exact h.vm
  | ca => exact h.ca

theorem signalHandler (s : Daemon) (byte : Char) :
    Frame s (signalHandler s byte) := by
  unfold Teeproxyd.signalHandler
  split <;> exact ⟨rfl, rfl, rfl, rfl, rfl, rfl, rfl, Nat.le_refl _⟩

end Frame

/-- The labels that only move the program counter. -/
def Label.isMove : Label → Bool
  | poll _ | wake _ | accept _ | hangup => true
  | _ => false

theorem step_move {l : Label} (hmove : l.isMove = true)
    (hstep : step cfg s l = some t) : t = { s with pc := t.pc } := by
  cases l with
  | poll listener =>
      simp only [step] at hstep
      split at hstep
      next =>
        split at hstep
        next =>
          cases hstep
          rfl
        next => split at hstep <;> cases hstep <;> rfl
      next => cases hstep
  | wake listener =>
      simp only [step] at hstep
      split at hstep
      next =>
        split at hstep <;> cases hstep
        rfl
      next => cases hstep
  | accept ok =>
      simp only [step] at hstep
      split at hstep <;> cases hstep
      rfl
  | hangup =>
      simp only [step] at hstep
      split at hstep <;> cases hstep
      rfl
  | _ => cases hmove

theorem step_quiet {l : Label} (hquiet : l.isQuiet = true)
    (hstep : step cfg s l = some t) : Frame s t := by
  by_cases hmove : l.isMove = true
  · rw [step_move hmove hstep]
    exact .withPc s _
  cases l with
  | tick d =>
      cases hstep
      exact .withKernel rfl rfl (Nat.le_add_right _ _)
  | crosvmStart parent =>
      simp only [step] at hstep
      split at hstep <;> cases hstep
      exact .withKernel rfl rfl (Nat.le_refl _)
  | crosvmExit i =>
      cases hstep
      exact .withKernel rfl rfl (Nat.le_refl _)
  | others pids =>
      simp only [step] at hstep
      split at hstep <;> cases hstep
      exact .withKernel rfl rfl (Nat.le_refl _)
  | terminate | sigchld =>
      cases hstep
      exact .withKernel rfl rfl (Nat.le_refl _)
  | deliverChld =>
      simp only [step] at hstep
      split at hstep <;> cases hstep
      have hcleared : Frame s
          (s.withKernel { s.kernel with chldPending := false }) :=
        .withKernel rfl rfl (Nat.le_refl _)
      exact hcleared.trans (.signalHandler _ 'C')
  | deliverTerm =>
      simp only [step] at hstep
      split at hstep <;> cases hstep
      have hcleared : Frame s
          (s.withKernel { s.kernel with termPending := false }) :=
        .withKernel rfl rfl (Nat.le_refl _)
      exact hcleared.trans (.signalHandler _ 'T')
  | drain =>
      simp only [step] at hstep
      split at hstep
      next =>
        have hdrained : Frame s (s.withKernel (s.kernel.readPipe 64)) :=
          .withKernel rfl rfl (Nat.le_refl _)
        split at hstep <;> cases hstep
        · exact hdrained.trans (.withPc _ _)
        · exact hdrained.trans (.withPc _ _)
      next => cases hstep
  | poll | wake | accept | hangup => exact absurd rfl hmove
  | _ => cases hquiet

/-! ## The other steps -/

theorem step_exit {pid : Pid} (hstep : step cfg s (.exit pid) = some t) :
    s.kernel.table.isAlive pid = true ∧
      t = s.withKernel (s.kernel.exitProc pid) := by
  simp only [step] at hstep
  split at hstep
  next halive =>
    cases hstep
    exact ⟨halive, rfl⟩
  next => cases hstep

theorem step_waitpid {raw : Option (Pid × ExitStatus)} {env : StartEnv}
    (hstep : step cfg s (.waitpid raw env) = some t) :
    ∃ term client, s.pc = .reap term client ∧
      waitpidReports s.kernel raw = true ∧
      t = { s with
        sys := (reapIteration cfg raw s.sys env).1
        pc := if (reapIteration cfg raw s.sys env).2 then s.pc
          else afterSignals term client } := by
  simp only [step] at hstep
  split at hstep
  next term client hpc =>
    split at hstep
    next hreports =>
      refine ⟨term, client, hpc, hreports, ?_⟩
      split at hstep
      next hagain =>
        cases hstep
        rw [if_pos hagain]
      next hagain =>
        cases hstep
        rw [if_neg hagain]
    next => cases hstep
  next => cases hstep

theorem step_request {req : Value} {env : RequestEnv} {written : Bool}
    (hstep : step cfg s (.request req env written) = some t) :
    s.pc = .session ∧
      ((∃ k, dispatch cfg s.startup s.startedAt req s.sys env = .error k ∧
          t = s.crash k) ∨
        (∃ sys reply,
          dispatch cfg s.startup s.startedAt req s.sys env =
            .ok (sys, reply) ∧
          t = { s with
            sys := { sys with
              kernel := sys.kernel.emit (.handled (requestCmd req)) }
            pc := if written then .session else .startup })) := by
  simp only [step] at hstep
  split at hstep
  next hpc =>
    refine ⟨hpc, ?_⟩
    split at hstep
    next k hdispatch =>
      cases hstep
      exact Or.inl ⟨k, hdispatch, rfl⟩
    next sys reply hdispatch =>
      cases hstep
      exact Or.inr ⟨sys, reply, hdispatch, rfl⟩
  next => cases hstep

/-- A command that starts a child starts it, whatever comes of it. -/
theorem step_request_call {req : Value} {env : RequestEnv} {written : Bool}
    {r : Role} {env' : StartEnv}
    (hcall : env.call (requestCmd req) r = some env')
    (hstep : step cfg s (.request req env written) = some t) :
    t.pc ≠ .panicked ∧
      t.sys = s.sys.set r (r.start cfg (s.sys.mgr r) s.kernel env').1
        ((r.start cfg (s.sys.mgr r) s.kernel env').2.1.emit
          (.handled (requestCmd req))) := by
  obtain ⟨reply, hdispatch⟩ :=
    dispatch_call cfg s.startup s.startedAt s.sys hcall
  rcases step_request hstep with ⟨-, ⟨k, herror, -⟩ | ⟨sys, reply', hok, rfl⟩⟩
  · cases hdispatch.symm.trans herror
  · cases hdispatch.symm.trans hok
    refine ⟨by dsimp only; split <;> simp, ?_⟩
    cases r <;> rfl

/-- A command that stops a child leaves its manager idle. -/
theorem step_request_stops {req : Value} {env : RequestEnv} {written : Bool}
    {r : Role} (hstops : (requestCmd req).stops r = true)
    (hstep : step cfg s (.request req env written) = some t) :
    (∃ k, t = s.crash k) ∨ t.sys.mgr r = (s.sys.mgr r).halted := by
  rcases step_request hstep with ⟨-, ⟨k, -, ht⟩ | ⟨sys, reply, hok, rfl⟩⟩
  · exact Or.inl ⟨k, ht⟩
  · have hhalted : sys.mgr r = (s.sys.mgr r).halted := dispatch_stops hstops hok
    right
    rw [← hhalted]
    cases r <;> rfl

theorem step_startup {env : StartupEnv}
    (hstep : step cfg s (.startup env) = some t) :
    s.pc = .startup ∧
      ((∃ k r m env', env.call s.startup r = some env' ∧
          Role.start cfg r (s.sys.mgr r) s.kernel env' = (m, k, .ok ()) ∧
          k.now.plus (s.startup.patience cfg) = none ∧ t = s.crash k) ∨
        (∃ phase sys, Advances cfg s.sys env s.startup phase sys ∧
          t = { s with startup := phase, sys := sys, pc := .health })) := by
  simp only [step] at hstep
  split at hstep
  next hpc =>
    refine ⟨hpc, ?_⟩
    split at hstep
    next k herror =>
      cases hstep
      obtain ⟨r, m, env', hcall, hstart, hover⟩ := advanceStartup_error herror
      exact Or.inl ⟨k, r, m, env', hcall, hstart, hover, rfl⟩
    next phase sys hok =>
      cases hstep
      exact Or.inr ⟨phase, sys, advanceStartup_ok hok, rfl⟩
  next => cases hstep

/-- The health check is due when the interval since the last one is over. -/
def healthDue (cfg : Config) (s : Daemon) : Prop :=
  fromSecs cfg.healthIntervalSecs ≤ s.lastHealth.elapsed s.kernel.now

instance : Decidable (healthDue cfg s) := inferInstanceAs (Decidable (_ ≤ _))

theorem step_health {env : HealthEnv}
    (hstep : step cfg s (.health env) = some t) :
    s.pc = .health ∧
      ((¬ healthDue cfg s ∧ t = { s with pc := .reset }) ∨
        (healthDue cfg s ∧ ∃ k,
          Checks cfg s.health s.sys env (.error k) ∧ t = s.crash k) ∨
        (healthDue cfg s ∧ ∃ health sys,
          Checks cfg s.health s.sys env (.ok (health, sys)) ∧
          t = { s with
            health := health
            sys := sys
            lastHealth := sys.kernel.now
            pc := .reset })) := by
  simp only [step] at hstep
  split at hstep
  next hpc =>
    refine ⟨hpc, ?_⟩
    split at hstep
    next hdue =>
      right
      split at hstep
      next k hcheck =>
        cases hstep
        exact Or.inl ⟨hdue, k, hcheck ▸ healthCheck_checks .., rfl⟩
      next health sys hcheck =>
        cases hstep
        exact Or.inr ⟨hdue, health, sys, hcheck ▸ healthCheck_checks .., rfl⟩
    next hdue =>
      cases hstep
      exact Or.inl ⟨hdue, rfl⟩
  next => cases hstep

theorem step_resetCounts (hstep : step cfg s .resetCounts = some t) :
    s.pc = .reset ∧
      ∃ vm k ca k', s.vm.maybeResetCrashCount s.kernel .vm = (vm, k) ∧
        s.ca.maybeResetCrashCount k .ca = (ca, k') ∧
        t = { s with sys := ⟨vm, ca, k'⟩, pc := .poll } := by
  simp only [step] at hstep
  split at hstep
  next hpc =>
    cases hstep
    exact ⟨hpc, _, _, _, _, rfl, rfl, rfl⟩
  next => cases hstep

theorem step_shutdown {caKill vmKill : KillEnv}
    (hstep : step cfg s (.shutdown caKill vmKill) = some t) :
    s.pc = .shutdown ∧
      ((∃ k, CaManager.stop cfg s.ca s.kernel caKill = .error k ∧
          t = s.crash k) ∨
        (∃ ca k, CaManager.stop cfg s.ca s.kernel caKill = .ok (ca, k) ∧
          ((∃ k', VmManager.stop cfg s.vm k vmKill = .error k' ∧
              t = s.crash k') ∨
            (∃ vm k', VmManager.stop cfg s.vm k vmKill = .ok (vm, k') ∧
              t = { s with sys := ⟨vm, ca, k'⟩, pc := .exited })))) := by
  simp only [step] at hstep
  split at hstep
  next hpc =>
    refine ⟨hpc, ?_⟩
    split at hstep
    next k hca =>
      cases hstep
      exact Or.inl ⟨k, hca, rfl⟩
    next ca k hca =>
      refine Or.inr ⟨ca, k, hca, ?_⟩
      split at hstep
      next k' hvm =>
        cases hstep
        exact Or.inl ⟨k', hvm, rfl⟩
      next vm k' hvm =>
        cases hstep
        exact Or.inr ⟨vm, k', hvm, rfl⟩
  next => cases hstep

/-- A shutdown ends the program. -/
theorem step_shutdown_pc {caKill vmKill : KillEnv}
    (hstep : step cfg s (.shutdown caKill vmKill) = some t) :
    t.pc = .exited ∨ t.pc = .panicked := by
  rcases step_shutdown hstep with ⟨-, ⟨k, -, rfl⟩ |
    ⟨ca, k, -, ⟨k', -, rfl⟩ | ⟨vm, k', -, rfl⟩⟩⟩
  · exact Or.inr rfl
  · exact Or.inr rfl
  · exact Or.inl rfl

theorem step_shutdown_isRunning {caKill vmKill : KillEnv}
    (hstep : step cfg s (.shutdown caKill vmKill) = some t) :
    t.pc.isRunning = false := by
  rcases step_shutdown_pc hstep with hpc | hpc
  · rw [hpc]
    rfl
  · rw [hpc]
    rfl

/-! ## Whose turn it is -/

/-- The labels of the environment. -/
def Label.isEnvironment : Label → Bool
  | tick _ | exit _ | crosvmStart _ | crosvmExit _ | others _ => true
  | terminate | sigchld | deliverChld | deliverTerm => true
  | _ => false

/-- The labels of the thread at a point of the main loop. -/
def Pc.takes : Pc → Label → Bool
  | .poll, .poll _ => true
  | .polling _, .wake _ => true
  | .drain _, .drain => true
  | .reap _ _, .waitpid _ _ => true
  | .accept _, .accept _ => true
  | .session, .request _ _ _ | .session, .hangup => true
  | .startup, .startup _ => true
  | .health, .health _ => true
  | .reset, .resetCounts => true
  | .shutdown, .shutdown _ _ => true
  | _, _ => false

theorem Pc.isRunning_of_takes {pc : Pc} {l : Label} (h : pc.takes l = true) :
    pc.isRunning = true := by
  cases pc with
  | exited => cases h
  | panicked => cases h
  | hung => cases h
  | _ => rfl

theorem step_turn {l : Label} (hstep : step cfg s l = some t) :
    l.isEnvironment = true ∨ s.pc.takes l = true := by
  cases henv : l.isEnvironment with
  | true => exact Or.inl rfl
  | false =>
      right
      cases l with
      | tick d => cases henv
      | exit pid => cases henv
      | crosvmStart parent => cases henv
      | crosvmExit i => cases henv
      | others pids => cases henv
      | terminate => cases henv
      | sigchld => cases henv
      | deliverChld => cases henv
      | deliverTerm => cases henv
      | _ =>
          simp only [step] at hstep
          split at hstep
          next hat =>
            rw [hat]
            rfl
          next => cases hstep

theorem step_poll {listener : Listener}
    (hstep : step cfg s (.poll listener) = some t) :
    s.pc = .poll ∧ t.sys = s.sys ∧
      ((s.kernel.pipe ≠ [] ∧ t.pc = .drain listener.isClient) ∨
        (s.kernel.pipe = [] ∧
          (t.pc = .accept listener.isClient ∨
            ∃ wakeAt, t.pc = .polling wakeAt))) := by
  simp only [step] at hstep
  split at hstep
  next hpc =>
    split at hstep
    next hunread =>
      cases hstep
      exact ⟨hpc, rfl, Or.inl ⟨hunread, rfl⟩⟩
    next hempty =>
      have hempty : s.kernel.pipe = [] := not_ne_iff.mp hempty
      split at hstep <;> cases hstep
      · exact ⟨hpc, rfl, Or.inr ⟨hempty, Or.inl rfl⟩⟩
      · exact ⟨hpc, rfl, Or.inr ⟨hempty, Or.inr ⟨_, rfl⟩⟩⟩
  next => cases hstep

theorem step_drain (hstep : step cfg s .drain = some t) :
    ∃ client, s.pc = .drain client ∧
      t.kernel = s.kernel.readPipe 64 ∧
      t.pc = if (s.kernel.pipe.take 64).contains 'C'
        then .reap ((s.kernel.pipe.take 64).contains 'T') client
        else afterSignals ((s.kernel.pipe.take 64).contains 'T') client := by
  simp only [step] at hstep
  split at hstep
  next client hpc =>
    refine ⟨client, hpc, ?_⟩
    split at hstep
    next hchld =>
      cases hstep
      exact ⟨rfl, (if_pos hchld).symm⟩
    next hchld =>
      cases hstep
      exact ⟨rfl, (if_neg hchld).symm⟩
  next => cases hstep

/-! ## The startup phase -/

/-- Only `advance_startup` changes the phase, and only the health check changes
the monitor and its clock. -/
theorem step_phase_monitor {l : Label} (hstep : step cfg s l = some t) :
    (l.isStartup = false → t.startup = s.startup) ∧
      ((∀ env, l ≠ .health env) →
        t.health = s.health ∧ t.lastHealth = s.lastHealth) := by
  by_cases hquiet : l.isQuiet = true
  · have hframe := step_quiet hquiet hstep
    exact ⟨fun _ => hframe.startup, fun _ => ⟨hframe.health, hframe.lastHealth⟩⟩
  cases l with
  | exit pid =>
      obtain ⟨-, rfl⟩ := step_exit hstep
      exact ⟨fun _ => rfl, fun _ => ⟨rfl, rfl⟩⟩
  | waitpid raw env =>
      obtain ⟨term, client, -, -, rfl⟩ := step_waitpid hstep
      exact ⟨fun _ => rfl, fun _ => ⟨rfl, rfl⟩⟩
  | request req env written =>
      rcases step_request hstep with ⟨-, ⟨k, -, rfl⟩ | ⟨sys, reply, -, rfl⟩⟩
      · exact ⟨fun _ => rfl, fun _ => ⟨rfl, rfl⟩⟩
      · exact ⟨fun _ => rfl, fun _ => ⟨rfl, rfl⟩⟩
  | startup env =>
      refine ⟨Bool.noConfusion, fun _ => ?_⟩
      rcases step_startup hstep with
        ⟨-, ⟨k, r, m, env', -, -, -, rfl⟩ | ⟨phase, sys, -, rfl⟩⟩
      · exact ⟨rfl, rfl⟩
      · exact ⟨rfl, rfl⟩
  | health env =>
      refine ⟨fun _ => ?_, fun hl => absurd rfl (hl env)⟩
      rcases step_health hstep with
        ⟨-, ⟨-, rfl⟩ | ⟨-, k, -, rfl⟩ | ⟨-, health, sys, -, rfl⟩⟩
      · rfl
      · rfl
      · rfl
  | resetCounts =>
      obtain ⟨-, vm, k, ca, k', -, -, rfl⟩ := step_resetCounts hstep
      exact ⟨fun _ => rfl, fun _ => ⟨rfl, rfl⟩⟩
  | shutdown caKill vmKill =>
      rcases step_shutdown hstep with ⟨-, ⟨k, -, rfl⟩ |
        ⟨ca, k, -, ⟨k', -, rfl⟩ | ⟨vm, k', -, rfl⟩⟩⟩
      · exact ⟨fun _ => rfl, fun _ => ⟨rfl, rfl⟩⟩
      · exact ⟨fun _ => rfl, fun _ => ⟨rfl, rfl⟩⟩
      · exact ⟨fun _ => rfl, fun _ => ⟨rfl, rfl⟩⟩
  | _ => exact absurd rfl hquiet

theorem step_startup_eq {l : Label} (hl : l.isStartup = false)
    (hstep : step cfg s l = some t) : t.startup = s.startup :=
  (step_phase_monitor hstep).1 hl

theorem Advances.of_isFinal {sys sys' : Sys} {env : StartupEnv}
    {phase phase' : StartupPhase} (h : Advances cfg sys env phase phase' sys')
    (hfinal : phase.isFinal = true) : phase' = phase ∧ sys' = sys := by
  cases h with
  | final => exact ⟨rfl, rfl⟩
  | vmRestart hphase =>
      rw [hfinal] at hphase
      cases hphase
  | caRestart hphase =>
      cases phase <;> cases hphase
      cases hfinal
  | _ => cases hfinal

/-- The machine never leaves a final phase. -/
theorem step_isFinal {l : Label} (hfinal : s.startup.isFinal = true)
    (hstep : step cfg s l = some t) : t.startup = s.startup := by
  cases l with
  | startup env =>
      rcases step_startup hstep with
        ⟨-, ⟨k, r, m, env', -, -, -, rfl⟩ | ⟨phase, sys, hadv, rfl⟩⟩
      · rfl
      · exact (hadv.of_isFinal hfinal).1
  | _ => exact step_startup_eq rfl hstep

/-! ## Steps that are possible -/

theorem step_startup_of_isFinal {env : StartupEnv} (hpc : s.pc = .startup)
    (hfinal : s.startup.isFinal = true) :
    step cfg s (.startup env) = some { s with pc := .health } := by
  simp [step, hpc, advanceStartup_of_isFinal hfinal]

theorem exists_resetCounts (cfg : Config) (hpc : s.pc = .reset) :
    ∃ t, step cfg s .resetCounts = some t ∧ t.pc = .poll := by
  simp [step, hpc]

/-- A health probe that connects leads on to the end of the iteration. -/
theorem exists_health (cfg : Config) {env : HealthEnv} (hpc : s.pc = .health)
    (hconnected : env.outcome = .connected) :
    ∃ t, step cfg s (.health env) = some t ∧ t.pc = .reset := by
  have hcheck : ∃ result, healthCheck cfg s.health s.sys env = .ok result := by
    unfold healthCheck
    rw [hconnected]
    split <;> exact ⟨_, rfl⟩
  obtain ⟨⟨health, sys⟩, hcheck⟩ := hcheck
  by_cases hdue : s.lastHealth.elapsed s.kernel.now ≥
      fromSecs cfg.healthIntervalSecs
  · simp [step, hpc, hdue, hcheck]
  · simp [step, hpc, hdue]

/-! ## The end of the program -/

/-- Once the program has ended, only the environment moves. -/
theorem step_ended {l : Label} (hpc : s.pc.isRunning = false)
    (hstep : step cfg s l = some t) :
    t.pc = s.pc ∧ t.sys.mgr = s.sys.mgr ∧
      (l.isQuiet = true ∨ ∃ pid, l = .exit pid) := by
  have henv : l.isEnvironment = true := by
    rcases step_turn hstep with henv | hturn
    · exact henv
    · rw [Pc.isRunning_of_takes hturn] at hpc
      cases hpc
  cases l with
  | tick d =>
      cases hstep
      exact ⟨rfl, rfl, Or.inl rfl⟩
  | exit pid =>
      obtain ⟨-, rfl⟩ := step_exit hstep
      exact ⟨rfl, rfl, Or.inr ⟨pid, rfl⟩⟩
  | crosvmStart parent =>
      simp only [step] at hstep
      split at hstep <;> cases hstep
      exact ⟨rfl, rfl, Or.inl rfl⟩
  | crosvmExit i =>
      cases hstep
      exact ⟨rfl, rfl, Or.inl rfl⟩
  | others pids =>
      simp only [step] at hstep
      split at hstep <;> cases hstep
      exact ⟨rfl, rfl, Or.inl rfl⟩
  | terminate | sigchld =>
      cases hstep
      exact ⟨rfl, rfl, Or.inl rfl⟩
  | deliverChld => simp [step, hpc] at hstep
  | deliverTerm => simp [step, hpc] at hstep
  | _ => cases henv

theorem signalHandler_pc {byte : Char}
    (h : (signalHandler s byte).pc = .exited ∨
      (signalHandler s byte).pc = .panicked) :
    (signalHandler s byte).pc = s.pc := by
  unfold signalHandler at h ⊢
  split at h
  next hroom =>
    rw [if_pos hroom]
    cases hpc : s.pc with
    | polling wakeAt => simp [hpc] at h
    | _ => rfl
  next => simp at h

theorem afterSignals_cases (term client : Bool) :
    afterSignals term client ≠ .exited ∧
      afterSignals term client ≠ .panicked := by
  cases term <;> simp [afterSignals]

/-- Neither a quiet step nor the death of a child ends the program. -/
theorem step_goesOn {l : Label} (hl : l.isQuiet = true ∨ ∃ pid, l = .exit pid)
    (hstep : step cfg s l = some t) (hpc : t.pc = .exited ∨ t.pc = .panicked) :
    t.pc = s.pc := by
  rcases hl with hquiet | ⟨pid, rfl⟩
  · cases l with
    | tick d =>
        cases hstep
        rfl
    | crosvmStart parent =>
        simp only [step] at hstep
        split at hstep <;> cases hstep
        rfl
    | crosvmExit i =>
        cases hstep
        rfl
    | others pids =>
        simp only [step] at hstep
        split at hstep <;> cases hstep
        rfl
    | terminate | sigchld =>
        cases hstep
        rfl
    | deliverChld =>
        simp only [step] at hstep
        split at hstep <;> cases hstep
        exact signalHandler_pc hpc
    | deliverTerm =>
        simp only [step] at hstep
        split at hstep <;> cases hstep
        exact signalHandler_pc hpc
    | poll listener =>
        simp only [step] at hstep
        repeat' split at hstep
        all_goals cases hstep
        all_goals simp at hpc
    | wake listener =>
        simp only [step] at hstep
        repeat' split at hstep
        all_goals cases hstep
        simp at hpc
    | drain =>
        simp only [step] at hstep
        repeat' split at hstep
        all_goals cases hstep
        · simp at hpc
        · simp [afterSignals_cases] at hpc
    | accept ok =>
        simp only [step] at hstep
        split at hstep <;> cases hstep
        dsimp only at hpc
        split at hpc <;> simp at hpc
    | hangup =>
        simp only [step] at hstep
        split at hstep <;> cases hstep
        simp at hpc
    | _ => cases hquiet
  · obtain ⟨-, rfl⟩ := step_exit hstep
    rfl

/-- Only the shutdown ends the program regularly. -/
theorem step_exited {l : Label} (hstep : step cfg s l = some t)
    (hpc : t.pc = .exited) :
    s.pc = .exited ∨ ∃ caKill vmKill, l = .shutdown caKill vmKill := by
  by_cases hquiet : l.isQuiet = true
  · have hsame := step_goesOn (Or.inl hquiet) hstep (Or.inl hpc)
    exact Or.inl (hsame.symm.trans hpc)
  cases l with
  | exit pid =>
      have hsame := step_goesOn (Or.inr ⟨pid, rfl⟩) hstep (Or.inl hpc)
      exact Or.inl (hsame.symm.trans hpc)
  | waitpid raw env =>
      obtain ⟨term, client, hat, -, rfl⟩ := step_waitpid hstep
      dsimp only at hpc
      split at hpc
      next => exact Or.inl hpc
      next => exact absurd hpc (afterSignals_cases _ _).1
  | request req env written =>
      rcases step_request hstep with ⟨-, ⟨k, -, rfl⟩ | ⟨sys, reply, -, rfl⟩⟩
      · cases hpc
      · dsimp only at hpc
        split at hpc <;> cases hpc
  | startup env =>
      rcases step_startup hstep with
        ⟨-, ⟨k, r, m, env', -, -, -, rfl⟩ | ⟨phase, sys, -, rfl⟩⟩ <;> cases hpc
  | health env =>
      rcases step_health hstep with
        ⟨-, ⟨-, rfl⟩ | ⟨-, k, -, rfl⟩ | ⟨-, health, sys, -, rfl⟩⟩ <;> cases hpc
  | resetCounts =>
      obtain ⟨-, vm, k, ca, k', -, -, rfl⟩ := step_resetCounts hstep
      cases hpc
  | shutdown caKill vmKill => exact Or.inr ⟨caKill, vmKill, rfl⟩
  | _ => exact absurd rfl hquiet

end Teeproxyd
