import Teeproxyd.Supervision.Tracking

/-!
# The settings that only reach the children

The number of the VM's processors, its memory, the CA's log level and its admin
token are passed on to the children and looked at nowhere else.  Another choice
of them renames the commands in the log of a run and changes nothing more.
-/

namespace Teeproxyd

open ProcessTable TransitionSystem

variable {cfg : Config} {s t : Daemon} {l : Label}

/-! ## Another choice of the settings -/

/-- The settings that are passed on. -/
structure Passthrough where
  vmCpus : UInt32
  vmMemMb : UInt32
  caLogLevel : String
  caAdminToken : String

def Config.passing (cfg : Config) (p : Passthrough) : Config :=
  { cfg with
    vmCpus := p.vmCpus
    vmMemMb := p.vmMemMb
    caLogLevel := p.caLogLevel
    caAdminToken := p.caAdminToken }

/-- What a manager starts. -/
def Role.command (cfg : Config) : Role → Command
  | .vm => VmManager.command cfg
  | .ca => CaManager.command cfg

/-- The event under another configuration. -/
def Event.rename (cfg : Config) : Event → Event
  | spawned r pid _ => spawned r pid (r.command cfg)
  | e => e

namespace Kernel

/-- The kernel with the commands of its log renamed. -/
def rename (cfg : Config) (k : Kernel) : Kernel :=
  { k with log := k.log.map fun entry => (entry.1, entry.2.rename cfg) }

variable (k : Kernel)

@[simp] theorem rename_now : (k.rename cfg).now = k.now := rfl

@[simp] theorem rename_table : (k.rename cfg).table = k.table := rfl

@[simp] theorem rename_others : (k.rename cfg).others = k.others := rfl

theorem rename_kill (pid : Pid) (sig : Signal) :
    (k.rename cfg).kill pid sig = (k.kill pid sig).rename cfg := by
  cases sig with
  | sigterm => rfl
  | sigkill =>
      unfold kill
      dsimp only
      rw [apply_ite (rename cfg)]
      rfl

theorem rename_pkillChildren (pid : Pid) :
    (k.rename cfg).pkillChildren pid = (k.pkillChildren pid).rename cfg := rfl

theorem rename_pkillCrosvm :
    (k.rename cfg).pkillCrosvm = k.pkillCrosvm.rename cfg := rfl

end Kernel

/-- What a call that may panic leaves behind, renamed; a panic leaves its
kernel. -/
def renameOutcome {α : Type} (cfg : Config) (f : α → α) :
    Except Kernel α → Except Kernel α
  | .error k => .error (k.rename cfg)
  | .ok a => .ok (f a)

/-! ## The functions of the daemon -/

section Processes

variable (k : Kernel) (pid : Pid)

theorem isAlive_rename : isAlive (k.rename cfg) pid = isAlive k pid := rfl

theorem sleep_rename (d : ℕ) (env : KillEnv) :
    sleep (k.rename cfg) d pid env = (sleep k d pid env).rename cfg := by
  unfold sleep
  dsimp only
  rw [apply_ite (Kernel.rename cfg)]
  rfl

theorem gracefulPoll_rename (deadline : Instant) (env : KillEnv) (n : ℕ) :
    gracefulPoll pid deadline env n (k.rename cfg) =
      (gracefulPoll pid deadline env n k).map (Kernel.rename cfg) id := by
  induction n generalizing k with
  | zero => rfl
  | succ n ih =>
      simp only [gracefulPoll, Kernel.rename_now, isAlive_rename, sleep_rename,
        ih]
      split
      · split <;> rfl
      · rfl

theorem forceKill_rename (env : KillEnv) :
    forceKill (k.rename cfg) pid env =
      (forceKill k pid env).map (Kernel.rename cfg) id := by
  unfold forceKill
  rw [Kernel.rename_kill, sleep_rename]
  rfl

theorem awaitDeadline_rename (deadline : Instant) (env : KillEnv) :
    awaitDeadline (k.rename cfg) pid deadline env =
      (awaitDeadline k pid deadline env).map (Kernel.rename cfg) id := by
  unfold awaitDeadline
  rw [gracefulPoll_rename, Kernel.rename_now]
  obtain ⟨k', gone⟩ :=
    gracefulPoll pid deadline env (pollBound k.now deadline) k
  cases gone with
  | true => rfl
  | false => exact forceKill_rename k' pid env

theorem gracefulKill_rename (graceSecs : UInt64) (env : KillEnv) :
    gracefulKill (k.rename cfg) pid graceSecs env =
      renameOutcome cfg (Prod.map (Kernel.rename cfg) id)
        (gracefulKill k pid graceSecs env) := by
  unfold gracefulKill
  rw [isAlive_rename, Kernel.rename_kill]
  split
  · rfl
  · simp only [Kernel.rename_now]
    cases Instant.plus (k.kill pid .sigterm).now (fromSecs graceSecs) with
    | none => rfl
    | some deadline =>
        exact congrArg Except.ok (awaitDeadline_rename _ pid deadline env)

theorem killTree_rename :
    killTree (k.rename cfg) pid = (killTree k pid).rename cfg := by
  unfold killTree
  rw [Kernel.rename_kill, Kernel.rename_pkillChildren]

end Processes

def Sys.rename (cfg : Config) (sys : Sys) : Sys :=
  { sys with kernel := sys.kernel.rename cfg }

@[simp] theorem Sys.rename_vm (cfg : Config) (sys : Sys) :
    (sys.rename cfg).vm = sys.vm := rfl

@[simp] theorem Sys.rename_ca (cfg : Config) (sys : Sys) :
    (sys.rename cfg).ca = sys.ca := rfl

@[simp] theorem Sys.rename_kernel (cfg : Config) (sys : Sys) :
    (sys.rename cfg).kernel = sys.kernel.rename cfg := rfl

section Managers

variable (cfg : Config) (p : Passthrough) (r : Role) (m : Manager) (k : Kernel)

theorem startWith_rename (command : Command) (context : String)
    (env : SpawnEnv) :
    m.startWith (k.rename cfg) r (r.command cfg) context env =
      (m.startWith k r command context env).map id
        (Prod.map (Kernel.rename cfg) id) := by
  unfold Manager.startWith spawnWithLog
  cases env.answer with
  | error e => rfl
  | ok hint => rfl

theorem start_rename (env : StartEnv) :
    r.start (cfg.passing p) m (k.rename (cfg.passing p)) env =
      (r.start cfg m k env).map id
        (Prod.map (Kernel.rename (cfg.passing p)) id) := by
  cases r with
  | vm =>
      have himages : VmManager.validateImages (cfg.passing p) env =
          VmManager.validateImages cfg env := rfl
      simp only [Role.start, VmManager.start, himages]
      cases VmManager.validateImages cfg env with
      | error e => rfl
      | ok => exact startWith_rename (cfg.passing p) .vm m k _ _ env.spawn
  | ca =>
      simp only [Role.start, CaManager.start]
      rw [apply_ite (Prod.map _ _)]
      exact if_congr Iff.rfl rfl
        (startWith_rename (cfg.passing p) .ca m k _ _ env.spawn)

theorem stopWith_rename (graceSecs : UInt64) {sweep : Kernel → Pid → Kernel}
    (hsweep : ∀ k pid, sweep (k.rename cfg) pid = (sweep k pid).rename cfg)
    (env : KillEnv) :
    m.stopWith (k.rename cfg) r graceSecs sweep env =
      renameOutcome cfg (Prod.map id (Kernel.rename cfg))
        (m.stopWith k r graceSecs sweep env) := by
  unfold Manager.stopWith
  cases m.childPid with
  | none => rfl
  | some pid =>
      dsimp only
      rw [gracefulKill_rename]
      cases gracefulKill k pid graceSecs env with
      | error k' => rfl
      | ok result =>
          obtain ⟨k', gone⟩ := result
          simp only [renameOutcome, Prod.map, hsweep]
          rfl

theorem stop_rename (env : KillEnv) :
    r.stop (cfg.passing p) m (k.rename (cfg.passing p)) env =
      renameOutcome (cfg.passing p)
        (Prod.map id (Kernel.rename (cfg.passing p)))
        (r.stop cfg m k env) := by
  cases r with
  | vm =>
      refine stopWith_rename _ .vm m k _ ?_ env
      intro k pid
      rw [killTree_rename, Kernel.rename_pkillCrosvm]
  | ca => exact stopWith_rename _ .ca m k _ (fun _ _ => rfl) env

end Managers

section Calls

variable (cfg : Config) (p : Passthrough) (sys : Sys)

section Startup

variable {sys} {env : StartupEnv} {deadline bootStart : Instant}

theorem advanceStartup_rename_vmStarting
    (hvm : sys.vm.isDead sys.kernel = false) :
    advanceStartup (cfg.passing p) .vmStarting (sys.rename (cfg.passing p))
        env =
      renameOutcome (cfg.passing p) (Prod.map id (Sys.rename (cfg.passing p)))
        (advanceStartup cfg .vmStarting sys env) := by
  have hvm' : (sys.rename (cfg.passing p)).vm.isDead
      (sys.rename (cfg.passing p)).kernel = false := hvm
  have hstart : VmManager.start (cfg.passing p)
      (sys.rename (cfg.passing p)).vm (sys.rename (cfg.passing p)).kernel
      env.vmStart = _ :=
    start_rename cfg p .vm sys.vm sys.kernel env.vmStart
  have hsum : fromSecs ((cfg.passing p).vsockProbeDelaySecs +
      (cfg.passing p).vmBootTimeoutSecs) =
    fromSecs (cfg.vsockProbeDelaySecs + cfg.vmBootTimeoutSecs) := rfl
  rw [advanceStartup_vmStarting hvm, advanceStartup_vmStarting hvm', hstart,
    hsum]
  dsimp only [Role.start]
  generalize VmManager.start cfg sys.vm sys.kernel env.vmStart = started
  obtain ⟨vm, k, error | ok⟩ := started
  · rfl
  · dsimp only [Prod.map, id, Kernel.rename_now]
    cases k.now.plus
        (fromSecs (cfg.vsockProbeDelaySecs + cfg.vmBootTimeoutSecs)) with
    | none => rfl
    | some deadline => rfl

theorem advanceStartup_rename_waitingVsock {delayDone : Bool}
    (hvm : sys.vm.isDead sys.kernel = false) :
    advanceStartup (cfg.passing p) (.waitingVsock deadline bootStart delayDone)
        (sys.rename (cfg.passing p)) env =
      renameOutcome (cfg.passing p) (Prod.map id (Sys.rename (cfg.passing p)))
        (advanceStartup cfg (.waitingVsock deadline bootStart delayDone) sys
          env) := by
  have hvm' : (sys.rename (cfg.passing p)).vm.isDead
      (sys.rename (cfg.passing p)).kernel = false := hvm
  cases delayDone with
  | false =>
      rw [advanceStartup_delay hvm, advanceStartup_delay hvm']
      rfl
  | true =>
      rw [advanceStartup_probeVsock hvm, advanceStartup_probeVsock hvm']
      dsimp only
      rw [apply_ite (renameOutcome _ _), apply_ite (renameOutcome _ _)]
      rfl

theorem advanceStartup_rename_caStarting
    (hvm : sys.vm.isDead sys.kernel = false) :
    advanceStartup (cfg.passing p) .caStarting (sys.rename (cfg.passing p))
        env =
      renameOutcome (cfg.passing p) (Prod.map id (Sys.rename (cfg.passing p)))
        (advanceStartup cfg .caStarting sys env) := by
  have hvm' : (sys.rename (cfg.passing p)).vm.isDead
      (sys.rename (cfg.passing p)).kernel = false := hvm
  have hstart : CaManager.start (cfg.passing p)
      (sys.rename (cfg.passing p)).ca (sys.rename (cfg.passing p)).kernel
      env.caStart = _ :=
    start_rename cfg p .ca sys.ca sys.kernel env.caStart
  have hwait : (cfg.passing p).caReadyTimeoutSecs =
    cfg.caReadyTimeoutSecs := rfl
  rw [advanceStartup_caStarting hvm, advanceStartup_caStarting hvm', hstart,
    hwait]
  dsimp only [Role.start]
  generalize CaManager.start cfg sys.ca sys.kernel env.caStart = started
  obtain ⟨ca, k, error | ok⟩ := started
  · rfl
  · dsimp only [Prod.map, id, Kernel.rename_now]
    cases k.now.plus (fromSecs cfg.caReadyTimeoutSecs) with
    | none => rfl
    | some deadline => rfl

theorem advanceStartup_rename_waitingCaPort
    (hvm : sys.vm.isDead sys.kernel = false) :
    advanceStartup (cfg.passing p) (.waitingCaPort deadline)
        (sys.rename (cfg.passing p)) env =
      renameOutcome (cfg.passing p) (Prod.map id (Sys.rename (cfg.passing p)))
        (advanceStartup cfg (.waitingCaPort deadline) sys env) := by
  have hvm' : (sys.rename (cfg.passing p)).vm.isDead
      (sys.rename (cfg.passing p)).kernel = false := hvm
  cases hca : sys.ca.isDead sys.kernel with
  | true =>
      have hca' : (sys.rename (cfg.passing p)).ca.isDead
          (sys.rename (cfg.passing p)).kernel = true := hca
      rw [advanceStartup_caDead hvm rfl hca, advanceStartup_caDead hvm' rfl hca']
      rfl
  | false =>
      have hca' : (sys.rename (cfg.passing p)).ca.isDead
          (sys.rename (cfg.passing p)).kernel = false := hca
      rw [advanceStartup_waitingCaPort hvm hca,
        advanceStartup_waitingCaPort hvm' hca']
      dsimp only
      rw [apply_ite (renameOutcome _ _), apply_ite (renameOutcome _ _)]
      rfl

end Startup

theorem advanceStartup_rename (startup : StartupPhase) (env : StartupEnv) :
    advanceStartup (cfg.passing p) startup (sys.rename (cfg.passing p)) env =
      renameOutcome (cfg.passing p)
        (Prod.map id (Sys.rename (cfg.passing p)))
        (advanceStartup cfg startup sys env) := by
  cases hfinal : startup.isFinal with
  | true =>
      rw [advanceStartup_of_isFinal hfinal, advanceStartup_of_isFinal hfinal]
      rfl
  | false =>
  cases hvm : sys.vm.isDead sys.kernel with
  | true =>
      have hvm' : (sys.rename (cfg.passing p)).vm.isDead
          (sys.rename (cfg.passing p)).kernel = true := hvm
      rw [advanceStartup_vmDead hfinal hvm, advanceStartup_vmDead hfinal hvm']
      rfl
  | false =>
  cases startup with
  | notStarted | complete | failed => cases hfinal
  | vmStarting => exact advanceStartup_rename_vmStarting cfg p hvm
  | waitingVsock => exact advanceStartup_rename_waitingVsock cfg p hvm
  | caStarting => exact advanceStartup_rename_caStarting cfg p hvm
  | waitingCaPort => exact advanceStartup_rename_waitingCaPort cfg p hvm

theorem handleChildDeath_rename (pid : Pid) (env : StartEnv) :
    handleChildDeath (cfg.passing p) pid (sys.rename (cfg.passing p)) env =
      (handleChildDeath cfg pid sys env).rename (cfg.passing p) := by
  unfold handleChildDeath
  rw [apply_ite (Sys.rename _)]
  refine if_congr Iff.rfl ?_ ?_
  · dsimp only
    rw [apply_ite (Sys.rename _)]
    rfl
  · rw [apply_ite (Sys.rename _)]
    refine if_congr Iff.rfl ?_ rfl
    dsimp only
    rw [apply_ite (Sys.rename _)]
    refine if_congr Iff.rfl ?_ rfl
    have hstart : CaManager.start (cfg.passing p) sys.ca.markDead
        ((sys.rename (cfg.passing p)).kernel.emit (.died .ca pid)) env = _ :=
      start_rename cfg p .ca sys.ca.markDead
        (sys.kernel.emit (.died .ca pid)) env
    dsimp only [Sys.rename_ca]
    rw [hstart]
    rfl

theorem reapIteration_rename (raw : Option (Pid × ExitStatus))
    (env : StartEnv) :
    reapIteration (cfg.passing p) raw (sys.rename (cfg.passing p)) env =
      (reapIteration cfg raw sys env).map (Sys.rename (cfg.passing p)) id := by
  have hdeath : ∀ pid, handleChildDeath (cfg.passing p) pid
      { sys.rename (cfg.passing p) with
        kernel := (sys.rename (cfg.passing p)).kernel.reap pid } env = _ :=
    fun pid => handleChildDeath_rename cfg p
      { sys with kernel := sys.kernel.reap pid } pid env
  unfold reapIteration
  cases hdecode : decodeWait raw with
  | exited pid code =>
      dsimp only
      rw [hdeath]
      rfl
  | signaled pid sig =>
      dsimp only
      rw [hdeath]
      rfl
  | stillAlive => cases raw <;> rfl
  | err => cases raw <;> rfl

theorem healthCheck_rename (health : HealthMonitor) (env : HealthEnv) :
    healthCheck (cfg.passing p) health (sys.rename (cfg.passing p)) env =
      renameOutcome (cfg.passing p) (Prod.map id (Sys.rename (cfg.passing p)))
        (healthCheck cfg health sys env) := by
  unfold healthCheck
  rw [apply_ite (renameOutcome _ _)]
  refine if_congr Iff.rfl ?_ rfl
  dsimp only
  generalize health.probe env.outcome = result
  obtain ⟨health', verdict⟩ := result
  cases verdict with
  | ok => rfl
  | degraded n => rfl
  | restartNeeded =>
      have hstop : CaManager.stop (cfg.passing p)
          (sys.rename (cfg.passing p)).ca
          (((sys.rename (cfg.passing p)).kernel.advance env.took).emit
            (.healthProbe env.outcome)) env.kill = _ :=
        stop_rename cfg p .ca sys.ca
          ((sys.kernel.advance env.took).emit (.healthProbe env.outcome))
          env.kill
      dsimp only
      rw [hstop]
      dsimp only [Role.stop]
      cases CaManager.stop cfg sys.ca
        ((sys.kernel.advance env.took).emit (.healthProbe env.outcome))
        env.kill with
      | error k => rfl
      | ok result =>
          have hstart : CaManager.start (cfg.passing p) result.1
              (result.2.rename (cfg.passing p)) env.start = _ :=
            start_rename cfg p .ca result.1 result.2 env.start
          dsimp only [renameOutcome, Prod.map, id, bind, Except.bind]
          rw [hstart]
          rfl

section Handlers

variable (env : RequestEnv)

theorem handleStartAll_rename :
    handleStartAll (cfg.passing p) (sys.rename (cfg.passing p)) env =
      (handleStartAll cfg sys env).map (Sys.rename (cfg.passing p)) id := by
  have hstart : VmManager.start (cfg.passing p)
      (sys.rename (cfg.passing p)).vm (sys.rename (cfg.passing p)).kernel
      env.vmStart = _ :=
    start_rename cfg p .vm sys.vm sys.kernel env.vmStart
  unfold handleStartAll
  rw [hstart]
  dsimp only [Role.start]
  generalize VmManager.start cfg sys.vm sys.kernel env.vmStart = started
  obtain ⟨vm, k, error | ok⟩ := started
  · rfl
  · rfl

theorem handleStartVm_rename :
    handleStartVm (cfg.passing p) (sys.rename (cfg.passing p)) env =
      (handleStartVm cfg sys env).map (Sys.rename (cfg.passing p)) id := by
  have hstart : VmManager.start (cfg.passing p)
      (sys.rename (cfg.passing p)).vm (sys.rename (cfg.passing p)).kernel
      env.vmStart = _ :=
    start_rename cfg p .vm sys.vm sys.kernel env.vmStart
  unfold handleStartVm
  rw [hstart]
  dsimp only [Role.start]
  generalize VmManager.start cfg sys.vm sys.kernel env.vmStart = started
  obtain ⟨vm, k, error | ok⟩ := started
  · rfl
  · rfl

theorem handleStartCa_rename :
    handleStartCa (cfg.passing p) (sys.rename (cfg.passing p)) env =
      (handleStartCa cfg sys env).map (Sys.rename (cfg.passing p)) id := by
  have hstart : CaManager.start (cfg.passing p)
      (sys.rename (cfg.passing p)).ca (sys.rename (cfg.passing p)).kernel
      env.caStart = _ :=
    start_rename cfg p .ca sys.ca sys.kernel env.caStart
  unfold handleStartCa
  rw [hstart]
  dsimp only [Role.start]
  generalize CaManager.start cfg sys.ca sys.kernel env.caStart = started
  obtain ⟨ca, k, error | ok⟩ := started
  · rfl
  · rfl

theorem handleStopVm_rename :
    handleStopVm (cfg.passing p) (sys.rename (cfg.passing p)) env =
      renameOutcome (cfg.passing p) (Prod.map (Sys.rename (cfg.passing p)) id)
        (handleStopVm cfg sys env) := by
  have hstop : VmManager.stop (cfg.passing p)
      (sys.rename (cfg.passing p)).vm (sys.rename (cfg.passing p)).kernel
      env.vmKill = _ :=
    stop_rename cfg p .vm sys.vm sys.kernel env.vmKill
  unfold handleStopVm
  rw [hstop]
  dsimp only [Role.stop]
  cases VmManager.stop cfg sys.vm sys.kernel env.vmKill with
  | error k => rfl
  | ok result => rfl

theorem handleStopCa_rename :
    handleStopCa (cfg.passing p) (sys.rename (cfg.passing p)) env =
      renameOutcome (cfg.passing p) (Prod.map (Sys.rename (cfg.passing p)) id)
        (handleStopCa cfg sys env) := by
  have hstop : CaManager.stop (cfg.passing p)
      (sys.rename (cfg.passing p)).ca (sys.rename (cfg.passing p)).kernel
      env.caKill = _ :=
    stop_rename cfg p .ca sys.ca sys.kernel env.caKill
  unfold handleStopCa
  rw [hstop]
  dsimp only [Role.stop]
  cases CaManager.stop cfg sys.ca sys.kernel env.caKill with
  | error k => rfl
  | ok result => rfl

theorem handleStopAll_rename :
    handleStopAll (cfg.passing p) (sys.rename (cfg.passing p)) env =
      renameOutcome (cfg.passing p) (Prod.map (Sys.rename (cfg.passing p)) id)
        (handleStopAll cfg sys env) := by
  have hca : CaManager.stop (cfg.passing p)
      (sys.rename (cfg.passing p)).ca (sys.rename (cfg.passing p)).kernel
      env.caKill = _ :=
    stop_rename cfg p .ca sys.ca sys.kernel env.caKill
  unfold handleStopAll
  rw [hca]
  dsimp only [Role.stop]
  cases CaManager.stop cfg sys.ca sys.kernel env.caKill with
  | error k => rfl
  | ok result =>
      have hvm : VmManager.stop (cfg.passing p)
          (sys.rename (cfg.passing p)).vm (result.2.rename (cfg.passing p))
          env.vmKill = _ :=
        stop_rename cfg p .vm sys.vm result.2 env.vmKill
      dsimp only [renameOutcome, Prod.map, id, bind, Except.bind]
      rw [hvm]
      dsimp only [Role.stop]
      cases VmManager.stop cfg sys.vm result.2 env.vmKill with
      | error k => rfl
      | ok result => rfl

/-- The tail of a log file is read from where it is, and the CID and the port in
a status are not among the settings. -/
theorem dispatch_rename (startup : StartupPhase) (startedAt : Instant)
    (req : Value) :
    dispatch (cfg.passing p) startup startedAt req
        (sys.rename (cfg.passing p)) env =
      renameOutcome (cfg.passing p) (Prod.map (Sys.rename (cfg.passing p)) id)
        (dispatch cfg startup startedAt req sys env) := by
  unfold dispatch
  cases requestCmd req with
  | ping | status | tailLog | unknown cmd => rfl
  | startAll => exact congrArg Except.ok (handleStartAll_rename cfg p sys env)
  | startVm => exact congrArg Except.ok (handleStartVm_rename cfg p sys env)
  | startCa => exact congrArg Except.ok (handleStartCa_rename cfg p sys env)
  | stopAll => exact handleStopAll_rename cfg p sys env
  | stopVm => exact handleStopVm_rename cfg p sys env
  | stopCa => exact handleStopCa_rename cfg p sys env

end Handlers

end Calls

/-! ## Steps -/

def Daemon.rename (cfg : Config) (s : Daemon) : Daemon :=
  { s with sys := s.sys.rename cfg }

theorem signalHandler_rename (byte : Char) :
    signalHandler (s.rename cfg) byte = (signalHandler s byte).rename cfg := by
  unfold signalHandler
  rw [apply_ite (Daemon.rename cfg)]
  rfl

/-- The step is the same one under another choice of the settings, with the
commands of the log renamed. -/
def StepRenames (cfg : Config) (p : Passthrough) (s : Daemon) (l : Label) :
    Prop :=
  step (cfg.passing p) (s.rename (cfg.passing p)) l =
    (step cfg s l).map (Daemon.rename (cfg.passing p))

section StepKinds

variable (cfg : Config) (p : Passthrough) (s : Daemon)

theorem step_rename_environment (henv : l.isEnvironment = true) :
    StepRenames cfg p s l := by
  have hsignal : ∀ (k : Kernel) (byte : Char),
      signalHandler ((s.rename (cfg.passing p)).withKernel
          (k.rename (cfg.passing p))) byte =
        (signalHandler (s.withKernel k) byte).rename (cfg.passing p) :=
    fun k byte => signalHandler_rename (s := s.withKernel k) byte
  unfold StepRenames
  cases l with
  | tick d => rfl
  | exit pid | crosvmStart parent | others pids =>
      simp only [step]
      rw [apply_ite (Option.map _)]
      rfl
  | crosvmExit i => rfl
  | terminate | sigchld => rfl
  | deliverChld =>
      simp only [step]
      rw [apply_ite (Option.map _)]
      exact if_congr Iff.rfl (congrArg some
        (hsignal { s.kernel with chldPending := false } 'C')) rfl
  | deliverTerm =>
      simp only [step]
      rw [apply_ite (Option.map _)]
      exact if_congr Iff.rfl (congrArg some
        (hsignal { s.kernel with termPending := false } 'T')) rfl
  | _ => cases henv

theorem step_rename_move (hmove : l.isMove = true) : StepRenames cfg p s l := by
  obtain ⟨pc, sys, startup, health, lastHealth, startedAt⟩ := s
  unfold StepRenames
  cases l with
  | poll listener =>
      cases pc with
      | poll =>
          simp only [step]
          rw [apply_ite (Option.map _), apply_ite (Option.map _)]
          rfl
      | _ => rfl
  | wake listener =>
      cases pc with
      | polling wakeAt =>
          simp only [step]
          rw [apply_ite (Option.map _)]
          rfl
      | _ => rfl
  | accept ok => cases pc <;> rfl
  | hangup => cases pc <;> rfl
  | _ => cases hmove

theorem step_rename_drain : StepRenames cfg p s .drain := by
  obtain ⟨pc, sys, startup, health, lastHealth, startedAt⟩ := s
  unfold StepRenames
  cases pc with
  | drain client =>
      simp only [step]
      rw [apply_ite (Option.map _)]
      rfl
  | _ => rfl

theorem step_rename_waitpid (raw : Option (Pid × ExitStatus))
    (env : StartEnv) : StepRenames cfg p s (.waitpid raw env) := by
  obtain ⟨pc, sys, startup, health, lastHealth, startedAt⟩ := s
  unfold StepRenames
  cases pc with
  | reap term client =>
      have hreap := reapIteration_rename cfg p sys raw env
      have hsys := congrArg Prod.fst hreap
      have hagain := congrArg Prod.snd hreap
      let after (pc : Pc) (sys : Sys) : Option Daemon :=
        some ⟨pc, sys, startup, health, lastHealth, startedAt⟩
      simp only [step]
      rw [apply_ite (Option.map _)]
      refine if_congr Iff.rfl ?_ rfl
      rw [apply_ite (Option.map _)]
      exact if_congr (Eq.congr_left hagain)
        (congrArg (after (.reap term client)) hsys)
        (congrArg (after (afterSignals term client)) hsys)
  | _ => rfl

theorem step_rename_request (req : Value) (env : RequestEnv) (written : Bool) :
    StepRenames cfg p s (.request req env written) := by
  obtain ⟨pc, sys, startup, health, lastHealth, startedAt⟩ := s
  unfold StepRenames
  cases pc with
  | session =>
      simp only [step, Daemon.rename]
      rw [dispatch_rename]
      cases dispatch cfg startup startedAt req sys env with
      | error k => rfl
      | ok result => rfl
  | _ => rfl

theorem step_rename_startup (env : StartupEnv) :
    StepRenames cfg p s (.startup env) := by
  obtain ⟨pc, sys, startup, health, lastHealth, startedAt⟩ := s
  unfold StepRenames
  cases pc with
  | startup =>
      simp only [step, Daemon.rename]
      rw [advanceStartup_rename]
      cases advanceStartup cfg startup sys env with
      | error k => rfl
      | ok result => rfl
  | _ => rfl

theorem step_rename_health (env : HealthEnv) :
    StepRenames cfg p s (.health env) := by
  obtain ⟨pc, sys, startup, health, lastHealth, startedAt⟩ := s
  unfold StepRenames
  cases pc with
  | health =>
      simp only [step, Daemon.rename]
      rw [healthCheck_rename, apply_ite (Option.map _)]
      refine if_congr Iff.rfl ?_ rfl
      cases healthCheck cfg health sys env with
      | error k => rfl
      | ok result => rfl
  | _ => rfl

theorem step_rename_resetCounts : StepRenames cfg p s .resetCounts := by
  have hcount : ∀ (m : Manager) (k : Kernel) (r : Role),
      m.maybeResetCrashCount (k.rename (cfg.passing p)) r =
        (m.maybeResetCrashCount k r).map id (Kernel.rename (cfg.passing p)) := by
    intro m k r
    unfold Manager.maybeResetCrashCount
    rw [apply_ite (Prod.map _ _)]
    rfl
  obtain ⟨pc, sys, startup, health, lastHealth, startedAt⟩ := s
  unfold StepRenames
  cases pc with
  | reset =>
      simp only [step, Daemon.rename, Daemon.vm, Daemon.ca, Daemon.kernel,
        Sys.rename_vm, Sys.rename_ca, Sys.rename_kernel, hcount,
        Prod.map_fst, Prod.map_snd]
      rfl
  | _ => rfl

theorem step_rename_shutdown (caKill vmKill : KillEnv) :
    StepRenames cfg p s (.shutdown caKill vmKill) := by
  obtain ⟨pc, sys, startup, health, lastHealth, startedAt⟩ := s
  unfold StepRenames
  cases pc with
  | shutdown =>
      have hca : CaManager.stop (cfg.passing p) sys.ca
          (sys.kernel.rename (cfg.passing p)) caKill = _ :=
        stop_rename cfg p .ca sys.ca sys.kernel caKill
      simp only [step, Daemon.rename, Daemon.vm, Daemon.ca, Daemon.kernel,
        Sys.rename_vm, Sys.rename_ca, Sys.rename_kernel]
      rw [hca]
      dsimp only [Role.stop]
      cases CaManager.stop cfg sys.ca sys.kernel caKill with
      | error k => rfl
      | ok result =>
          have hvm : VmManager.stop (cfg.passing p) sys.vm
              (result.2.rename (cfg.passing p)) vmKill = _ :=
            stop_rename cfg p .vm sys.vm result.2 vmKill
          dsimp only [renameOutcome, Prod.map, id]
          rw [hvm]
          dsimp only [Role.stop]
          cases VmManager.stop cfg sys.vm result.2 vmKill with
          | error k => rfl
          | ok result => rfl
  | _ => rfl

theorem step_rename (l : Label) : StepRenames cfg p s l := by
  by_cases henv : l.isEnvironment = true
  · exact step_rename_environment cfg p s henv
  by_cases hmove : l.isMove = true
  · exact step_rename_move cfg p s hmove
  cases l with
  | drain => exact step_rename_drain cfg p s
  | waitpid raw env => exact step_rename_waitpid cfg p s raw env
  | request req env written => exact step_rename_request cfg p s req env written
  | startup env => exact step_rename_startup cfg p s env
  | health env => exact step_rename_health cfg p s env
  | resetCounts => exact step_rename_resetCounts cfg p s
  | shutdown caKill vmKill => exact step_rename_shutdown cfg p s caKill vmKill
  | poll | wake | accept | hangup => exact absurd rfl hmove
  | _ => exact absurd rfl henv

end StepKinds

/-! ## Runs -/

/-- The settings that are passed on steer nothing: under another choice of them,
a list of labels can be run if and only if it could be run before, and the run
ends in the same state, with the same log but for the command lines that the
children were started with. -/
theorem runs_rename (cfg : Config) (p : Passthrough) (now : Instant)
    (ls : List Label) :
    exec (step (cfg.passing p)) (init (cfg.passing p) now) ls =
      (exec (step cfg) (init cfg now) ls).map
        (Daemon.rename (cfg.passing p)) :=
  exec_map (Daemon.rename (cfg.passing p)) (step_rename cfg p) (init cfg now) ls

/-- The choice of the settings that a configuration has already. -/
def Config.passthrough (cfg : Config) : Passthrough where
  vmCpus := cfg.vmCpus
  vmMemMb := cfg.vmMemMb
  caLogLevel := cfg.caLogLevel
  caAdminToken := cfg.caAdminToken

/-- The daemon never starts anything but the two command lines that its
configuration gives: a run is renamed to itself. -/
theorem spawned_commands {now : Instant} {ls : List Label}
    (hrun : exec (step cfg) (init cfg now) ls = some s) :
    ∀ at' r pid command, (at', Event.spawned r pid command) ∈ s.kernel.log →
      command = r.command cfg := by
  have hsame : exec (step cfg) (init cfg now) ls =
      (exec (step cfg) (init cfg now) ls).map (Daemon.rename cfg) :=
    exec_map (Daemon.rename cfg) (step_rename cfg cfg.passthrough)
      (init cfg now) ls
  rw [hrun] at hsame
  have hlog : s.kernel.log =
      s.kernel.log.map fun entry => (entry.1, entry.2.rename cfg) :=
    congrArg (fun t => t.kernel.log) (Option.some.inj hsame)
  intro at' r pid command hmem
  rw [hlog] at hmem
  obtain ⟨⟨at'', e⟩, -, hentry⟩ := List.mem_map.mp hmem
  cases e <;> cases hentry
  rfl

/-- The start up to `Complete`: one VM and one CA. -/
theorem spawned_commands_bootUp :
    ∃ s at' pid command, after bootUp = some s ∧
      (at', Event.spawned .ca pid command) ∈ s.kernel.log ∧
      command = CaManager.command Config.default := by
  obtain ⟨s, hafter, hspawned⟩ := exists_after bootUp
    (P := fun s => (fromSecs 15, Event.spawned .ca 200
      (CaManager.command Config.default)) ∈ s.kernel.log) (by decide)
  exact ⟨s, fromSecs 15, 200, _, hafter, hspawned,
    spawned_commands hafter _ .ca 200 _ hspawned⟩

end Teeproxyd
