import Teeproxyd.Fleet.Cause

/-!
# A rule for what a step does to the kernel

Between the state before a step and the one after it, the kernel has gone
through a few calls: processes are started, stopped and reaped, and what
happens is noted.  A relation that every such call establishes holds across the
step, whichever code made the calls.
-/

namespace Teeproxyd

open ProcessTable

variable {cfg : Config} {s t : Daemon} {l : Label}
  {R : Kernel → Kernel → Prop} {can : Manager → Table Role → Prop}

/-- The event is about the records of the daemon, not about a process. -/
def Event.isNote : Event → Bool
  | exited _ | spawned .. | signalled .. | pkilledChildren .. => false
  | pkilledCrosvm => false
  | _ => true

/-- The calls that a step makes establish the relation.  `can` says which
managers may be stopped; a stop leaves that as it is. -/
structure StepRule (cfg : Config) (l : Label)
    (can : Manager → Table Role → Prop) (R : Kernel → Kernel → Prop) :
    Prop where
  trans {k k' k'' : Kernel} : R k k' → R k' k'' → R k k''
  unseen {k k' : Kernel} : k'.table = k.table → k'.log = k.log → R k k'
  note (k : Kernel) {e : Event} : e.isNote = true → R k (k.emit e)
  exit (k : Kernel) {pid : Pid} : l = .exit pid → R k (k.exitProc pid)
  reap (k : Kernel) {pid : Pid} : k.table.isZombie pid = true →
    R k (k.reap pid)
  start {r : Role} {m m' : Manager} {k k' : Kernel} {env : StartEnv}
    {result : Except String Unit} :
    r.start cfg m k env = (m', k', result) → R k k'
  stop {r : Role} {m m' : Manager} {k k' : Kernel} {env : KillEnv} :
    can m k.table → r.stop cfg m k env = .ok (m', k') →
      R k k' ∧ ∀ m, can m k.table → can m k'.table
  stopPanics {r : Role} {m : Manager} {k k' : Kernel} {env : KillEnv} :
    can m k.table → r.stop cfg m k env = .error k' → R k k'

namespace StepRule

theorem refl (h : StepRule cfg l can R) (k : Kernel) : R k k :=
  h.unseen rfl rfl

/-! ## The code that makes the calls -/

theorem handleChildDeath (h : StepRule cfg l can R) (pid : Pid) (sys : Sys)
    (env : StartEnv) :
    R sys.kernel (handleChildDeath cfg pid sys env).kernel := by
  unfold Teeproxyd.handleChildDeath
  split
  · dsimp only
    split
    · exact h.trans (h.note _ rfl) (h.note _ rfl)
    · exact h.note _ rfl
  · split
    · dsimp only
      split
      · exact h.trans (h.note _ rfl) (h.start (r := .ca) rfl)
      · exact h.trans (h.note _ rfl) (h.note _ rfl)
    · exact h.note _ rfl

theorem reapIteration (h : StepRule cfg l can R)
    {raw : Option (Pid × ExitStatus)} {sys : Sys} (env : StartEnv)
    (hreports : waitpidReports sys.kernel raw = true) :
    R sys.kernel (reapIteration cfg raw sys env).1.kernel := by
  cases raw with
  | none => exact h.refl _
  | some report =>
      obtain ⟨pid, status⟩ := report
      have hreap : R sys.kernel (sys.kernel.reap pid) := h.reap _ hreports
      rcases reapIteration_some pid status env with
        ⟨-, -, hiter⟩ | ⟨-, -, hiter⟩
      · rw [hiter]
        exact h.trans hreap
          (h.handleChildDeath pid { sys with kernel := sys.kernel.reap pid } env)
      · rw [hiter]
        exact h.trans hreap (h.note (e := .lost pid) _ rfl)

theorem advances (h : StepRule cfg l can R) {env : StartupEnv} {sys sys' : Sys}
    {phase phase' : StartupPhase}
    (hadv : Advances cfg sys env phase phase' sys') :
    R sys.kernel sys'.kernel := by
  have hruns : ∀ took, R sys.kernel (sys.kernel.runHelper took) :=
    fun _ => h.unseen rfl rfl
  have hwaits : ∀ took, R sys.kernel (sys.kernel.advance took) :=
    fun _ => h.unseen rfl rfl
  have hvsock : ∀ (ok : Bool) (took : ℕ),
      R sys.kernel (VmManager.probeVsock sys.kernel ok took) :=
    fun _ took => h.trans (hruns took) (h.note _ rfl)
  have hport : ∀ (ok : Bool) (took : ℕ),
      R sys.kernel (CaManager.isPortReady sys.kernel ok took) :=
    fun _ took => h.trans (hwaits took) (h.note _ rfl)
  cases hadv with
  | final | vmRestart | caRestart | delay | vsockTimeout => exact h.refl _
  | vmStarted hstart | vmNotStarted hstart => exact h.start hstart
  | caStarted hstart | caNotStarted hstart => exact h.start hstart
  | vsockUp => exact h.trans (hvsock true _) (h.note _ rfl)
  | vsockDown => exact hvsock false _
  | portUp => exact h.trans (hport true _) (h.note _ rfl)
  | portTimeout | portDown => exact hport false _

theorem stopBoth (h : StepRule cfg l can R) {sys : Sys} {ca vm : Manager}
    {k k' : Kernel} {caKill vmKill : KillEnv}
    (hcan : ∀ r, can (sys.mgr r) sys.kernel.table)
    (hca : CaManager.stop cfg sys.ca sys.kernel caKill = .ok (ca, k))
    (hvm : VmManager.stop cfg sys.vm k vmKill = .ok (vm, k')) :
    R sys.kernel k' := by
  obtain ⟨hstopped, hkept⟩ := h.stop (r := .ca) (hcan .ca) hca
  exact h.trans hstopped (h.stop (r := .vm) (hkept _ (hcan .vm)) hvm).1

theorem secondPanics (h : StepRule cfg l can R) {sys : Sys} {ca : Manager}
    {k k' : Kernel} {caKill vmKill : KillEnv}
    (hcan : ∀ r, can (sys.mgr r) sys.kernel.table)
    (hca : CaManager.stop cfg sys.ca sys.kernel caKill = .ok (ca, k))
    (hvm : VmManager.stop cfg sys.vm k vmKill = .error k') :
    R sys.kernel k' := by
  obtain ⟨hstopped, hkept⟩ := h.stop (r := .ca) (hcan .ca) hca
  exact h.trans hstopped (h.stopPanics (r := .vm) (hkept _ (hcan .vm)) hvm)

theorem dispatch (h : StepRule cfg l can R) (startup : StartupPhase)
    (startedAt : Instant) (req : Value) {sys : Sys} (env : RequestEnv)
    (hcan : ∀ r, can (sys.mgr r) sys.kernel.table) :
    (∀ k, dispatch cfg startup startedAt req sys env = .error k →
      R sys.kernel k) ∧
    (∀ sys' reply, dispatch cfg startup startedAt req sys env =
      .ok (sys', reply) → R sys.kernel sys'.kernel) := by
  by_cases hstart : ∃ r env', env.call (requestCmd req) r = some env'
  · obtain ⟨r, env', hcall⟩ := hstart
    obtain ⟨reply, hdispatch⟩ := dispatch_call cfg startup startedAt sys hcall
    rw [hdispatch]
    refine ⟨(fun k hk => by cases hk), fun sys' reply hsys => ?_⟩
    cases hsys
    rw [Sys.set_kernel]
    exact h.start rfl
  have hcall : ∀ r, env.call (requestCmd req) r = none := by
    intro r
    by_contra hsome
    obtain ⟨env', hcall⟩ := Option.ne_none_iff_exists'.mp hsome
    exact hstart ⟨r, env', hcall⟩
  have hserves := dispatch_serves cfg startup startedAt sys hcall
  constructor
  · intro k hk
    rw [hk] at hserves
    generalize requestCmd req = cmd at hserves
    cases hserves with
    | stopPanics _ hstop => exact h.stopPanics (hcan _) hstop
    | secondPanics hca hvm => exact h.secondPanics hcan hca hvm
  · intro sys' reply hsys
    rw [hsys] at hserves
    generalize requestCmd req = cmd at hserves
    cases hserves with
    | asks => exact h.refl _
    | @stops _ r _ _ _ hstop =>
        have hstopped := (h.stop (hcan r) hstop).1
        cases r <;> exact hstopped
    | stopsBoth hca hvm => exact h.stopBoth hcan hca hvm

theorem checks (h : StepRule cfg l can R) {health : HealthMonitor} {sys : Sys}
    {env : HealthEnv} {result : Except Kernel (HealthMonitor × Sys)}
    (hcan : can sys.ca sys.kernel.table)
    (hchecks : Checks cfg health sys env result) :
    (∀ k, result = .error k → R sys.kernel k) ∧
      ∀ health' sys', result = .ok (health', sys') →
        R sys.kernel sys'.kernel := by
  have hwaits : R sys.kernel (sys.kernel.advance env.took) :=
    h.unseen rfl rfl
  have hprobe : R sys.kernel
      ((sys.kernel.advance env.took).emit (.healthProbe env.outcome)) :=
    h.trans hwaits (h.note _ rfl)
  cases hchecks with
  | idle =>
      refine ⟨(fun k hk => by cases hk), fun health' sys' hsys => ?_⟩
      cases hsys
      exact h.refl _
  | probed =>
      refine ⟨(fun k hk => by cases hk), fun health' sys' hsys => ?_⟩
      cases hsys
      exact hprobe
  | restarted _ _ hstop =>
      refine ⟨(fun k hk => by cases hk), fun health' sys' hsys => ?_⟩
      cases hsys
      rw [Sys.set_kernel]
      have hstopped := (h.stop (r := .ca)
        (k := (sys.kernel.advance env.took).emit _) hcan hstop).1
      exact h.trans (h.trans hprobe hstopped) (h.start (r := .ca) rfl)
  | stopPanics _ _ hstop =>
      refine ⟨fun k hk => ?_, fun health' sys' hsys => by cases hsys⟩
      cases hk
      exact h.trans hprobe (h.stopPanics (r := .ca)
        (k := (sys.kernel.advance env.took).emit _) hcan hstop)

theorem maybeResetCrashCount (h : StepRule cfg l can R) {m m' : Manager}
    {k k' : Kernel} {r : Role}
    (hreset : m.maybeResetCrashCount k r = (m', k')) : R k k' := by
  unfold Manager.maybeResetCrashCount at hreset
  split at hreset
  · cases hreset
    exact h.note k rfl
  · cases hreset
    exact h.refl k

/-! ## A step -/

theorem step (h : StepRule cfg l can R)
    (hcan : ∀ r, can (s.sys.mgr r) s.kernel.table)
    (hstep : step cfg s l = some t) : R s.kernel t.kernel := by
  by_cases hquiet : l.isQuiet = true
  · have hframe := step_quiet hquiet hstep
    exact h.unseen hframe.table hframe.log
  cases l with
  | exit pid =>
      obtain ⟨-, rfl⟩ := step_exit hstep
      exact h.exit _ rfl
  | waitpid raw env =>
      obtain ⟨term, client, -, hreports, rfl⟩ := step_waitpid hstep
      exact h.reapIteration env hreports
  | request req env written =>
      obtain ⟨herror, hok⟩ := h.dispatch s.startup s.startedAt req env hcan
      rcases step_request hstep with ⟨-, ⟨k, hk, rfl⟩ | ⟨sys, reply, hsys, rfl⟩⟩
      · exact herror k hk
      · exact h.trans (hok sys reply hsys) (h.note _ rfl)
  | startup env =>
      rcases step_startup hstep with
        ⟨-, ⟨k, r, m, env', -, hstart, -, rfl⟩ | ⟨phase, sys, hadv, rfl⟩⟩
      · exact h.start hstart
      · exact h.advances hadv
  | health env =>
      rcases step_health hstep with
        ⟨-, ⟨-, rfl⟩ | ⟨-, k, hchecks, rfl⟩ | ⟨-, health, sys, hchecks, rfl⟩⟩
      · exact h.refl _
      · exact (h.checks (hcan .ca) hchecks).1 k rfl
      · exact (h.checks (hcan .ca) hchecks).2 health sys rfl
  | resetCounts =>
      obtain ⟨-, vm, k, ca, k', hvm, hca, rfl⟩ := step_resetCounts hstep
      exact h.trans (h.maybeResetCrashCount hvm) (h.maybeResetCrashCount hca)
  | shutdown caKill vmKill =>
      rcases step_shutdown hstep with ⟨-, ⟨k, hca, rfl⟩ |
        ⟨ca, k, hca, ⟨k', hvm, rfl⟩ | ⟨vm, k', hvm, rfl⟩⟩⟩
      · exact h.stopPanics (r := .ca) (hcan .ca) hca
      · exact h.secondPanics hcan hca hvm
      · exact h.stopBoth hcan hca hvm
  | _ => exact absurd rfl hquiet

end StepRule

end Teeproxyd
