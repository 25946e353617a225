import Teeproxyd.Daemon.Ca

/-!
# The two managers side by side

The managers with the kernel under them, and their `start` and `stop` by role:
what holds of both is stated once.
-/

namespace Teeproxyd

/-- The two managers and the kernel under them. -/
structure Sys where
  vm : VmManager
  ca : CaManager
  kernel : Kernel

namespace Sys

def mgr (sys : Sys) : Role → Manager
  | .vm => sys.vm
  | .ca => sys.ca

/-- One manager and the kernel are replaced. -/
def set (sys : Sys) (r : Role) (m : Manager) (k : Kernel) : Sys :=
  match r with
  | .vm => { sys with vm := m, kernel := k }
  | .ca => { sys with ca := m, kernel := k }

@[simp] theorem mgr_vm (sys : Sys) : sys.mgr .vm = sys.vm := rfl

@[simp] theorem mgr_ca (sys : Sys) : sys.mgr .ca = sys.ca := rfl

@[simp] theorem set_kernel (sys : Sys) (r : Role) (m : Manager) (k : Kernel) :
    (sys.set r m k).kernel = k := by
  cases r <;> rfl

theorem set_mgr (sys : Sys) (r : Role) (m : Manager) (k : Kernel) :
    (sys.set r m k).mgr = Function.update sys.mgr r m := by
  funext q
  cases r <;> cases q <;> rfl

end Sys

/-! ## Starting and stopping by role -/

/-- The `start` of a manager. -/
def Role.start (cfg : Config) (r : Role) (m : Manager) (k : Kernel)
    (env : StartEnv) : Manager × Kernel × Except String Unit :=
  match r with
  | .vm => VmManager.start cfg m k env
  | .ca => CaManager.start cfg m k env

/-- The `stop` of a manager. -/
def Role.stop (cfg : Config) (r : Role) (m : Manager) (k : Kernel)
    (env : KillEnv) : Except Kernel (Manager × Kernel) :=
  match r with
  | .vm => VmManager.stop cfg m k env
  | .ca => CaManager.stop cfg m k env

/-- `start` is refused by its early checks and changes nothing, fails at the
spawn, or starts the child. -/
inductive StartOutcome
  | refused
  | failed
  | started
deriving DecidableEq, Repr

def SpawnEnv.outcome (env : SpawnEnv) : StartOutcome :=
  match env.answer with
  | .error _ => .failed
  | .ok _ => .started

/-- How the `start` of a manager ends, by the system's answers. -/
def startOutcome (cfg : Config) (r : Role) (env : StartEnv) : StartOutcome :=
  match r with
  | .vm =>
      match VmManager.validateImages cfg env with
      | .error _ => .refused
      | .ok () => env.spawn.outcome
  | .ca => if env.pathExists cfg.caBinary then env.spawn.outcome else .refused

theorem startWith_cases (m : Manager) (k : Kernel) (r : Role)
    (command : Command) (context : String) (env : SpawnEnv) :
    (env.outcome = .failed ∧
      ∃ e, m.startWith k r command context env =
        ({ m with state := .starting }, k.emit (.spawnFailed r), .error e)) ∨
    (env.outcome = .started ∧
      ∃ hint, m.startWith k r command context env =
        ({ m with
            state := .launched
            childPid := some ((k.advance env.took).spawn r hint command).2 },
          ((k.advance env.took).spawn r hint command).1, .ok ())) := by
  cases hanswer : env.answer with
  | error e =>
      refine Or.inl ⟨by simp [SpawnEnv.outcome, hanswer],
        context ++ ": " ++ e, ?_⟩
      simp [Manager.startWith, spawnWithLog, hanswer]
  | ok hint =>
      refine Or.inr ⟨by simp [SpawnEnv.outcome, hanswer], hint, ?_⟩
      simp [Manager.startWith, spawnWithLog, hanswer]

/-- The three ways a `start` ends. -/
theorem start_cases (cfg : Config) (r : Role) (m : Manager) (k : Kernel)
    (env : StartEnv) :
    (startOutcome cfg r env = .refused ∧
      ∃ e, r.start cfg m k env = (m, k, .error e)) ∨
    (startOutcome cfg r env = .failed ∧
      ∃ e, r.start cfg m k env =
        ({ m with state := .starting }, k.emit (.spawnFailed r), .error e)) ∨
    (startOutcome cfg r env = .started ∧
      ∃ hint command, r.start cfg m k env =
        ({ m with
            state := .launched
            childPid := some
              ((k.advance env.spawn.took).spawn r hint command).2 },
          ((k.advance env.spawn.took).spawn r hint command).1, .ok ())) := by
  cases r with
  | vm =>
      cases hvalid : VmManager.validateImages cfg env with
      | error e =>
          refine Or.inl ⟨by simp [startOutcome, hvalid], e, ?_⟩
          simp [Role.start, VmManager.start, hvalid]
      | ok =>
          right
          simp only [startOutcome, Role.start, VmManager.start, hvalid]
          rcases startWith_cases m k .vm (VmManager.command cfg)
            "spawn pvm-manage" env.spawn with h | ⟨h, hint, hstart⟩
          · exact Or.inl h
          · exact Or.inr ⟨h, hint, _, hstart⟩
  | ca =>
      cases hexists : env.pathExists cfg.caBinary with
      | false =>
          refine Or.inl ⟨by simp [startOutcome, hexists],
            "CA binary not found: " ++ cfg.caBinary, ?_⟩
          simp [Role.start, CaManager.start, hexists]
      | true =>
          right
          simp only [startOutcome, Role.start, CaManager.start, hexists]
          rcases startWith_cases m k .ca (CaManager.command cfg)
            "spawn CA" env.spawn with h | ⟨h, hint, hstart⟩
          · exact Or.inl h
          · exact Or.inr ⟨h, hint, _, hstart⟩

theorem start_ok {cfg : Config} {r : Role} {m m' : Manager} {k k' : Kernel}
    {env : StartEnv} (h : r.start cfg m k env = (m', k', .ok ())) :
    startOutcome cfg r env = .started := by
  rcases start_cases cfg r m k env with
    ⟨-, e, hstart⟩ | ⟨-, e, hstart⟩ | ⟨houtcome, -⟩
  · cases hstart.symm.trans h
  · cases hstart.symm.trans h
  · exact houtcome

/-- A `start` that fails logs nothing or the failure of the spawn. -/
theorem start_error {cfg : Config} {r : Role} {m m' : Manager} {k k' : Kernel}
    {env : StartEnv} {e : String}
    (h : r.start cfg m k env = (m', k', .error e)) :
    startOutcome cfg r env ≠ .started ∧
      (k' = k ∨ k' = k.emit (.spawnFailed r)) := by
  rcases start_cases cfg r m k env with
    ⟨houtcome, e', hstart⟩ | ⟨houtcome, e', hstart⟩ | ⟨-, hint, command, hstart⟩
  · cases hstart.symm.trans h
    exact ⟨by simp [houtcome], Or.inl rfl⟩
  · cases hstart.symm.trans h
    exact ⟨by simp [houtcome], Or.inr rfl⟩
  · cases hstart.symm.trans h

theorem stopWith_cases (m : Manager) (k : Kernel) (r : Role)
    (graceSecs : UInt64) (sweep : Kernel → Pid → Kernel) (env : KillEnv) :
    (m.childPid = none ∧
      m.stopWith k r graceSecs sweep env =
        .ok (m.halted, k.emit (.stopped r))) ∨
    ∃ pid, m.childPid = some pid ∧
      ((∃ k', gracefulKill k pid graceSecs env = .error k' ∧
          m.stopWith k r graceSecs sweep env = .error k') ∨
        ∃ k' gone, gracefulKill k pid graceSecs env = .ok (k', gone) ∧
          m.stopWith k r graceSecs sweep env =
            .ok (m.halted, (sweep k' pid).emit (.stopped r))) := by
  unfold Manager.stopWith
  cases hpid : m.childPid with
  | none => exact Or.inl ⟨rfl, rfl⟩
  | some pid =>
      refine Or.inr ⟨pid, rfl, ?_⟩
      dsimp only
      cases hkill : gracefulKill k pid graceSecs env with
      | error k' => exact Or.inl ⟨k', rfl, rfl⟩
      | ok result => exact Or.inr ⟨result.1, result.2, rfl, rfl⟩

/-- The three ways a `stop` ends. -/
theorem stop_cases (cfg : Config) (r : Role) (m : Manager) (k : Kernel)
    (env : KillEnv) :
    (m.childPid = none ∧
      r.stop cfg m k env = .ok (m.halted, k.emit (.stopped r))) ∨
    ∃ pid, m.childPid = some pid ∧
      ((∃ k', gracefulKill k pid cfg.shutdownGraceSecs env = .error k' ∧
          r.stop cfg m k env = .error k') ∨
        ∃ k' gone k'', gracefulKill k pid cfg.shutdownGraceSecs env =
            .ok (k', gone) ∧
          r.stop cfg m k env = .ok (m.halted, k'')) := by
  obtain ⟨sweep, hstop⟩ : ∃ sweep, r.stop cfg m k env =
      m.stopWith k r cfg.shutdownGraceSecs sweep env := by
    cases r with
    | vm => exact ⟨_, rfl⟩
    | ca => exact ⟨_, rfl⟩
  rw [hstop]
  rcases stopWith_cases m k r cfg.shutdownGraceSecs sweep env with
    h | ⟨pid, hpid, h | ⟨k', gone, hkill, h⟩⟩
  · exact Or.inl h
  · exact Or.inr ⟨pid, hpid, Or.inl h⟩
  · exact Or.inr ⟨pid, hpid, Or.inr ⟨k', gone, _, hkill, h⟩⟩

/-- A `stop` that returns leaves the manager idle. -/
theorem stop_ok {cfg : Config} {r : Role} {m m' : Manager} {k k' : Kernel}
    {env : KillEnv} (h : r.stop cfg m k env = .ok (m', k')) :
    m' = m.halted := by
  rcases stop_cases cfg r m k env with
    ⟨-, hstop⟩ | ⟨pid, -, ⟨k₁, -, hstop⟩ | ⟨k₁, gone, k₂, -, hstop⟩⟩
  · cases hstop.symm.trans h
    rfl
  · cases hstop.symm.trans h
  · cases hstop.symm.trans h
    rfl

/-- What `stop` does after `graceful_kill`. -/
def Role.sweep : Role → Kernel → Pid → Kernel
  | .vm => fun k pid => (killTree k pid).pkillCrosvm
  | .ca => fun k _ => k

theorem stop_eq (cfg : Config) (r : Role) (m : Manager) (k : Kernel)
    (env : KillEnv) :
    r.stop cfg m k env =
      m.stopWith k r cfg.shutdownGraceSecs r.sweep env := by
  cases r <;> rfl

end Teeproxyd
