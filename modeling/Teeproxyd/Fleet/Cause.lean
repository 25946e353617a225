import Teeproxyd.Daemon.Steps
import Teeproxyd.Fleet.Story

/-!
# Why an event happens

The conditions on a state and the label taken from it under which a step of
the daemon starts, restarts or stops a child or marks a manager `Ready`.
They look at the inputs and at the state before the step alone.
-/

namespace Teeproxyd

/-! ## What a label makes the daemon call -/

/-- A client's command or the startup machine calls `start` for this role, and
this is what the system answers. -/
def directStart (s : Daemon) (l : Label) (r : Role) : Option StartEnv :=
  match l with
  | .request req env _ => env.call (requestCmd req) r
  | .startup env => env.call s.startup r
  | _ => none

/-- The health check restarts the CA. -/
def healthRestarts (cfg : Config) (s : Daemon) (env : HealthEnv) : Prop :=
  healthDue cfg s ∧
    (s.ca.state = .ready ∨ s.ca.state = CaState.running) ∧
    (s.health.probe env.outcome).2 = .restartNeeded

instance (cfg : Config) (s : Daemon) (env : HealthEnv) :
    Decidable (healthRestarts cfg s env) :=
  inferInstanceAs (Decidable (_ ∧ (_ ∨ _) ∧ _))

/-- The pid a `waitpid` label reports to `handle_child_death`. -/
def Label.reaps : Label → Option Pid
  | .waitpid raw _ =>
      match decodeWait raw with
      | .exited pid _ => some pid
      | .signaled pid _ => some pid
      | _ => none
  | _ => none

/-- The pid a `waitpid` label takes from the kernel although its wait status
cannot be decoded, so that nobody is told. -/
def Label.loses : Label → Option Pid
  | .waitpid raw _ =>
      match raw, decodeWait raw with
      | some (pid, _), .err => some pid
      | _, _ => none
  | _ => none

/-- The label loses a child that a manager records. -/
def LosesTracked (s : Daemon) (l : Label) : Prop :=
  ∃ r pid, l.loses = some pid ∧ (s.sys.mgr r).childPid = some pid

/-- A zombie is reaped and handled, or reaped and lost. -/
theorem reapIteration_some (pid : Pid) (status : ExitStatus) (env : StartEnv) :
    ((Label.waitpid (some (pid, status)) env).reaps = some pid ∧
      (Label.waitpid (some (pid, status)) env).loses = none ∧
      ∀ cfg sys, reapIteration cfg (some (pid, status)) sys env =
        (handleChildDeath cfg pid
          { sys with kernel := sys.kernel.reap pid } env, true)) ∨
    ((Label.waitpid (some (pid, status)) env).reaps = none ∧
      (Label.waitpid (some (pid, status)) env).loses = some pid ∧
      ∀ cfg sys, reapIteration cfg (some (pid, status)) sys env =
        ({ sys with kernel := (sys.kernel.reap pid).emit (.lost pid) },
          false)) := by
  cases status with
  | code c => exact Or.inl ⟨rfl, rfl, fun _ _ => rfl⟩
  | signal n =>
      by_cases hn : 1 ≤ n ∧ n ≤ 31
      · left
        simp [Label.reaps, Label.loses, reapIteration, decodeWait, hn]
      · right
        simp [Label.reaps, Label.loses, reapIteration, decodeWait, hn]

section Steps

variable {cfg : Config} {s t : Daemon} {l : Label} {pid : Pid}

/-- The call of `waitpid` that reaps the child. -/
theorem exists_reaps (hreaps : l.reaps = some pid) :
    ∃ status env, l = .waitpid (some (pid, status)) env ∧ l.loses = none ∧
      ∀ cfg sys, reapIteration cfg (some (pid, status)) sys env =
        (handleChildDeath cfg pid
          { sys with kernel := sys.kernel.reap pid } env, true) := by
  cases l with
  | waitpid raw env =>
      cases raw with
      | none => cases hreaps
      | some report =>
          obtain ⟨q, status⟩ := report
          rcases reapIteration_some q status env with
            ⟨hq, hloses, hiter⟩ | ⟨hq, -, -⟩
          · obtain rfl : q = pid := Option.some.inj (hq.symm.trans hreaps)
            exact ⟨status, env, rfl, hloses, hiter⟩
          · cases hq.symm.trans hreaps
  | _ => cases hreaps

/-- The call of `waitpid` that loses the child. -/
theorem exists_loses (hloses : l.loses = some pid) :
    ∃ status env, l = .waitpid (some (pid, status)) env ∧
      ∀ cfg sys, reapIteration cfg (some (pid, status)) sys env =
        ({ sys with kernel := (sys.kernel.reap pid).emit (.lost pid) },
          false) := by
  cases l with
  | waitpid raw env =>
      cases raw with
      | none => cases hloses
      | some report =>
          obtain ⟨q, status⟩ := report
          rcases reapIteration_some q status env with
            ⟨-, hq, -⟩ | ⟨-, hq, hiter⟩
          · cases hq.symm.trans hloses
          · obtain rfl : q = pid := Option.some.inj (hq.symm.trans hloses)
            exact ⟨status, env, rfl, hiter⟩
  | _ => cases hloses

/-- A step that reaps a child hands it to `handle_child_death` and goes on with
the loop. -/
theorem step_reaps (hreaps : l.reaps = some pid)
    (hstep : step cfg s l = some t) :
    (∃ term client, s.pc = .reap term client) ∧
      ∃ env, t = { s with
        sys := handleChildDeath cfg pid
          { s.sys with kernel := s.kernel.reap pid } env } := by
  obtain ⟨status, env, rfl, -, hiter⟩ := exists_reaps hreaps
  obtain ⟨term, client, hpc, -, rfl⟩ := step_waitpid hstep
  refine ⟨⟨term, client, hpc⟩, env, ?_⟩
  rw [hiter]
  rfl

/-- A step that loses a child leaves the loop. -/
theorem step_loses (hloses : l.loses = some pid)
    (hstep : step cfg s l = some t) :
    ∃ term client, s.pc = .reap term client ∧
      t = { s with
        sys := { s.sys with
          kernel := (s.kernel.reap pid).emit (.lost pid) }
        pc := afterSignals term client } := by
  obtain ⟨status, env, rfl, hiter⟩ := exists_loses hloses
  obtain ⟨term, client, hpc, -, rfl⟩ := step_waitpid hstep
  refine ⟨term, client, hpc, ?_⟩
  rw [hiter]
  rfl

end Steps

/-- The daemon restarts the CA on its own, after a crash or after failed
health probes, and this is what the system answers. -/
def AutoRestart (cfg : Config) (s : Daemon) (l : Label) (env : StartEnv) :
    Prop :=
  match l with
  | .waitpid _ waitEnv =>
      env = waitEnv ∧ ∃ pid, l.reaps = some pid ∧ s.vm.childPid ≠ some pid ∧
        s.ca.childPid = some pid ∧ s.ca.crashCount + 1 < 5
  | .health healthEnv =>
      env = healthEnv.start ∧ healthRestarts cfg s healthEnv
  | _ => False

/-- The startup machine marks the manager `Ready` because a probe succeeds. -/
def marksReady (s : Daemon) (l : Label) (r : Role) : Bool :=
  match l, s.startup, r with
  | .startup env, .waitingVsock deadline _ true, .vm =>
      decide (s.kernel.now ≤ deadline) && env.vsockUp
  | .startup env, .waitingCaPort _, .ca => env.portUp
  | _, _, _ => false

theorem marksReady_iff {s : Daemon} {l : Label} {r : Role} :
    marksReady s l r = true ↔ ∃ env, l = .startup env ∧
      ((r = .vm ∧ ∃ deadline bootStart,
          s.startup = .waitingVsock deadline bootStart true ∧
            s.kernel.now ≤ deadline ∧ env.vsockUp = true) ∨
        (r = .ca ∧ ∃ deadline,
          s.startup = .waitingCaPort deadline ∧ env.portUp = true)) := by
  constructor
  · intro h
    unfold marksReady at h
    split at h
    next env deadline bootStart hphase =>
      simp only [Bool.and_eq_true, decide_eq_true_eq] at h
      exact ⟨env, rfl, Or.inl ⟨rfl, deadline, bootStart, hphase, h.1, h.2⟩⟩
    next env deadline hphase =>
      exact ⟨env, rfl, Or.inr ⟨rfl, deadline, hphase, h⟩⟩
    next => cases h
  · rintro ⟨env, rfl, ⟨rfl, deadline, bootStart, hphase, hintime, hup⟩ |
      ⟨rfl, deadline, hphase, hup⟩⟩
    · simp [marksReady, hphase, hintime, hup]
    · simp [marksReady, hphase, hup]

/-- The label stops the child of this role. -/
def StopsChild (cfg : Config) (s : Daemon) (l : Label) (r : Role) : Prop :=
  match l with
  | .request req _ _ => (requestCmd req).stops r = true
  | .health env => r = .ca ∧ healthRestarts cfg s env
  | .shutdown _ _ => True
  | _ => False

/-- In fleet `f`, the step that label `l` takes from state `s` calls `start`
for this role, and this is what the system answers. -/
def CallsStart (cfg : Config) (s : Daemon) (l : Label) (f : Fleet) (r : Role)
    (env : StartEnv) : Prop :=
  (f = s.sys.fleet ∧ directStart s l r = some env) ∨
    (r = .ca ∧ (f.mgr .ca).childPid = none ∧ AutoRestart cfg s l env)

/-- Why event `e`, in fleet `f`, is part of the step that label `l` takes from
state `s`. -/
def Cause (cfg : Config) (s : Daemon) (l : Label) (f : Fleet)
    (te : Instant × Event) : Prop :=
  match te.2 with
  | .spawned r _ _ =>
      ∃ env, CallsStart cfg s l f r env ∧ startOutcome cfg r env = .started
  | .spawnFailed r =>
      ∃ env, CallsStart cfg s l f r env ∧ startOutcome cfg r env = .failed
  | .stopped r => StopsChild cfg s l r
  | .died r pid => l.reaps = some pid ∧ (s.sys.mgr r).childPid = some pid
  | .discarded pid => l.reaps = some pid
  | .condemned r => ∃ pid, l.reaps = some pid ∧
      (s.sys.mgr r).childPid = some pid
  | .lost pid => f = s.sys.fleet ∧ l.loses = some pid
  | .ready r => f = s.sys.fleet ∧ marksReady s l r = true
  | .countReset _ => l = .resetCounts
  | .handled cmd => l.cmd = some cmd
  | _ => True

end Teeproxyd
