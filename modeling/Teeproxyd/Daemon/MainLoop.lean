import Mathlib.Data.Int.Notation
import Teeproxyd.Support.TransitionSystem
import Teeproxyd.Daemon.Health
import Teeproxyd.Daemon.Ipc

/-!
# `main.rs`: the daemon as a transition system

The program counter of the single thread stands at one of the points of the
main loop where it can meet its environment.  A label is either a step of the
environment, which is possible at every point (time passes, a child ends, a
signal arrives), or the next step of the thread with what the system answers
to it.  A label that is not possible leads nowhere.

A panic ends the program; its records are gone, and the kernel keeps what it
was left with.
-/

namespace Teeproxyd

open ProcessTable

/-! ## Reaping -/

/-- How a process ended: its exit code, or the number of the signal. -/
inductive ExitStatus
  | code (c : Int)
  | signal (n : ℕ)
deriving DecidableEq, Repr

/-- The results of nix's `waitpid(None, WNOHANG)`. -/
inductive WaitResult
  | exited (pid : Pid) (code : Int)
  | signaled (pid : Pid) (sig : ℕ)
  | stillAlive
  | err

/-- The decoding of what the kernel reports.  nix's `Signal` has the numbers 1
to 31; for a real-time signal the call fails although the zombie is gone.  With
no zombie the result is `StillAlive` or, without children, an error, which the
caller treats alike. -/
def decodeWait : Option (Pid × ExitStatus) → WaitResult
  | none => .stillAlive
  | some (pid, .code c) => .exited pid c
  | some (pid, .signal n) =>
      if 1 ≤ n ∧ n ≤ 31 then .signaled pid n else .err

/-- `handle_child_death`. -/
def handleChildDeath (cfg : Config) (pid : Pid) (sys : Sys) (env : StartEnv) :
    Sys :=
  if sys.vm.ownsPid pid then
    let vm := sys.vm.markDead
    let k := sys.kernel.emit (.died .vm pid)
    if vm.crashCount ≥ 5 then
      { sys with
        vm := vm.setState .error k.now
        kernel := k.emit (.condemned .vm) }
    else { sys with vm := vm, kernel := k }
  else if sys.ca.ownsPid pid then
    let ca := sys.ca.markDead
    let k := sys.kernel.emit (.died .ca pid)
    if ca.crashCount < 5 then
      -- the result of the start is thrown away
      let (ca, k, _) := CaManager.start cfg ca k env
      { sys with ca := ca, kernel := k }
    else
      { sys with
        ca := ca.setState .error k.now
        kernel := k.emit (.condemned .ca) }
  else { sys with kernel := sys.kernel.emit (.discarded pid) }

/-- One iteration of `reap_children`; the flag says whether the loop goes on. -/
def reapIteration (cfg : Config) (raw : Option (Pid × ExitStatus)) (sys : Sys)
    (env : StartEnv) : Sys × Bool :=
  match raw, decodeWait raw with
  | _, .exited pid _ =>
      let sys := { sys with kernel := sys.kernel.reap pid }
      (handleChildDeath cfg pid sys env, true)
  | _, .signaled pid _ =>
      let sys := { sys with kernel := sys.kernel.reap pid }
      (handleChildDeath cfg pid sys env, true)
  | some (pid, _), .err =>
      ({ sys with kernel := (sys.kernel.reap pid).emit (.lost pid) }, false)
  | _, _ => (sys, false)

/-! ## The health check -/

structure HealthEnv where
  outcome : Connect
  took : ℕ
  kill : KillEnv
  start : StartEnv

def healthCheck (cfg : Config) (health : HealthMonitor) (sys : Sys)
    (env : HealthEnv) : Except Kernel (HealthMonitor × Sys) :=
  if sys.ca.state = .ready ∨ sys.ca.state = CaState.running then
    let k := (sys.kernel.advance env.took).emit (.healthProbe env.outcome)
    match health.probe env.outcome with
    | (health, .restartNeeded) => do
        let (ca, k) ← CaManager.stop cfg sys.ca k env.kill
        let (ca, k, _) := CaManager.start cfg ca k env.start
        .ok (health, { sys with ca := ca, kernel := k })
    | (health, _) => .ok (health, { sys with kernel := k })
  else .ok (health, sys)

/-- What a health check comes to. -/
inductive Checks (cfg : Config) (health : HealthMonitor) (sys : Sys)
    (env : HealthEnv) : Except Kernel (HealthMonitor × Sys) → Prop
  | idle (hdown : ¬ (sys.ca.state = .ready ∨ sys.ca.state = CaState.running)) :
      Checks cfg health sys env (.ok (health, sys))
  | probed (hup : sys.ca.state = .ready ∨ sys.ca.state = CaState.running)
      (hcalm : (health.probe env.outcome).2 ≠ .restartNeeded) :
      Checks cfg health sys env
        (.ok ((health.probe env.outcome).1,
          { sys with
            kernel := (sys.kernel.advance env.took).emit
              (.healthProbe env.outcome) }))
  | restarted {k : Kernel}
      (hup : sys.ca.state = .ready ∨ sys.ca.state = CaState.running)
      (hverdict : (health.probe env.outcome).2 = .restartNeeded)
      (hstop : CaManager.stop cfg sys.ca
        ((sys.kernel.advance env.took).emit (.healthProbe env.outcome))
        env.kill = .ok (sys.ca.halted, k)) :
      Checks cfg health sys env
        (.ok ((health.probe env.outcome).1,
          sys.set .ca (CaManager.start cfg sys.ca.halted k env.start).1
            (CaManager.start cfg sys.ca.halted k env.start).2.1))
  | stopPanics {k : Kernel}
      (hup : sys.ca.state = .ready ∨ sys.ca.state = CaState.running)
      (hverdict : (health.probe env.outcome).2 = .restartNeeded)
      (hstop : CaManager.stop cfg sys.ca
        ((sys.kernel.advance env.took).emit (.healthProbe env.outcome))
        env.kill = .error k) :
      Checks cfg health sys env (.error k)

theorem healthCheck_checks (cfg : Config) (health : HealthMonitor) (sys : Sys)
    (env : HealthEnv) :
    Checks cfg health sys env (healthCheck cfg health sys env) := by
  unfold healthCheck
  split
  next hup =>
    have hprobed := @Checks.probed cfg health sys env hup
    have hrestarted := @Checks.restarted cfg health sys env
    have hpanics := @Checks.stopPanics cfg health sys env
    generalize health.probe env.outcome = result at hprobed hrestarted hpanics ⊢
    obtain ⟨health', verdict⟩ := result
    cases verdict with
    | ok => exact hprobed nofun
    | degraded n => exact hprobed nofun
    | restartNeeded =>
        dsimp only
        cases hstop : CaManager.stop cfg sys.ca
          ((sys.kernel.advance env.took).emit (.healthProbe env.outcome))
          env.kill with
        | error k => exact hpanics hup rfl hstop
        | ok result =>
            obtain ⟨ca, k⟩ := result
            obtain rfl : ca = sys.ca.halted := stop_ok (r := .ca) hstop
            exact hrestarted hup rfl hstop
  next hdown => exact .idle hdown

/-! ## The poll timeout -/

/-- `u128 as i32`. -/
def asI32 (n : ℕ) : ℤ := Int.bmod n (2 ^ 32)

def pollTimeoutMs (cfg : Config) (startup : StartupPhase)
    (lastHealth now : Instant) : ℤ :=
  let untilHealth := fromSecs cfg.healthIntervalSecs - lastHealth.elapsed now
  match startup with
  | .waitingVsock _ _ false => 1000
  | .waitingVsock _ _ true => 2000
  | .waitingCaPort _ => 500
  | _ => asI32 (untilHealth / 1000000)

/-- The argument of `poll`, in milliseconds. -/
def pollTimeout (cfg : Config) (startup : StartupPhase)
    (lastHealth now : Instant) : UInt16 :=
  UInt16.ofNat
    (min (max (pollTimeoutMs cfg startup lastHealth now) 100) 10000).toNat

/-! ## The state of the daemon -/

/-- Where the thread stands.  The flags say whether SIGTERM was seen in the
pipe and whether a client is waiting. -/
inductive Pc
  /-- The head of the loop: the end of every iteration. -/
  | poll
  /-- Asleep in `poll` until the given time. -/
  | polling (wakeAt : Instant)
  | drain (client : Bool)
  | reap (term client : Bool)
  | accept (client : Bool)
  | session
  | startup
  | health
  | reset
  | shutdown
  | exited
  | panicked
  /-- Blocked for ever in the signal handler, on a full pipe. -/
  | hung
deriving DecidableEq, Repr

/-- The thread is still there and can run the signal handler. -/
def Pc.isRunning : Pc → Bool
  | exited | panicked | hung => false
  | _ => true

structure Daemon where
  pc : Pc
  sys : Sys
  startup : StartupPhase
  health : HealthMonitor
  lastHealth : Instant
  startedAt : Instant

namespace Daemon

abbrev vm (s : Daemon) : VmManager := s.sys.vm
abbrev ca (s : Daemon) : CaManager := s.sys.ca
abbrev kernel (s : Daemon) : Kernel := s.sys.kernel

def withKernel (s : Daemon) (k : Kernel) : Daemon :=
  { s with sys := { s.sys with kernel := k } }

/-- The program is gone after a panic, and its records with it. -/
def crash (s : Daemon) (k : Kernel) : Daemon :=
  { s with pc := .panicked, sys := ⟨Manager.new, Manager.new, k⟩ }

end Daemon

/-- The state at the head of the main loop when it is entered. -/
def init (cfg : Config) (now : Instant) : Daemon where
  pc := .poll
  sys :=
    { vm := Manager.new
      ca := Manager.new
      kernel :=
        { now := now
          table := Table.empty
          others := []
          crosvms := []
          chldPending := false
          termPending := false
          pipe := []
          pipeOffset := 0
          log := [] } }
  startup := if cfg.autoStart then .vmStarting else .notStarted
  health := HealthMonitor.new cfg.caPort cfg.healthFailThreshold
  lastHealth := now
  startedAt := now

/-! ## Labels -/

/-- What `poll` reports of the listener: nothing, a client, or only conditions
that `main` does not look at.  Those (POLLHUP, POLLERR, POLLNVAL) are reported
whether they are asked for or not. -/
inductive Listener
  | quiet
  | incoming
  | ignored
deriving DecidableEq, Repr

/-- A client is waiting. -/
def Listener.isClient : Listener → Bool
  | incoming => true
  | _ => false

/-- `poll` has nothing to report and goes to sleep. -/
def Listener.isQuiet : Listener → Bool
  | quiet => true
  | _ => false

inductive Label
  -- the environment
  | tick (d : ℕ)
  | exit (pid : Pid)
  | crosvmStart (parent : Pid)
  | crosvmExit (i : ℕ)
  | others (pids : List Pid)
  | terminate
  /-- SIGCHLD is raised although no child ends: a child is stopped or continued,
  a helper process ends, or some process sends it. -/
  | sigchld
  | deliverChld
  | deliverTerm
  -- the thread
  | poll (listener : Listener)
  | wake (listener : Listener)
  | drain
  | waitpid (raw : Option (Pid × ExitStatus)) (env : StartEnv)
  | accept (ok : Bool)
  /-- A line that parsed as JSON.  Any other line is answered with an error and
  leaves the daemon as it is. -/
  | request (req : Value) (env : RequestEnv) (written : Bool)
  | hangup
  | startup (env : StartupEnv)
  | health (env : HealthEnv)
  | resetCounts
  | shutdown (caKill vmKill : KillEnv)

instance : Inhabited Label := ⟨.tick 0⟩

/-- The command a label hands to the daemon, if it is a request. -/
def Label.cmd : Label → Option Cmd
  | request req _ _ => some (requestCmd req)
  | _ => none

/-- A client's `start_*` or `stop_*` command. -/
def Label.isOperator (l : Label) : Bool := l.cmd.any Cmd.isOperator

/-- A command that asks for the child of this role. -/
def Label.starts (l : Label) (r : Role) : Bool := l.cmd.any fun c => c.starts r

/-- A command that stops the child of this role. -/
def Label.stops (l : Label) (r : Role) : Bool := l.cmd.any fun c => c.stops r

def Label.isStartup : Label → Bool
  | startup _ => true
  | _ => false

/-! ## The step function -/

/-- `signal_handler`, at whatever point the thread is interrupted.  It returns
from a sleeping `poll` with an error and no ready descriptor. -/
def signalHandler (s : Daemon) (byte : Char) : Daemon :=
  if s.kernel.HasPipeRoom then
    { s.withKernel (s.kernel.writePipe byte) with
      pc := match s.pc with
        | .polling _ => .accept false
        | pc => pc }
  else { s with pc := .hung }

/-- After the signal pipe: shut down, or go on with the iteration. -/
def afterSignals (term client : Bool) : Pc :=
  if term then .shutdown else .accept client

/-- The environment may report these results of `waitpid`: a zombie, or none
when there is no zombie. -/
def waitpidReports (k : Kernel) : Option (Pid × ExitStatus) → Bool
  | some (pid, _) => k.table.isZombie pid
  | none => k.table.procs.all Proc.alive

def step (cfg : Config) (s : Daemon) : Label → Option Daemon
  | .tick d => some (s.withKernel (s.kernel.advance d))
  | .exit pid =>
      if s.kernel.table.isAlive pid then
        some (s.withKernel (s.kernel.exitProc pid))
      else none
  | .crosvmStart parent =>
      if s.kernel.table.isAlive parent ∧ s.kernel.childOf parent = some .vm then
        some (s.withKernel
          { s.kernel with crosvms := some parent :: s.kernel.crosvms })
      else none
  | .crosvmExit i =>
      some (s.withKernel
        { s.kernel with crosvms := s.kernel.crosvms.eraseIdx i })
  | .others pids =>
      if pids.all fun pid => pid ∉ s.kernel.table.pids then
        some (s.withKernel { s.kernel with others := pids })
      else none
  | .terminate => some (s.withKernel { s.kernel with termPending := true })
  | .sigchld => some (s.withKernel { s.kernel with chldPending := true })
  | .deliverChld =>
      if s.pc.isRunning ∧ s.kernel.chldPending then
        some (signalHandler
          (s.withKernel { s.kernel with chldPending := false }) 'C')
      else none
  | .deliverTerm =>
      if s.pc.isRunning ∧ s.kernel.termPending then
        some (signalHandler
          (s.withKernel { s.kernel with termPending := false }) 'T')
      else none
  | .poll listener =>
      match s.pc with
      | .poll =>
          if s.kernel.pipe ≠ [] then
            some { s with pc := .drain listener.isClient }
          else if !listener.isQuiet then
            some { s with pc := .accept listener.isClient }
          else
            let timeout :=
              pollTimeout cfg s.startup s.lastHealth s.kernel.now
            some { s with
              pc := .polling (s.kernel.now + fromMillis timeout.toNat) }
      | _ => none
  | .wake listener =>
      match s.pc with
      | .polling wakeAt =>
          if !listener.isQuiet ∨ wakeAt ≤ s.kernel.now then
            some { s with pc := .accept listener.isClient }
          else none
      | _ => none
  | .drain =>
      match s.pc with
      | .drain client =>
          let buf := s.kernel.pipe.take 64
          let gotTerm := buf.contains 'T'
          let gotChld := buf.contains 'C'
          let s := s.withKernel (s.kernel.readPipe 64)
          if gotChld then some { s with pc := .reap gotTerm client }
          else some { s with pc := afterSignals gotTerm client }
      | _ => none
  | .waitpid raw env =>
      match s.pc with
      | .reap term client =>
          if waitpidReports s.kernel raw then
            let (sys, again) := reapIteration cfg raw s.sys env
            if again then some { s with sys := sys }
            else some { s with sys := sys, pc := afterSignals term client }
          else none
      | _ => none
  | .accept ok =>
      match s.pc with
      | .accept client =>
          some { s with pc := if client && ok then .session else .startup }
      | _ => none
  | .request req env written =>
      match s.pc with
      | .session =>
          match dispatch cfg s.startup s.startedAt req s.sys env with
          | .error k => some (s.crash k)
          | .ok (sys, _) =>
              let kernel := sys.kernel.emit (.handled (requestCmd req))
              some { s with
                sys := { sys with kernel := kernel }
                pc := if written then .session else .startup }
      | _ => none
  | .hangup =>
      match s.pc with
      | .session => some { s with pc := .startup }
      | _ => none
  | .startup env =>
      match s.pc with
      | .startup =>
          match advanceStartup cfg s.startup s.sys env with
          | .error k => some (s.crash k)
          | .ok (startup, sys) =>
              some { s with startup := startup, sys := sys, pc := .health }
      | _ => none
  | .health env =>
      match s.pc with
      | .health =>
          if s.lastHealth.elapsed s.kernel.now ≥
              fromSecs cfg.healthIntervalSecs then
            match healthCheck cfg s.health s.sys env with
            | .error k => some (s.crash k)
            | .ok (health, sys) =>
                some { s with
                  health := health
                  sys := sys
                  lastHealth := sys.kernel.now
                  pc := .reset }
          else some { s with pc := .reset }
      | _ => none
  | .resetCounts =>
      match s.pc with
      | .reset =>
          let (vm, k) := s.vm.maybeResetCrashCount s.kernel .vm
          let (ca, k) := s.ca.maybeResetCrashCount k .ca
          some { s with sys := ⟨vm, ca, k⟩, pc := .poll }
      | _ => none
  | .shutdown caKill vmKill =>
      match s.pc with
      | .shutdown =>
          match CaManager.stop cfg s.ca s.kernel caKill with
          | .error k => some (s.crash k)
          | .ok (ca, k) =>
              match VmManager.stop cfg s.vm k vmKill with
              | .error k => some (s.crash k)
              | .ok (vm, k) =>
                  some { s with sys := ⟨vm, ca, k⟩, pc := .exited }
      | _ => none

/-- The states of the daemon that some run from its start reaches, when every
step meets `guard`. -/
def Reach (cfg : Config) (guard : Daemon → Label → Prop) (s : Daemon) : Prop :=
  ∃ now, TransitionSystem.Path (step cfg) guard (init cfg now) s

/-- The states that some run reaches. -/
abbrev Reachable (cfg : Config) : Daemon → Prop := Reach cfg fun _ _ => True

theorem reach_mono {cfg : Config} {s : Daemon} {G H : Daemon → Label → Prop}
    (hGH : ∀ s l, G s l → H s l) (hreach : Reach cfg G s) : Reach cfg H s := by
  obtain ⟨now, hpath⟩ := hreach
  exact ⟨now, hpath.mono hGH⟩

/-- What holds at the start, and what every step that also meets `G` preserves
from the states that `H` alone lets the daemon reach. -/
theorem reach_preserves {cfg : Config} {s : Daemon} {I : Daemon → Prop}
    {G H : Daemon → Label → Prop} (hinit : ∀ now, I (init cfg now))
    (hstep : ∀ s l t, Reach cfg H s → G s l → I s → step cfg s l = some t → I t)
    (hreach : Reach cfg (fun s l => H s l ∧ G s l) s) :
    Reach cfg H s ∧ I s := by
  obtain ⟨now, hpath⟩ := hreach
  refine hpath.preserves (I := fun s => Reach cfg H s ∧ I s) ?_
    ⟨⟨now, .refl⟩, hinit now⟩
  rintro s l t ⟨hH, hG⟩ ⟨⟨now', hpath'⟩, hs⟩ hst
  constructor
  · exact ⟨now', hpath'.tail ⟨l, hH, hst⟩⟩
  · exact hstep s l t ⟨now', hpath'⟩ hG hs hst

theorem init_startup (cfg : Config) (now : Instant) :
    (init cfg now).startup = .vmStarting ∨
      (init cfg now).startup = .notStarted := by
  by_cases hauto : cfg.autoStart = true
  · exact Or.inl (if_pos hauto)
  · exact Or.inr (if_neg hauto)

end Teeproxyd
