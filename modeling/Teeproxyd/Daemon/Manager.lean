import Teeproxyd.Daemon.Process

/-!
# What `vm.rs` and `ca.rs` share

The two managers have the same fields and, apart from one name, the same
states: the VM's `Booting` is the CA's `Running`.  The methods that are word
for word the same in both files are defined once here, and so are the common
parts of `start` and `stop`.
-/

namespace Teeproxyd

/-- The states of a manager.  `launched` is `VmState::Booting` and
`CaState::Running`. -/
inductive Stage
  | idle
  | starting
  | launched
  | ready
  | stopping
  | error
deriving DecidableEq, Repr

abbrev VmState := Stage
abbrev CaState := Stage

namespace VmState

@[match_pattern] abbrev booting : VmState := Stage.launched

/-- `#[serde(rename_all = "snake_case")]`. -/
def serialize : VmState → String
  | .idle => "idle"
  | .starting => "starting"
  | .launched => "booting"
  | .ready => "ready"
  | .stopping => "stopping"
  | .error => "error"

end VmState

namespace CaState

@[match_pattern] abbrev running : CaState := Stage.launched

def serialize : CaState → String
  | .idle => "idle"
  | .starting => "starting"
  | .launched => "running"
  | .ready => "ready"
  | .stopping => "stopping"
  | .error => "error"

end CaState

/-- `VmManager` and `CaManager`. -/
structure Manager where
  state : Stage
  childPid : Option Pid
  crashCount : UInt32
  readySince : Option Instant
deriving DecidableEq, Repr

namespace Manager

def new : Manager where
  state := .idle
  childPid := none
  crashCount := 0
  readySince := none

def setState (m : Manager) (s : Stage) (now : Instant) : Manager :=
  { m with
    state := s
    readySince := if s = .ready then some now else m.readySince }

def ownsPid (m : Manager) (pid : Pid) : Bool := m.childPid = some pid

def isDead (m : Manager) (k : Kernel) : Bool :=
  (m.state = .idle || m.state = .error) && m.childPid.isSome &&
    !(m.childPid.any (isAlive k))

def markDead (m : Manager) : Manager where
  state := .idle
  childPid := none
  crashCount := m.crashCount + 1
  readySince := none

/-- The condition under which `maybe_reset_crash_count` clears the count. -/
def stable (m : Manager) (now : Instant) : Bool :=
  m.readySince.any fun since => since.elapsed now ≥ fromSecs 60

def maybeResetCrashCount (m : Manager) (k : Kernel) (r : Role) :
    Manager × Kernel :=
  if m.stable k.now then ({ m with crashCount := 0 }, k.emit (.countReset r))
  else (m, k)

/-! ## The common parts of `start` and `stop` -/

/-- `start` after its early checks: `state` is `Starting` before the spawn, and
a failing spawn leaves it there. -/
def startWith (m : Manager) (k : Kernel) (r : Role) (command : Command)
    (context : String) (env : SpawnEnv) :
    Manager × Kernel × Except String Unit :=
  match spawnWithLog k r command env with
  | (k, .error e) =>
      ({ m with state := .starting }, k.emit (.spawnFailed r),
        .error (context ++ ": " ++ e))
  | (k, .ok pid) =>
      ({ m with state := .launched, childPid := some pid }, k, .ok ())

/-- The manager `stop` leaves behind. -/
def halted (m : Manager) : Manager :=
  { m with state := .idle, childPid := none, readySince := none }

/-- `stop`, with what it does to the tracked pid after `graceful_kill`.  The
method returns `Ok(())` whenever it returns. -/
def stopWith (m : Manager) (k : Kernel) (r : Role) (graceSecs : UInt64)
    (sweep : Kernel → Pid → Kernel) (env : KillEnv) :
    Except Kernel (Manager × Kernel) :=
  match m.childPid with
  | none => .ok (m.halted, k.emit (.stopped r))
  | some pid =>
      match gracefulKill k pid graceSecs env with
      | .error k => .error k
      | .ok (k, _) => .ok (m.halted, (sweep k pid).emit (.stopped r))

end Manager

end Teeproxyd
