import Teeproxyd.Daemon.Config

/-!
# What the daemon's log records

The daemon supervises two children, the VM (`pvm-manage`) and the CA
(`secret_proxy_ca`).  An event is something the daemon does or learns: a system
call, the answer of a probe, a client's command, or a line of its own log.
-/

namespace Teeproxyd

/-- The two children the daemon supervises. -/
inductive Role
  | vm
  | ca
deriving DecidableEq, Repr

abbrev Pid := ℕ

/-- The signals the daemon sends. -/
inductive Signal
  | sigterm
  | sigkill
deriving DecidableEq, Repr

/-- What a `std::process::Command` is told before it is spawned. -/
structure Command where
  program : String
  args : List String
  env : List (String × String)
  logFile : String
  cwd : Option String
deriving DecidableEq, Repr

/-- The outcomes of `TcpStream::connect_timeout` that the health monitor tells
apart. -/
inductive Connect
  | connected
  | refused
  | timedOut
  | otherError
deriving DecidableEq, Repr

/-- The commands of the IPC protocol. -/
inductive Cmd
  | ping
  | status
  | startAll
  | stopAll
  | startVm
  | stopVm
  | startCa
  | stopCa
  | tailLog
  | unknown (cmd : String)
deriving DecidableEq, Repr

namespace Cmd

def parse : String → Cmd
  | "ping" => .ping
  | "status" => .status
  | "start_all" => .startAll
  | "stop_all" => .stopAll
  | "start_vm" => .startVm
  | "stop_vm" => .stopVm
  | "start_ca" => .startCa
  | "stop_ca" => .stopCa
  | "tail_log" => .tailLog
  | cmd => .unknown cmd

/-- The command asks for the child of this role to be started. -/
def starts : Cmd → Role → Bool
  | startAll, _ => true
  | startVm, .vm => true
  | startCa, .ca => true
  | _, _ => false

/-- The command stops the child of this role. -/
def stops : Cmd → Role → Bool
  | stopAll, _ => true
  | stopVm, .vm => true
  | stopCa, .ca => true
  | _, _ => false

/-- One of the six commands by which an operator starts or stops a child. -/
def isOperator (c : Cmd) : Bool :=
  c.starts .vm || c.starts .ca || c.stops .vm || c.stops .ca

end Cmd

inductive Event
  /-- A child has ended; it stays a zombie until it is reaped. -/
  | exited (pid : Pid)
  | spawned (r : Role) (pid : Pid) (command : Command)
  | spawnFailed (r : Role)
  /-- `kill(pid, sig)`, and whose un-reaped child held the pid at that time. -/
  | signalled (pid : Pid) (sig : Signal) (child : Option Role)
  /-- `pkill -P parent -9`, and whose un-reaped child held the pid `parent`. -/
  | pkilledChildren (parent : Pid) (child : Option Role)
  /-- `pkill -9 -f crosvm`. -/
  | pkilledCrosvm
  | stopped (r : Role)
  /-- The tracked child was reaped. -/
  | died (r : Role) (pid : Pid)
  /-- Five strikes: the manager enters `Error`. -/
  | condemned (r : Role)
  /-- An untracked child was reaped. -/
  | discarded (pid : Pid)
  /-- A child was reaped, but its wait status could not be decoded. -/
  | lost (pid : Pid)
  /-- A manager enters `Ready`. -/
  | ready (r : Role)
  /-- A manager's crash count is cleared. -/
  | countReset (r : Role)
  | vsockProbe (ok : Bool)
  | portProbe (ok : Bool)
  | healthProbe (outcome : Connect)
  /-- A client's command has been handled. -/
  | handled (cmd : Cmd)
deriving DecidableEq, Repr

end Teeproxyd
