import Teeproxyd.Support.ProcessTable
import Teeproxyd.Daemon.Event

/-!
# The kernel under the daemon

What the daemon's system calls act on: the clock, the table of its un-reaped
children, the pids other processes hold, the running crosvm processes, the
pending signals with the self-pipe, and a log of events, newest first.  No
function of the daemon reads the log.

A process that ends stays in the table as a zombie, and `kill(pid, 0)` succeeds
on it, until `waitpid` removes it.
-/

namespace Teeproxyd

open ProcessTable

structure Kernel where
  now : Instant
  table : Table Role
  /-- Pids of processes that are not un-reaped children of the daemon. -/
  others : List Pid
  /-- The running crosvm processes by parent; `none` after re-parenting. -/
  crosvms : List (Option Pid)
  chldPending : Bool
  termPending : Bool
  /-- The unread bytes of the self-pipe, oldest first. -/
  pipe : List Char
  /-- How much has been read of the page that holds the oldest of them. -/
  pipeOffset : ℕ
  log : List (Instant × Event)

/-- The size of the pages that the buffer of a pipe is made of. -/
def pageSize : ℕ := 4096

/-- The capacity of the pipe that `nix::unistd::pipe` creates: sixteen pages. -/
def pipeCapacity : ℕ := 16 * pageSize

namespace Kernel

def emit (k : Kernel) (e : Event) : Kernel :=
  { k with log := (k.now, e) :: k.log }

def advance (k : Kernel) (d : ℕ) : Kernel := { k with now := k.now + d }

/-- Whose un-reaped child holds the pid. -/
def childOf (k : Kernel) (pid : Pid) : Option Role :=
  (k.table.find pid).map Proc.owner

/-- A child of the daemon ends: it becomes a zombie, its crosvm is re-parented
and SIGCHLD is raised. -/
def exitProc (k : Kernel) (pid : Pid) : Kernel :=
  { k with
    table := k.table.exit pid
    crosvms := k.crosvms.map fun parent =>
      if parent = some pid then none else parent
    chldPending := true }.emit (.exited pid)

/-- `fork` and `exec` of a new child; the pid is one that no process holds. -/
def spawn (k : Kernel) (r : Role) (hint : Pid) (command : Command) :
    Kernel × Pid :=
  let pid := Table.freshPid (k.table.pids ++ k.others) hint
  ({ k with table := k.table.spawn r pid }.emit (.spawned r pid command), pid)

/-- `kill(pid, sig)`.  SIGKILL ends a running child; whether and when SIGTERM
does is up to the child. -/
def kill (k : Kernel) (pid : Pid) (sig : Signal) : Kernel :=
  let k := k.emit (.signalled pid sig (k.childOf pid))
  match sig with
  | .sigkill => if k.table.isAlive pid then k.exitProc pid else k
  | .sigterm => k

/-- `waitpid` removes a zombie from the table. -/
def reap (k : Kernel) (pid : Pid) : Kernel :=
  { k with table := k.table.reap pid }

/-- A helper process is run and waited for, as `Command::status` and
`Command::output` do; its end raises SIGCHLD. -/
def runHelper (k : Kernel) (took : ℕ) : Kernel :=
  { k.advance took with chldPending := true }

/-- `pkill -P parent -9`: ends the crosvm processes that are still children of
`parent`. -/
def pkillChildren (k : Kernel) (parent : Pid) : Kernel :=
  let k := k.runHelper 0
  { k with crosvms := k.crosvms.filter fun p => p ≠ some parent }.emit
    (.pkilledChildren parent (k.childOf parent))

/-- `pkill -9 -f crosvm`.  It ends whatever has `crosvm` in its command line;
that no child of the daemon has, its path and image directory included, is
assumed here. -/
def pkillCrosvm (k : Kernel) : Kernel :=
  { k.runHelper 0 with crosvms := [] }.emit .pkilledCrosvm

/-- A byte is written to the newest page, or to a new one if that is full or
the pipe is empty.  A page is given back when its last byte has been read, so
what has been read of the oldest page still takes up room. -/
def HasPipeRoom (k : Kernel) : Prop :=
  k.pipeOffset + k.pipe.length < pipeCapacity

instance (k : Kernel) : Decidable k.HasPipeRoom :=
  inferInstanceAs (Decidable (_ < _))

def writePipe (k : Kernel) (byte : Char) : Kernel :=
  { k with pipe := k.pipe ++ [byte] }

/-- A `read` of at most `n` bytes from the self-pipe. -/
def readPipe (k : Kernel) (n : ℕ) : Kernel :=
  let rest := k.pipe.drop n
  { k with
    pipe := rest
    pipeOffset := if rest = [] then 0 else (k.pipeOffset + n) % pageSize }

/-- The pids of the children of a role that have been spawned, newest first. -/
def spawnsIn (log : List (Instant × Event)) (r : Role) : List Pid :=
  log.filterMap fun
    | (_, .spawned q pid _) => if q = r then some pid else none
    | _ => none

/-- The vsock probes that have been made, with their results, newest first. -/
def vsockProbes (log : List (Instant × Event)) : List (Instant × Bool) :=
  log.filterMap fun
    | (t, .vsockProbe ok) => some (t, ok)
    | _ => none

end Kernel

end Teeproxyd
