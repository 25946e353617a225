import Teeproxyd.Daemon.Kernel

/-!
# `process.rs`

Spawning with a log file, the SIGTERM-then-SIGKILL stop, and the liveness
test.  The environment's part of a call (what the system calls answer, how
long they take, when a process ends by itself) is an argument of its own.
-/

namespace Teeproxyd

open ProcessTable

/-! ## Spawning -/

/-- What the system answers to `spawn_with_log`: opening the log file, cloning
its handle, and the spawn itself with the pid the new child gets. -/
structure SpawnEnv where
  openLog : Except String Unit
  cloneLog : Except String Unit
  spawn : Except String Pid
  took : ℕ

def SpawnEnv.answer (env : SpawnEnv) : Except String Pid := do
  env.openLog
  env.cloneLog
  env.spawn

/-- `spawn_with_log`.  What becomes of the log file touches no state of the
daemon and is modelled apart, in `LogFiles`. -/
def spawnWithLog (k : Kernel) (r : Role) (command : Command)
    (env : SpawnEnv) : Kernel × Except String Pid :=
  match env.answer with
  | .error e => (k, .error e)
  | .ok hint =>
      let (k, pid) := (k.advance env.took).spawn r hint command
      (k, .ok pid)

/-! ## Stopping -/

/-- `is_alive`: `kill(pid, 0)` succeeds when any process holds the pid, and a
zombie does. -/
def isAlive (k : Kernel) (pid : Pid) : Bool :=
  pid ∈ k.table.pids || pid ∈ k.others

/-- How the process that `graceful_kill` stops behaves: when it ends by
itself, if it does, and by how much each sleep overruns. -/
structure KillEnv where
  exitAt : Option Instant
  lag : Instant → ℕ

/-- `thread::sleep`, during which the process may end by itself. -/
def sleep (k : Kernel) (d : ℕ) (pid : Pid) (env : KillEnv) : Kernel :=
  let k := k.advance (d + env.lag k.now)
  if env.exitAt.any (· ≤ k.now) && k.table.isAlive pid then k.exitProc pid
  else k

/-- The polling loop of `graceful_kill`, with a bound on its iterations.  The
flag says whether the loop returned early. -/
def gracefulPoll (pid : Pid) (deadline : Instant) (env : KillEnv) :
    ℕ → Kernel → Kernel × Bool
  | 0, k => (k, false)
  | n + 1, k =>
      if k.now < deadline then
        if !isAlive k pid then (k, true)
        else gracefulPoll pid deadline env n (sleep k (fromMillis 200) pid env)
      else (k, false)

/-- No iteration is shorter than 200 ms, so the deadline ends the loop within
this many. -/
def pollBound (now deadline : Instant) : ℕ :=
  (deadline - now) / fromMillis 200 + 1

/-- The end of `graceful_kill`: still alive, force kill. -/
def forceKill (k : Kernel) (pid : Pid) (env : KillEnv) : Kernel × Bool :=
  let k := sleep (k.kill pid .sigkill) (fromMillis 100) pid env
  (k, !isAlive k pid)

/-- `graceful_kill` from its loop on. -/
def awaitDeadline (k : Kernel) (pid : Pid) (deadline : Instant)
    (env : KillEnv) : Kernel × Bool :=
  match gracefulPoll pid deadline env (pollBound k.now deadline) k with
  | (k, true) => (k, true)
  | (k, false) => forceKill k pid env

/-- `graceful_kill`.  An error is a panic, with the kernel it leaves behind:
`Instant + Duration` overflows. -/
def gracefulKill (k : Kernel) (pid : Pid) (graceSecs : UInt64)
    (env : KillEnv) : Except Kernel (Kernel × Bool) :=
  if !isAlive k pid then .ok (k, true)
  else
    let k := k.kill pid .sigterm
    match Instant.plus k.now (fromSecs graceSecs) with
    | none => .error k
    | some deadline => .ok (awaitDeadline k pid deadline env)

/-- `kill_tree`, which is only called with SIGKILL. -/
def killTree (k : Kernel) (pid : Pid) : Kernel :=
  (k.kill pid .sigkill).pkillChildren pid

end Teeproxyd
