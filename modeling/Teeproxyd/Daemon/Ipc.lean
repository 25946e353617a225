import Teeproxyd.Daemon.Json
import Teeproxyd.Daemon.LogCollector
import Teeproxyd.Daemon.Startup

/-!
# `ipc.rs`: the request handlers

What `handle_client` does with one request line that parsed as JSON.  The
startup phase is passed by shared reference, so no handler changes it.
-/

namespace Teeproxyd

/-! ## The `Debug` text of a startup phase -/

def debugChar : Char → String
  | '\x00' => "\x5c0"
  | '\t' => "\x5ct"
  | '\n' => "\x5cn"
  | '\r' => "\x5cr"
  | '\x22' => "\x5c\x22"
  | '\x5c' => "\x5c\x5c"
  | c => c.toString

/-- `{:?}` of a string of printable characters. -/
def debugString (s : String) : String :=
  "\x22" ++ String.join (s.toList.map debugChar) ++ "\x22"

def debugInstant (t : Instant) : String :=
  "Instant \x7b tv_sec: " ++ toString (t / 1000000000) ++
    ", tv_nsec: " ++ toString (t % 1000000000) ++ " \x7d"

def StartupPhase.debug : StartupPhase → String
  | notStarted => "NotStarted"
  | vmStarting => "VmStarting"
  | waitingVsock deadline bootStart delayDone =>
      "WaitingVsock \x7b deadline: " ++ debugInstant deadline ++
        ", boot_start: " ++ debugInstant bootStart ++
        ", delay_done: " ++ toString delayDone ++ " \x7d"
  | caStarting => "CaStarting"
  | waitingCaPort deadline =>
      "WaitingCaPort \x7b deadline: " ++ debugInstant deadline ++ " \x7d"
  | complete => "Complete"
  | failed reason => "Failed(" ++ debugString reason ++ ")"

/-! ## The handlers -/

/-- What one request is answered by the system: the starts and stops it may
make, and the contents of the log files. -/
structure RequestEnv where
  vmStart : StartEnv
  caStart : StartEnv
  vmKill : KillEnv
  caKill : KillEnv
  files : String → Option ByteArray

/-- `MAX_TAIL_LINES`. -/
def maxTailLines : ℕ := 10000

def okMsg (msg : String) : Value :=
  .object [("ok", .bool true), ("msg", .string msg)]

def errorMsg (e : String) : Value :=
  .object [("ok", .bool false), ("error", .string e)]

def handleStatus (cfg : Config) (startup : StartupPhase)
    (startedAt : Instant) (sys : Sys) : Value :=
  .object
    [("ok", .bool true),
      ("vm", .string (VmState.serialize sys.vm.state)),
      ("ca", .string (CaState.serialize sys.ca.state)),
      ("startup_phase", .string startup.debug),
      ("vm_cid", .ofNat cfg.vsockCid.toNat),
      ("ca_port", .ofNat cfg.caPort.toNat),
      ("uptime_secs",
        .ofNat (startedAt.elapsed sys.kernel.now / 1000000000))]

def handleStartAll (cfg : Config) (sys : Sys) (env : RequestEnv) :
    Sys × Value :=
  match VmManager.start cfg sys.vm sys.kernel env.vmStart with
  | (vm, k, .error e) =>
      ({ sys with vm := vm, kernel := k }, errorMsg ("VM: " ++ e))
  | (vm, k, .ok ()) =>
      ({ sys with vm := vm, kernel := k }, okMsg "starting")

theorem handleStartAll_fst (cfg : Config) (sys : Sys) (env : RequestEnv) :
    (handleStartAll cfg sys env).1 =
      sys.set .vm (VmManager.start cfg sys.vm sys.kernel env.vmStart).1
        (VmManager.start cfg sys.vm sys.kernel env.vmStart).2.1 := by
  unfold handleStartAll
  split <;> next h => rw [h]; rfl

def handleStopAll (cfg : Config) (sys : Sys) (env : RequestEnv) :
    Except Kernel (Sys × Value) := do
  let (ca, k) ← CaManager.stop cfg sys.ca sys.kernel env.caKill
  let (vm, k) ← VmManager.stop cfg sys.vm k env.vmKill
  .ok (⟨vm, ca, k⟩, okMsg "stopped")

def handleStartVm (cfg : Config) (sys : Sys) (env : RequestEnv) :
    Sys × Value :=
  match VmManager.start cfg sys.vm sys.kernel env.vmStart with
  | (vm, k, .ok ()) =>
      ({ sys with vm := vm, kernel := k }, okMsg "vm starting")
  | (vm, k, .error e) => ({ sys with vm := vm, kernel := k }, errorMsg e)

theorem handleStartVm_fst (cfg : Config) (sys : Sys) (env : RequestEnv) :
    (handleStartVm cfg sys env).1 =
      sys.set .vm (VmManager.start cfg sys.vm sys.kernel env.vmStart).1
        (VmManager.start cfg sys.vm sys.kernel env.vmStart).2.1 := by
  unfold handleStartVm
  split <;> next h => rw [h]; rfl

def handleStopVm (cfg : Config) (sys : Sys) (env : RequestEnv) :
    Except Kernel (Sys × Value) := do
  let (vm, k) ← VmManager.stop cfg sys.vm sys.kernel env.vmKill
  .ok ({ sys with vm := vm, kernel := k }, okMsg "vm stopped")

def handleStartCa (cfg : Config) (sys : Sys) (env : RequestEnv) :
    Sys × Value :=
  match CaManager.start cfg sys.ca sys.kernel env.caStart with
  | (ca, k, .ok ()) =>
      ({ sys with ca := ca, kernel := k }, okMsg "ca starting")
  | (ca, k, .error e) => ({ sys with ca := ca, kernel := k }, errorMsg e)

theorem handleStartCa_fst (cfg : Config) (sys : Sys) (env : RequestEnv) :
    (handleStartCa cfg sys env).1 =
      sys.set .ca (CaManager.start cfg sys.ca sys.kernel env.caStart).1
        (CaManager.start cfg sys.ca sys.kernel env.caStart).2.1 := by
  unfold handleStartCa
  split <;> next h => rw [h]; rfl

def handleStopCa (cfg : Config) (sys : Sys) (env : RequestEnv) :
    Except Kernel (Sys × Value) := do
  let (ca, k) ← CaManager.stop cfg sys.ca sys.kernel env.caKill
  .ok ({ sys with ca := ca, kernel := k }, okMsg "ca stopped")

def handleTailLog (cfg : Config) (req : Value)
    (files : String → Option ByteArray) : Value :=
  let source := (req.index "source").asStr.getD "daemon"
  let requested := ((req.index "lines").asU64.getD 200).toNat
  let lines := min requested maxTailLines
  let logPath : Option String :=
    match source with
    | "vm" => some (joinPath cfg.logDir "pvm.log")
    | "pvm" => some (joinPath cfg.logDir "pvm.log")
    | "ca" => some (joinPath cfg.logDir "ca.log")
    | "daemon" => some (joinPath cfg.logDir "daemon.log")
    | _ => none
  match logPath with
  | none => errorMsg ("unknown source: " ++ source)
  | some path =>
      .object
        [("ok", .bool true),
          ("content", .string (tailLog (files path) lines))]

/-- `req["cmd"].as_str().unwrap_or("")`, as a command. -/
def requestCmd (req : Value) : Cmd :=
  Cmd.parse ((req.index "cmd").asStr.getD "")

/-- The `match cmd` of `handle_client`. -/
def dispatch (cfg : Config) (startup : StartupPhase) (startedAt : Instant)
    (req : Value) (sys : Sys) (env : RequestEnv) :
    Except Kernel (Sys × Value) :=
  match requestCmd req with
  | .ping => .ok (sys, okMsg "pong")
  | .status => .ok (sys, handleStatus cfg startup startedAt sys)
  | .startAll => .ok (handleStartAll cfg sys env)
  | .stopAll => handleStopAll cfg sys env
  | .startVm => .ok (handleStartVm cfg sys env)
  | .stopVm => handleStopVm cfg sys env
  | .startCa => .ok (handleStartCa cfg sys env)
  | .stopCa => handleStopCa cfg sys env
  | .tailLog => .ok (sys, handleTailLog cfg req env.files)
  | .unknown cmd => .ok (sys, errorMsg ("unknown cmd: " ++ cmd))

/-! ## The starts and stops among the requests -/

/-- The `start` that a command makes, with the system's answers. -/
def RequestEnv.call (env : RequestEnv) : Cmd → Role → Option StartEnv
  | .startAll, .vm => some env.vmStart
  | .startVm, .vm => some env.vmStart
  | .startCa, .ca => some env.caStart
  | _, _ => none

/-- A starting command calls `start` and does nothing else. -/
theorem dispatch_call (cfg : Config) (startup : StartupPhase)
    (startedAt : Instant) (sys : Sys) {req : Value} {env : RequestEnv}
    {r : Role} {env' : StartEnv}
    (hcall : env.call (requestCmd req) r = some env') :
    ∃ reply, dispatch cfg startup startedAt req sys env =
      .ok (sys.set r (r.start cfg (sys.mgr r) sys.kernel env').1
        (r.start cfg (sys.mgr r) sys.kernel env').2.1, reply) := by
  unfold dispatch
  generalize requestCmd req = cmd at hcall
  cases cmd <;> cases r <;> cases hcall
  case startAll.vm =>
    refine ⟨(handleStartAll cfg sys env).2, ?_⟩
    exact congrArg Except.ok (Prod.ext (handleStartAll_fst cfg sys env) rfl)
  case startVm.vm =>
    refine ⟨(handleStartVm cfg sys env).2, ?_⟩
    exact congrArg Except.ok (Prod.ext (handleStartVm_fst cfg sys env) rfl)
  case startCa.ca =>
    refine ⟨(handleStartCa cfg sys env).2, ?_⟩
    exact congrArg Except.ok (Prod.ext (handleStartCa_fst cfg sys env) rfl)

/-- The signals of a command to the child of a role. -/
def RequestEnv.kill (env : RequestEnv) : Role → KillEnv
  | .vm => env.vmKill
  | .ca => env.caKill

/-- How a command without a `start` ends: it leaves the managers alone, or it
stops one child, or the CA and then the VM.  The errors are the panics. -/
inductive Serves (cfg : Config) (sys : Sys) (env : RequestEnv) :
    Cmd → Except Kernel Sys → Prop
  | asks {cmd : Cmd} (hstops : ∀ r, cmd.stops r = false) :
      Serves cfg sys env cmd (.ok sys)
  | stops {cmd : Cmd} {r : Role} {m : Manager} {k : Kernel}
      (hstops : ∀ r', cmd.stops r' = true ↔ r' = r)
      (hstop : r.stop cfg (sys.mgr r) sys.kernel (env.kill r) = .ok (m, k)) :
      Serves cfg sys env cmd (.ok (sys.set r m k))
  | stopPanics {cmd : Cmd} {r : Role} {k : Kernel}
      (hstops : cmd.stops r = true)
      (hstop : r.stop cfg (sys.mgr r) sys.kernel (env.kill r) = .error k) :
      Serves cfg sys env cmd (.error k)
  | stopsBoth {ca vm : Manager} {k k' : Kernel}
      (hca : CaManager.stop cfg sys.ca sys.kernel env.caKill = .ok (ca, k))
      (hvm : VmManager.stop cfg sys.vm k env.vmKill = .ok (vm, k')) :
      Serves cfg sys env .stopAll (.ok ⟨vm, ca, k'⟩)
  | secondPanics {ca : Manager} {k k' : Kernel}
      (hca : CaManager.stop cfg sys.ca sys.kernel env.caKill = .ok (ca, k))
      (hvm : VmManager.stop cfg sys.vm k env.vmKill = .error k') :
      Serves cfg sys env .stopAll (.error k')

theorem handleStopAll_serves (cfg : Config) (sys : Sys) (env : RequestEnv) :
    Serves cfg sys env .stopAll
      ((handleStopAll cfg sys env).map Prod.fst) := by
  unfold handleStopAll
  cases hca : CaManager.stop cfg sys.ca sys.kernel env.caKill with
  | error k => exact .stopPanics (r := .ca) rfl hca
  | ok result =>
      obtain ⟨ca, k⟩ := result
      simp only [bind, Except.bind]
      cases hvm : VmManager.stop cfg sys.vm k env.vmKill with
      | error k' => exact .secondPanics hca hvm
      | ok result' => exact .stopsBoth hca hvm

theorem handleStopVm_serves (cfg : Config) (sys : Sys) (env : RequestEnv) :
    Serves cfg sys env .stopVm ((handleStopVm cfg sys env).map Prod.fst) := by
  unfold handleStopVm
  cases hvm : VmManager.stop cfg sys.vm sys.kernel env.vmKill with
  | error k => exact .stopPanics (r := .vm) rfl hvm
  | ok result =>
      refine .stops (r := .vm) (fun r => ?_) hvm
      cases r <;> simp [Cmd.stops]

theorem handleStopCa_serves (cfg : Config) (sys : Sys) (env : RequestEnv) :
    Serves cfg sys env .stopCa ((handleStopCa cfg sys env).map Prod.fst) := by
  unfold handleStopCa
  cases hca : CaManager.stop cfg sys.ca sys.kernel env.caKill with
  | error k => exact .stopPanics (r := .ca) rfl hca
  | ok result =>
      refine .stops (r := .ca) (fun r => ?_) hca
      cases r <;> simp [Cmd.stops]

theorem dispatch_serves (cfg : Config) (startup : StartupPhase)
    (startedAt : Instant) (sys : Sys) {req : Value} {env : RequestEnv}
    (hcall : ∀ r, env.call (requestCmd req) r = none) :
    Serves cfg sys env (requestCmd req)
      ((dispatch cfg startup startedAt req sys env).map Prod.fst) := by
  unfold dispatch
  generalize requestCmd req = cmd at hcall
  cases cmd with
  | startAll => cases hcall .vm
  | startVm => cases hcall .vm
  | startCa => cases hcall .ca
  | stopAll => exact handleStopAll_serves cfg sys env
  | stopVm => exact handleStopVm_serves cfg sys env
  | stopCa => exact handleStopCa_serves cfg sys env
  | ping => exact .asks fun _ => rfl
  | status => exact .asks fun _ => rfl
  | tailLog => exact .asks fun _ => rfl
  | unknown cmd => exact .asks fun _ => rfl

/-- Only an operator's command can panic. -/
theorem dispatch_error {cfg : Config} {startup : StartupPhase}
    {startedAt : Instant} {req : Value} {sys : Sys} {env : RequestEnv}
    {k : Kernel} (h : dispatch cfg startup startedAt req sys env = .error k) :
    (requestCmd req).isOperator = true := by
  unfold dispatch at h
  generalize requestCmd req = cmd at h
  cases cmd <;> first | rfl | cases h

/-- A stopping command that returns leaves the manager idle. -/
theorem dispatch_stops {cfg : Config} {startup : StartupPhase}
    {startedAt : Instant} {req : Value} {sys sys' : Sys} {env : RequestEnv}
    {reply : Value} {r : Role} (hstops : (requestCmd req).stops r = true)
    (h : dispatch cfg startup startedAt req sys env = .ok (sys', reply)) :
    sys'.mgr r = (sys.mgr r).halted := by
  have hcall : ∀ r', env.call (requestCmd req) r' = none := by
    generalize requestCmd req = cmd at hstops
    cases cmd <;> first | exact fun _ => rfl | cases hstops
  have hserves := dispatch_serves cfg startup startedAt sys hcall
  rw [h] at hserves
  generalize requestCmd req = cmd at hstops hserves
  cases hserves with
  | asks hno => cases (hno r).symm.trans hstops
  | @stops _ _ m k honly hstop =>
      obtain rfl := (honly r).mp hstops
      have hmgr : (sys.set r m k).mgr r = m := by
        rw [Sys.set_mgr, Function.update_self]
      exact hmgr.trans (stop_ok hstop)
  | stopsBoth hca hvm =>
      cases r with
      | vm => exact stop_ok (r := .vm) hvm
      | ca => exact stop_ok (r := .ca) hca

end Teeproxyd
