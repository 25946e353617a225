import Teeproxyd.Daemon.Manager

/-!
# `vm.rs`
-/

namespace Teeproxyd

abbrev VmManager := Manager

/-- What the system answers to a `start`: which files exist, what `metadata`
says of their length, and the answers to the spawn. -/
structure StartEnv where
  pathExists : String → Bool
  metadata : String → Except String ℕ
  spawn : SpawnEnv

namespace VmManager

def requiredImages : List String :=
  ["pvm-manage", "crosvm", "custom_pvmfw", "kernel.bin", "disk.img"]

def sizedImages : List String := ["kernel.bin", "disk.img"]

def validateImages (cfg : Config) (env : StartEnv) : Except String Unit := do
  let dir := cfg.imageDir
  requiredImages.forM fun name =>
    if !env.pathExists (joinPath dir name) then
      .error (name ++ " not found in " ++ dir)
    else .ok ()
  sizedImages.forM fun name =>
    match env.metadata (joinPath dir name) with
    | .error e => .error ("stat " ++ name ++ ": " ++ e)
    | .ok len =>
        if len < 1000000 then
          .error (name ++ " too small (" ++ toString len ++ "B)")
        else .ok ()

/-- The `pvm-manage` command line. -/
def command (cfg : Config) : Command where
  program := joinPath cfg.imageDir "pvm-manage"
  args :=
    ["run", "--protected-vm-with-pvmfw", "--",
      "--cpus", toString cfg.vmCpus,
      "--mem", "size=" ++ toString cfg.vmMemMb,
      "--block", "disk.img",
      "--cid", toString cfg.vsockCid,
      "kernel.bin"]
  env := [("HOME", cfg.imageDir)]
  logFile := joinPath cfg.logDir "pvm.log"
  cwd := some cfg.imageDir

def start (cfg : Config) (vm : VmManager) (k : Kernel) (env : StartEnv) :
    VmManager × Kernel × Except String Unit :=
  match validateImages cfg env with
  | .error e => (vm, k, .error e)
  | .ok () => vm.startWith k .vm (command cfg) "spawn pvm-manage" env.spawn

/-- Besides the tracked process, `stop` kills its children and every
crosvm. -/
def stop (cfg : Config) (vm : VmManager) (k : Kernel) (env : KillEnv) :
    Except Kernel (VmManager × Kernel) :=
  vm.stopWith k .vm cfg.shutdownGraceSecs
    (fun k pid => (killTree k pid).pkillCrosvm) env

/-- `probe_vsock`: runs the CA's `vsock-test` subcommand and waits for it. -/
def probeVsock (k : Kernel) (ok : Bool) (took : ℕ) : Kernel :=
  (k.runHelper took).emit (.vsockProbe ok)

end VmManager

end Teeproxyd
