import Teeproxyd.Daemon.Vm

/-!
# `ca.rs`
-/

namespace Teeproxyd

abbrev CaManager := Manager

namespace CaManager

/-- The CA command line. -/
def command (cfg : Config) : Command where
  program := cfg.caBinary
  args := ["serve", "--port", toString cfg.caPort]
  env :=
    [("VSOCK_CID", toString cfg.vsockCid),
      ("RUST_LOG", cfg.caLogLevel),
      ("SECRET_PROXY_CA_ADMIN_TOKEN", cfg.caAdminToken)]
  logFile := joinPath cfg.logDir "ca.log"
  cwd := none

def start (cfg : Config) (ca : CaManager) (k : Kernel) (env : StartEnv) :
    CaManager × Kernel × Except String Unit :=
  if !env.pathExists cfg.caBinary then
    (ca, k, .error ("CA binary not found: " ++ cfg.caBinary))
  else ca.startWith k .ca (command cfg) "spawn CA" env.spawn

def stop (cfg : Config) (ca : CaManager) (k : Kernel) (env : KillEnv) :
    Except Kernel (CaManager × Kernel) :=
  ca.stopWith k .ca cfg.shutdownGraceSecs (fun k _ => k) env

/-- `is_port_ready`: whether a TCP connection to the CA port succeeds.  The
answer may come from a process the daemon does not track. -/
def isPortReady (k : Kernel) (ok : Bool) (took : ℕ) : Kernel :=
  (k.advance took).emit (.portProbe ok)

end CaManager

end Teeproxyd
