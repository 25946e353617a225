import Teeproxyd.Daemon.Event

/-!
# `health.rs`
-/

namespace Teeproxyd

inductive HealthResult
  | ok
  | degraded (n : UInt32)
  | restartNeeded
deriving DecidableEq, Repr

structure HealthMonitor where
  port : UInt16
  failThreshold : UInt32
  consecutiveFailures : UInt32
  consecutiveTimeouts : UInt32
  timeoutThreshold : UInt32
deriving DecidableEq, Repr

namespace HealthMonitor

def new (port : UInt16) (failThreshold : UInt32) : HealthMonitor where
  port := port
  failThreshold := failThreshold
  consecutiveFailures := 0
  consecutiveTimeouts := 0
  timeoutThreshold := 10

/-- `probe`, for the outcome of its connection attempt. -/
def probe (h : HealthMonitor) : Connect → HealthMonitor × HealthResult
  | .connected =>
      ({ h with consecutiveFailures := 0, consecutiveTimeouts := 0 }, .ok)
  | .refused =>
      let failures := h.consecutiveFailures + 1
      if failures ≥ h.failThreshold then
        ({ h with consecutiveTimeouts := 0, consecutiveFailures := 0 },
          .restartNeeded)
      else
        ({ h with consecutiveTimeouts := 0, consecutiveFailures := failures },
          .degraded failures)
  | .timedOut =>
      let timeouts := h.consecutiveTimeouts + 1
      if timeouts ≥ h.timeoutThreshold then
        ({ h with consecutiveTimeouts := 0 }, .restartNeeded)
      else ({ h with consecutiveTimeouts := timeouts }, .ok)
  | .otherError => (h, .ok)

end HealthMonitor

end Teeproxyd
