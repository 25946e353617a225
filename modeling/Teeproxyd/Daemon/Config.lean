import Mathlib.Algebra.Group.Nat.Defs

/-!
# Configuration and clock

The configuration record of the daemon with its defaults, and the monotonic
clock its timeouts are measured on.  Instants and durations are counted in
nanoseconds.
-/

namespace Teeproxyd

/-! ## Instants and durations -/

/-- A reading of the monotonic clock, in nanoseconds. -/
abbrev Instant := ℕ

/-- `Duration::from_secs`. -/
def fromSecs (secs : UInt64) : ℕ := 1000000000 * secs.toNat

/-- `Duration::from_millis`. -/
def fromMillis (millis : ℕ) : ℕ := 1000000 * millis

/-- The seconds of an `Instant` are an `i64`. -/
def instantLimit : ℕ := 2 ^ 63 * 1000000000

/-- `Instant + Duration`: `none` where the addition overflows, at which point
the program panics. -/
def Instant.plus (now : Instant) (d : ℕ) : Option Instant :=
  if now + d < instantLimit then some (now + d) else none

/-- `Instant::elapsed`, for a reading `now` of the clock. -/
def Instant.elapsed (since now : Instant) : ℕ := now - since

/-! ## `config.rs` -/

/-- `Path::join`, for a relative second part. -/
def joinPath (dir name : String) : String :=
  if dir.toList.getLast? = some '/' ∨ dir.toList = [] then dir ++ name
  else dir ++ "/" ++ name

structure Config where
  imageDir : String
  vmCpus : UInt32
  vmMemMb : UInt32
  vsockCid : UInt32
  caBinary : String
  caPort : UInt16
  caAdminToken : String
  caLogLevel : String
  dataDir : String
  logDir : String
  autoStart : Bool
  healthIntervalSecs : UInt64
  healthFailThreshold : UInt32
  vmBootTimeoutSecs : UInt64
  vsockProbeDelaySecs : UInt64
  caReadyTimeoutSecs : UInt64
  shutdownGraceSecs : UInt64

/-- `Config::default`, field by field what `#[serde(default = ..)]` fills in. -/
def Config.default : Config where
  imageDir := "/data/teeproxy/vm"
  vmCpus := 2
  vmMemMb := 256
  vsockCid := 103
  caBinary := "/data/teeproxy/bin/secret_proxy_ca"
  caPort := 19030
  caAdminToken := "dev-admin-token-change-me-please-0001"
  caLogLevel := "info"
  dataDir := "/data/teeproxy"
  logDir := "/data/teeproxy/logs"
  autoStart := true
  healthIntervalSecs := 10
  healthFailThreshold := 3
  vmBootTimeoutSecs := 60
  vsockProbeDelaySecs := 15
  caReadyTimeoutSecs := 15
  shutdownGraceSecs := 3

end Teeproxyd
