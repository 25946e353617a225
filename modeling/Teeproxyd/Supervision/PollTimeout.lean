import Teeproxyd.Daemon.MainLoop

/-!
# How long the main loop sleeps

In the phases without a timetable of their own, the loop sleeps until the next
health check, between 100 ms and 10 s.  The milliseconds are cast to an `i32`
before they are brought between these bounds, so an interval of 24.9 days or
more may wrap to a negative number, and then the loop wakes every 100 ms.
-/

namespace Teeproxyd

variable {cfg : Config} {phase : StartupPhase} {lastHealth now : Instant}

/-- `WaitingVsock` and `WaitingCaPort`, in which the loop wakes for its probes. -/
def StartupPhase.isProbing : StartupPhase → Bool
  | waitingVsock _ _ _ | waitingCaPort _ => true
  | _ => false

/-- The whole milliseconds until the next health check, 0 if it is overdue. -/
def millisUntilHealth (cfg : Config) (lastHealth now : Instant) : ℕ :=
  (fromSecs cfg.healthIntervalSecs - lastHealth.elapsed now) / 1000000

/-- The cast to `i32` leaves the clamped value as it is: the number is below
the upper bound, or what is left of it is at least this bound. -/
def SurvivesCast (m : ℕ) : Prop :=
  m < 10000 ∨ 10000 ≤ m % 2 ^ 32 ∧ m % 2 ^ 32 < 2 ^ 31

instance (m : ℕ) : Decidable (SurvivesCast m) :=
  inferInstanceAs (Decidable (_ ∨ _ ∧ _))

theorem asI32_of_lt {n : ℕ} (h : n % 2 ^ 32 < 2 ^ 31) :
    asI32 n = (n % 2 ^ 32 : ℕ) := by
  unfold asI32
  rw [Int.bmod_def]
  split <;> omega

theorem asI32_neg {n : ℕ} (h : 2 ^ 31 ≤ n % 2 ^ 32) : asI32 n < 0 := by
  unfold asI32
  rw [Int.bmod_def]
  split <;> omega

/-- What the clamp makes of a number after the cast. -/
theorem clamp_asI32_iff (m : ℕ) :
    (min (max (asI32 m) 100) 10000).toNat = max 100 (min 10000 m) ↔
      SurvivesCast m := by
  unfold SurvivesCast
  by_cases hhalf : m % 2 ^ 32 < 2 ^ 31
  · rw [asI32_of_lt hhalf]
    omega
  · have hneg := asI32_neg (Nat.le_of_not_lt hhalf)
    omega

theorem pollTimeout_toNat (hphase : phase.isProbing = false) :
    (pollTimeout cfg phase lastHealth now).toNat =
      (min (max (asI32 (millisUntilHealth cfg lastHealth now)) 100)
        10000).toNat := by
  have hms : pollTimeoutMs cfg phase lastHealth now =
      asI32 (millisUntilHealth cfg lastHealth now) := by
    cases phase with
    | waitingVsock deadline bootStart delayDone => cases hphase
    | waitingCaPort deadline => cases hphase
    | _ => rfl
  unfold pollTimeout
  rw [hms, UInt16.toNat_ofNat']
  apply Nat.mod_eq_of_lt
  omega

/-- The argument of `poll` is the time to the next health check, brought between
100 ms and 10 s, exactly when this time survives the cast to `i32`. -/
theorem pollTimeout_exact_iff (hphase : phase.isProbing = false) :
    (pollTimeout cfg phase lastHealth now).toNat =
        max 100 (min 10000 (millisUntilHealth cfg lastHealth now)) ↔
      SurvivesCast (millisUntilHealth cfg lastHealth now) := by
  rw [pollTimeout_toNat hphase]
  exact clamp_asI32_iff _

/-- Ten seconds under the default configuration, just after a health check. -/
theorem pollTimeout_exact_default :
    (pollTimeout Config.default .complete 0 0).toNat = 10000 :=
  (pollTimeout_exact_iff rfl).mpr (by decide)

/-- A configuration without automatic start, and with 24.86 days between two
health checks. -/
def rareChecks : Config :=
  { Config.default with
    autoStart := false
    healthIntervalSecs := 2147484 }

/-- In its first iteration this daemon sleeps for 100 ms and not for 10 s. -/
theorem pollTimeout_wraps :
    let s := init rareChecks 0
    s.startup.isProbing = false ∧
      (pollTimeout rareChecks s.startup s.lastHealth s.kernel.now).toNat = 100 ∧
      max 100 (min 10000
        (millisUntilHealth rareChecks s.lastHealth s.kernel.now)) = 10000 := by
  decide

/-! ## Which intervals are safe -/

/-- An interval below 24.85 days is never too long for the cast. -/
theorem survivesCast_of_interval (h : cfg.healthIntervalSecs.toNat ≤ 2147483)
    (lastHealth now : Instant) :
    SurvivesCast (millisUntilHealth cfg lastHealth now) := by
  have hbound : millisUntilHealth cfg lastHealth now < 2 ^ 31 := by
    unfold millisUntilHealth fromSecs
    omega
  unfold SurvivesCast
  omega

/-- The timeouts are exact at all times under just these intervals.  A longer
one fails when the next health check is 2 ^ 31 ms away. -/
theorem pollTimeout_always_exact_iff (hphase : phase.isProbing = false) :
    (∀ lastHealth now, (pollTimeout cfg phase lastHealth now).toNat =
        max 100 (min 10000 (millisUntilHealth cfg lastHealth now))) ↔
      cfg.healthIntervalSecs.toNat ≤ 2147483 := by
  constructor
  · intro hexact
    by_contra hlong
    let now : Instant :=
      fromSecs cfg.healthIntervalSecs - fromMillis (2 ^ 31)
    have hmillis : millisUntilHealth cfg 0 now = 2 ^ 31 := by
      unfold millisUntilHealth Instant.elapsed
      simp only [now, fromSecs, fromMillis]
      omega
    have hsurvives := (pollTimeout_exact_iff hphase).mp (hexact 0 now)
    rw [hmillis] at hsurvives
    revert hsurvives
    decide
  · intro hshort lastHealth now
    apply (pollTimeout_exact_iff hphase).mpr
    exact survivesCast_of_interval hshort lastHealth now

end Teeproxyd
