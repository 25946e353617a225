import Teeproxyd.Supervision.HealthRestarts
import Teeproxyd.Supervision.Outages
import Teeproxyd.Supervision.SpawnBudget

/-!
# How often the health check restarts the CA

Health restarts have no budget, but they have a rate.  A restart verdict uses up
the probes that have led to it, and two probes are a health interval apart.  The
bound on the restarts of a run follows from its length, whatever is restarted,
stopped and started in between.  As long as probes fail, on the other hand, the
restarts do not fail to come.
-/

namespace Teeproxyd

open TransitionSystem

variable {cfg : Config} {s t : Daemon} {l : Label} {h : HealthMonitor}

/-! ## What a verdict costs -/

/-- The failed probes that a restart verdict rests on, at least. -/
def HealthMonitor.price (h : HealthMonitor) : ℕ :=
  min (max 1 h.failThreshold.toNat) h.timeoutThreshold.toNat

/-- The failed probes that the monitor holds. -/
def HealthMonitor.held (h : HealthMonitor) : ℕ :=
  h.consecutiveFailures.toNat + h.consecutiveTimeouts.toNat

/-- A probe adds one at most to what the monitor holds, and a restart verdict is
paid for out of it. -/
theorem probe_pays (h : HealthMonitor) (o : Connect) :
    (h.probe o).1.held +
        (if (h.probe o).2 = .restartNeeded then h.price else 0) ≤
      h.held + 1 := by
  have hmore : ∀ n : UInt32, (n + 1).toNat ≤ n.toNat + 1 :=
    fun n => toNat_succ_le (Nat.le_refl _)
  cases o with
  | connected => exact Nat.zero_le _
  | otherError => exact Nat.le_add_right _ 1
  | refused =>
      have hnext := hmore h.consecutiveFailures
      unfold HealthMonitor.probe
      dsimp only
      split
      next hreached =>
        have hreached : h.failThreshold.toNat ≤
          (h.consecutiveFailures + 1).toNat := hreached
        simp only [HealthMonitor.held, HealthMonitor.price, if_pos]
        simp only [UInt32.toNat_zero]
        omega
      next =>
        simp only [HealthMonitor.held, reduceCtorEq, if_false]
        simp only [UInt32.toNat_zero]
        omega
  | timedOut =>
      have hnext := hmore h.consecutiveTimeouts
      unfold HealthMonitor.probe
      dsimp only
      split
      next hreached =>
        have hreached : h.timeoutThreshold.toNat ≤
          (h.consecutiveTimeouts + 1).toNat := hreached
        simp only [HealthMonitor.held, HealthMonitor.price, if_pos]
        simp only [UInt32.toNat_zero]
        omega
      next =>
        simp only [HealthMonitor.held, reduceCtorEq, if_false]
        omega

theorem probe_price (h : HealthMonitor) (o : Connect) :
    (h.probe o).1.price = h.price := by
  obtain ⟨hfail, htimeout, -⟩ := probe_counts_le h o
  rw [HealthMonitor.price, hfail, htimeout]
  rfl

/-! ## Steps -/

/-- The step makes a health probe. -/
def probes (cfg : Config) (s : Daemon) (l : Label) : Bool :=
  match l with
  | .health _ => decide (healthDue cfg s ∧
      (s.ca.state = .ready ∨ s.ca.state = CaState.running))
  | _ => false

/-- What the monitor of a program that is still there holds. -/
def heldProbes (s : Daemon) : ℕ := if s.pc = .panicked then 0 else s.health.held

/-- The time up to which the probes are accounted for. -/
def probeClock (s : Daemon) : Instant :=
  if s.pc = .panicked then s.kernel.now else s.lastHealth

/-- What holds of the monitor in every run. -/
structure ProbesPaced (cfg : Config) (s : Daemon) : Prop where
  price : s.health.price = min (effectiveThreshold cfg.healthFailThreshold) 10
  lastHealth : s.lastHealth ≤ s.kernel.now

theorem ProbesPaced.init (cfg : Config) (now : Instant) :
    ProbesPaced cfg (init cfg now) :=
  ⟨rfl, Nat.le_refl _⟩

theorem ProbesPaced.step (hs : ProbesPaced cfg s)
    (hstep : step cfg s l = some t) : ProbesPaced cfg t := by
  have hnow := (step_continues hstep).now
  by_cases hl : ∃ env, l = .health env
  · obtain ⟨env, rfl⟩ := hl
    rcases step_health hstep with
      ⟨-, ⟨-, rfl⟩ | ⟨-, k, -, rfl⟩ | ⟨-, health, sys, hcheck, rfl⟩⟩
    · exact ⟨hs.price, hs.lastHealth⟩
    · exact ⟨hs.price, Nat.le_trans hs.lastHealth hnow⟩
    · refine ⟨?_, Nat.le_refl _⟩
      cases hcheck with
      | idle => exact hs.price
      | probed => exact (probe_price s.health env.outcome).trans hs.price
      | restarted => exact (probe_price s.health env.outcome).trans hs.price
  · have hsame := (step_phase_monitor hstep).2 fun env h => hl ⟨env, h⟩
    refine ⟨?_, ?_⟩
    · rw [hsame.1]
      exact hs.price
    · rw [hsame.2]
      exact Nat.le_trans hs.lastHealth hnow

theorem not_panicked_before (hstep : step cfg s l = some t)
    (hpc : t.pc ≠ .panicked) : s.pc ≠ .panicked := by
  intro hs
  exact hpc ((step_ended (by rw [hs]; rfl) hstep).1.trans hs)

/-- A restart takes its price out of the probes that the monitor holds. -/
theorem step_heldProbes (hstep : step cfg s l = some t) :
    heldProbes t + s.health.price * (probeRestarts cfg s l .ca).toNat ≤
      heldProbes s + (probes cfg s l).toNat := by
  cases l with
  | health env =>
      obtain ⟨hpc, hresult⟩ := step_health hstep
      have hheld : heldProbes s = s.health.held := by simp [heldProbes, hpc]
      have hpays := probe_pays s.health env.outcome
      rcases hresult with ⟨hnot, rfl⟩ | ⟨hdue, k, hcheck, rfl⟩ |
        ⟨hdue, health, sys, hcheck, rfl⟩
      · have hno : probeRestarts cfg s (.health env) .ca = false :=
          decide_eq_false fun h => hnot h.1
        rw [hno, hheld]
        exact Nat.le_add_right _ _
      · cases hcheck with
        | stopPanics hup hverdict hstop =>
            have hmakes : probes cfg s (.health env) = true :=
              decide_eq_true ⟨hdue, hup⟩
            have hyes : probeRestarts cfg s (.health env) .ca = true :=
              decide_eq_true ⟨hdue, hup, hverdict⟩
            have hzero : heldProbes (s.crash k) = 0 := rfl
            rw [if_pos hverdict] at hpays
            rw [hyes, hmakes, hheld, hzero]
            simp only [Bool.toNat_true, Nat.mul_one]
            omega
      · have hafter : heldProbes { s with
            health := health
            sys := sys
            lastHealth := sys.kernel.now
            pc := .reset } = health.held := rfl
        rw [hafter, hheld]
        cases hcheck with
        | idle hdown =>
            have hno : probeRestarts cfg s (.health env) .ca = false :=
              decide_eq_false fun h => hdown h.2.1
            rw [hno]
            exact Nat.le_add_right _ _
        | probed hup hcalm =>
            have hno : probeRestarts cfg s (.health env) .ca = false :=
              decide_eq_false fun h => hcalm h.2.2
            have hmakes : probes cfg s (.health env) = true :=
              decide_eq_true ⟨hdue, hup⟩
            rw [if_neg hcalm] at hpays
            rw [hno, hmakes]
            exact hpays
        | restarted hup hverdict hstop =>
            have hyes : probeRestarts cfg s (.health env) .ca = true :=
              decide_eq_true ⟨hdue, hup, hverdict⟩
            have hmakes : probes cfg s (.health env) = true :=
              decide_eq_true ⟨hdue, hup⟩
            rw [if_pos hverdict] at hpays
            rw [hyes, hmakes, Bool.toNat_true, Nat.mul_one]
            exact hpays
  | _ =>
      have hsame : t.health = s.health :=
        step_health_eq (fun env h => by cases h) hstep
      have hheld : heldProbes t ≤ heldProbes s := by
        unfold heldProbes
        split
        next => exact Nat.zero_le _
        next hpc => rw [if_neg (not_panicked_before hstep hpc), hsame]
      exact hheld

/-- Between two probes a health interval goes by. -/
theorem step_probeClock (hs : ProbesPaced cfg s)
    (hstep : step cfg s l = some t) :
    probeClock s + fromSecs cfg.healthIntervalSecs * (probes cfg s l).toNat ≤
      probeClock t := by
  have hnow := (step_continues hstep).now
  have hclock : probeClock s ≤ s.kernel.now := by
    unfold probeClock
    split
    next => exact Nat.le_refl _
    next => exact hs.lastHealth
  cases l with
  | health env =>
      obtain ⟨hpc, hresult⟩ := step_health hstep
      have hbefore : probeClock s = s.lastHealth := by simp [probeClock, hpc]
      -- the clock of a health check that is due is set to the current time
      have hset : healthDue cfg s → s.lastHealth +
          fromSecs cfg.healthIntervalSecs *
            (probes cfg s (.health env)).toNat ≤ t.kernel.now := by
        intro hdue
        refine Nat.le_trans ?_ hnow
        have hover : fromSecs cfg.healthIntervalSecs ≤
          s.kernel.now - s.lastHealth := hdue
        have hsince := (Nat.le_sub_iff_add_le' hs.lastHealth).mp hover
        cases probes cfg s (.health env) with
        | false => exact hs.lastHealth
        | true => simpa using hsince
      rw [hbefore]
      rcases hresult with ⟨hnot, rfl⟩ | ⟨hdue, k, -, rfl⟩ |
        ⟨hdue, health, sys, -, rfl⟩
      · have hno : probes cfg s (.health env) = false :=
          decide_eq_false fun h => hnot h.1
        rw [hno]
        exact Nat.le_refl _
      · exact hset hdue
      · exact hset hdue
  | _ =>
      have hsame : t.lastHealth = s.lastHealth :=
        ((step_phase_monitor hstep).2 (fun env h => by cases h)).2
      have hlater : probeClock s ≤ probeClock t := by
        unfold probeClock at hclock ⊢
        split
        next hpc =>
          have hpanics : t.pc = .panicked :=
            (step_ended (by rw [hpc]; rfl) hstep).1.trans hpc
          rw [if_pos hpanics]
          exact hnow
        next =>
          split
          next => exact Nat.le_trans hs.lastHealth hnow
          next => exact Nat.le_of_eq hsame.symm
      exact hlater

theorem probeClock_of_probes (hprobes : probes cfg s l = true)
    (hstep : step cfg s l = some t) : probeClock t = t.kernel.now := by
  cases l with
  | health env =>
      have hdue : healthDue cfg s := (of_decide_eq_true hprobes).1
      rcases step_health hstep with
        ⟨-, ⟨hnot, -⟩ | ⟨-, k, -, rfl⟩ | ⟨-, health, sys, -, rfl⟩⟩
      · exact absurd hdue hnot
      · rfl
      · exact if_neg nofun
  | _ => cases hprobes

theorem probeClock_before (hs : ProbesPaced cfg s)
    (hprobes : probes cfg s l = true) (hstep : step cfg s l = some t) :
    probeClock s + fromSecs cfg.healthIntervalSecs ≤ s.kernel.now := by
  cases l with
  | health env =>
      have hdue : fromSecs cfg.healthIntervalSecs ≤
          s.kernel.now - s.lastHealth := (of_decide_eq_true hprobes).1
      have hpc : s.pc = .health := (step_health hstep).1
      have hclock : probeClock s = s.lastHealth := by simp [probeClock, hpc]
      rw [hclock]
      exact (Nat.le_sub_iff_add_le' hs.lastHealth).mp hdue
  | _ => cases hprobes

/-! ## Runs -/

/-- The health probes of a run. -/
def probesIn (cfg : Config) (s : Daemon) (ls : List Label) : ℕ :=
  totalCost (step cfg) (fun s l => (probes cfg s l).toNat) s ls

theorem probesPaced_of_exec {now : Instant} {ls : List Label}
    (hrun : exec (step cfg) (init cfg now) ls = some t) :
    ProbesPaced cfg t := by
  have hpath := reachable_of_exec hrun
  exact hpath.preserves (fun s l t _ hs hstep => hs.step hstep)
    (ProbesPaced.init cfg now)

theorem probesPaced_along (hs : ProbesPaced cfg s) (ls : List Label) :
    Along (step cfg) (fun s _ => ProbesPaced cfg s) s ls := by
  refine Along.of_invariant (G := fun _ _ => True) ?_ ?_ hs
    (.of_forall (fun _ _ => trivial) _ _)
  · exact fun s l t _ hs hstep => hs.step hstep
  · exact fun s l _ hs => hs

theorem probeClock_le_of_exec (hs : ProbesPaced cfg s) {ls : List Label}
    (hrun : exec (step cfg) s ls = some t) : probeClock s ≤ probeClock t := by
  have hclock := (probesPaced_along hs ls).add_totalCost_le probeClock
    (fun s l t hs hstep => step_probeClock hs hstep) hrun
  exact Nat.le_trans (Nat.le_add_right _ _) hclock

/-- A probe begins a health interval after the end of any earlier one, however
the two are apart. -/
theorem probes_apart (hs : ProbesPaced cfg s) {l' : Label}
    {ms : List Label} {u v : Daemon} (hprobes : probes cfg s l = true)
    (hstep : step cfg s l = some t) (hrun : exec (step cfg) t ms = some u)
    (hprobes' : probes cfg u l' = true) (hstep' : step cfg u l' = some v) :
    t.kernel.now + fromSecs cfg.healthIntervalSecs ≤ u.kernel.now := by
  have ht : ProbesPaced cfg t := hs.step hstep
  have hu : ProbesPaced cfg u :=
    (reachable_of_exec hrun).preserves (fun s l t _ hs hstep => hs.step hstep) ht
  calc
    t.kernel.now + fromSecs cfg.healthIntervalSecs
      = probeClock t + fromSecs cfg.healthIntervalSecs := by
        rw [probeClock_of_probes hprobes hstep]
    _ ≤ probeClock u + fromSecs cfg.healthIntervalSecs :=
        Nat.add_le_add_right (probeClock_le_of_exec ht hrun) _
    _ ≤ u.kernel.now := probeClock_before hu hprobes' hstep'

/-- In every run, a health restart takes as many probes as the lower of the two
thresholds asks for, and any two probes are a health interval apart; so that the
number of health restarts is bounded by the time that the run takes, whatever is
restarted, stopped and started in between. -/
theorem health_restarts_rate {now : Instant} {ls : List Label}
    (hrun : exec (step cfg) (init cfg now) ls = some t) :
    min (effectiveThreshold cfg.healthFailThreshold) 10 *
        probeRestartsIn cfg (init cfg now) ls ≤
      probesIn cfg (init cfg now) ls ∧
    fromSecs cfg.healthIntervalSecs * probesIn cfg (init cfg now) ls ≤
      t.kernel.now - now ∧
    ∀ l ms l' u v w, probes cfg t l = true → step cfg t l = some u →
      exec (step cfg) u ms = some v →
      probes cfg v l' = true → step cfg v l' = some w →
        u.kernel.now + fromSecs cfg.healthIntervalSecs ≤ v.kernel.now := by
  have hpaced := probesPaced_along (ProbesPaced.init cfg now) ls
  refine ⟨?_, ?_, fun l ms l' u v w hprobes hstep hlater hprobes' hstep' =>
    probes_apart (probesPaced_of_exec hrun) hprobes hstep hlater hprobes' hstep'⟩
  · have hpaid : (heldProbes t : ℤ) + totalCost (step cfg)
        (fun s l => min (effectiveThreshold cfg.healthFailThreshold) 10 *
          (probeRestarts cfg s l .ca).toNat) (init cfg now) ls ≤
        heldProbes (init cfg now) + probesIn cfg (init cfg now) ls := by
      unfold probesIn
      refine hpaced.balance (fun s => (heldProbes s : ℤ)) ?_ hrun
      intro s l t hs hstep
      have hheld := step_heldProbes hstep
      rw [hs.price] at hheld
      omega
    rw [totalCost_mul] at hpaid
    have hnone : heldProbes (init cfg now) = 0 := rfl
    rw [hnone] at hpaid
    unfold probeRestartsIn
    omega
  · have hclock := hpaced.add_totalCost_le probeClock
      (fun s l t hs hstep => step_probeClock hs hstep) hrun
    have hstart : probeClock (init cfg now) = now := rfl
    have hend : probeClock t ≤ t.kernel.now := by
      unfold probeClock
      split
      next => exact Nat.le_refl _
      next => exact (probesPaced_of_exec hrun).lastHealth
    rw [totalCost_mul, hstart] at hclock
    exact Nat.le_sub_of_add_le' (Nat.le_trans hclock hend)

/-- The third refusal in a row: one restart, for three probes at least, made in
half a minute at least. -/
theorem health_restarts_rate_bootUp :
    ∃ t, after (bootUp ++ refusedRound ++ refusedRound ++ refusedRound) =
        some t ∧
      probeRestartsIn Config.default (init Config.default 0)
        (bootUp ++ refusedRound ++ refusedRound ++ refusedRound) = 1 ∧
      3 ≤ probesIn Config.default (init Config.default 0)
        (bootUp ++ refusedRound ++ refusedRound ++ refusedRound) ∧
      fromSecs 30 ≤ t.kernel.now := by
  obtain ⟨t, hafter, -⟩ := exists_after
    (bootUp ++ refusedRound ++ refusedRound ++ refusedRound)
    (P := fun t => t.ca.childPid = some 300) (by decide)
  have hone : probeRestartsIn Config.default (init Config.default 0)
      (bootUp ++ refusedRound ++ refusedRound ++ refusedRound) = 1 := by decide
  obtain ⟨hprice, hclock, -⟩ := health_restarts_rate hafter
  rw [hone] at hprice
  refine ⟨t, hafter, hone, hprice, ?_⟩
  exact Nat.le_trans (Nat.mul_le_mul_left (fromSecs 10) hprice) hclock

/-! ## Outages -/

namespace HealthMonitor

variable {n : UInt32} {outcomes : List Connect}

/-- How many failed probes more the monitor can take without a restart. -/
def failsLeft (n : UInt32) (h : HealthMonitor) : ℕ :=
  10 * (effectiveThreshold n - h.consecutiveFailures.toNat) -
    h.consecutiveTimeouts.toNat

theorem Counting.lt_thresholds (hh : Counting n outcomes h) :
    h.consecutiveFailures.toNat < effectiveThreshold n ∧
      h.consecutiveTimeouts.toNat < 10 := by
  rw [hh.failures, hh.timeouts]
  exact ⟨Nat.mod_lt _ (effectiveThreshold_pos n), Nat.mod_lt _ (by decide)⟩

theorem Counting.failsLeft_pos (hh : Counting n outcomes h) :
    0 < h.failsLeft n := by
  obtain ⟨hfailures, htimeouts⟩ := hh.lt_thresholds
  unfold failsLeft
  omega

/-- A probe that fails takes one of those that are left, and a restart restores
them. -/
theorem Counting.failsLeft_probe (hh : Counting n outcomes h) {o : Connect}
    (ho : o = .refused ∨ o = .timedOut) :
    (h.probe o).1.failsLeft n + 1 ≤ h.failsLeft n +
      10 * effectiveThreshold n *
        (decide ((h.probe o).2 = .restartNeeded)).toNat := by
  obtain ⟨hfailures, htimeouts⟩ := hh.lt_thresholds
  rcases ho with rfl | rfl
  · have hnext := hh.failures_succ.2
    rw [← hh.failures] at hnext
    unfold HealthMonitor.probe
    dsimp only
    split
    next =>
      simp only [failsLeft, decide_true, Bool.toNat_true, UInt32.toNat_zero]
      omega
    next hfull =>
      have hless : (h.consecutiveFailures + 1).toNat < effectiveThreshold n := by
        have hbelow : (h.consecutiveFailures + 1).toNat < n.toNat := by
          rw [← hh.failThreshold]
          exact Nat.lt_of_not_le hfull
        exact lt_max_iff.mpr (Or.inr hbelow)
      simp only [failsLeft, reduceCtorEq, decide_false, Bool.toNat_false,
        UInt32.toNat_zero]
      omega
  · have hnext := hh.timeouts_succ.2
    rw [← hh.timeouts] at hnext
    unfold HealthMonitor.probe
    dsimp only
    split
    next =>
      simp only [failsLeft, decide_true, Bool.toNat_true, UInt32.toNat_zero]
      omega
    next hfull =>
      have hless : (h.consecutiveTimeouts + 1).toNat < 10 := by
        have hten : h.timeoutThreshold.toNat = 10 := by
          rw [hh.timeoutThreshold]
          rfl
        rw [← hten]
        exact Nat.lt_of_not_le hfull
      simp only [failsLeft, reduceCtorEq, decide_false, Bool.toNat_false]
      omega

end HealthMonitor

/-- The monitor has counted some history of outcomes. -/
def Calibrated (cfg : Config) (s : Daemon) : Prop :=
  ∃ outcomes, s.health.Counting cfg.healthFailThreshold outcomes

theorem Calibrated.init (cfg : Config) (now : Instant) :
    Calibrated cfg (init cfg now) :=
  ⟨[], rfl, rfl, (Nat.zero_mod _).symm, rfl⟩

theorem Calibrated.step (hs : Calibrated cfg s)
    (hstep : step cfg s l = some t) : Calibrated cfg t := by
  obtain ⟨outcomes, hcounting⟩ := hs
  by_cases hl : ∃ env, l = .health env
  · obtain ⟨env, rfl⟩ := hl
    rcases step_health hstep with
      ⟨-, ⟨-, rfl⟩ | ⟨-, k, -, rfl⟩ | ⟨-, health, sys, hcheck, rfl⟩⟩
    · exact ⟨outcomes, hcounting⟩
    · exact ⟨outcomes, hcounting⟩
    · cases hcheck with
      | idle => exact ⟨outcomes, hcounting⟩
      | probed => exact ⟨_, hcounting.probe env.outcome⟩
      | restarted => exact ⟨_, hcounting.probe env.outcome⟩
  · have hsame := (step_phase_monitor hstep).2 fun env h => hl ⟨env, h⟩
    exact ⟨outcomes, by rwa [hsame.1]⟩

/-- If the step makes a probe, the probe is refused or times out. -/
def ProbeFails (cfg : Config) (s : Daemon) (l : Label) : Prop :=
  match l with
  | .health env => probes cfg s l = true →
      env.outcome = .refused ∨ env.outcome = .timedOut
  | _ => True

instance : Decidable (ProbeFails cfg s l) := by
  unfold ProbeFails
  split <;> infer_instance

/-- What the monitor of a program that is still there can take. -/
def failuresLeft (cfg : Config) (s : Daemon) : ℕ :=
  if s.pc = .panicked then 1 else s.health.failsLeft cfg.healthFailThreshold

theorem step_failuresLeft (hs : Calibrated cfg s) (hfails : ProbeFails cfg s l)
    (hstep : step cfg s l = some t) :
    failuresLeft cfg t + (probes cfg s l).toNat ≤
      failuresLeft cfg s + 10 * effectiveThreshold cfg.healthFailThreshold *
        (probeRestarts cfg s l .ca).toNat := by
  obtain ⟨outcomes, hcounting⟩ := hs
  cases l with
  | health env =>
      obtain ⟨hpc, hresult⟩ := step_health hstep
      have hleft : failuresLeft cfg s =
          s.health.failsLeft cfg.healthFailThreshold := by
        simp [failuresLeft, hpc]
      -- a probe is made, and it fails
      have hpays : probes cfg s (.health env) = true → healthDue cfg s →
          (s.ca.state = .ready ∨ s.ca.state = CaState.running) →
          (s.health.probe env.outcome).1.failsLeft cfg.healthFailThreshold + 1 ≤
            s.health.failsLeft cfg.healthFailThreshold +
              10 * effectiveThreshold cfg.healthFailThreshold *
                (probeRestarts cfg s (.health env) .ca).toNat := by
        intro hmakes hdue hup
        have hverdict : probeRestarts cfg s (.health env) .ca =
            decide ((s.health.probe env.outcome).2 = .restartNeeded) :=
          decide_eq_decide.mpr ⟨fun h => h.2.2, fun h => ⟨hdue, hup, h⟩⟩
        rw [hverdict]
        exact hcounting.failsLeft_probe (hfails hmakes)
      rw [hleft]
      rcases hresult with ⟨hnot, rfl⟩ | ⟨hdue, k, hcheck, rfl⟩ |
        ⟨hdue, health, sys, hcheck, rfl⟩
      · have hno : probes cfg s (.health env) = false :=
          decide_eq_false fun h => hnot h.1
        have hsame : failuresLeft cfg { s with pc := .reset } =
            s.health.failsLeft cfg.healthFailThreshold := rfl
        rw [hno, hsame]
        exact Nat.le_add_right _ _
      · cases hcheck with
        | stopPanics hup hverdict hstop =>
            have hmakes : probes cfg s (.health env) = true :=
              decide_eq_true ⟨hdue, hup⟩
            have hyes : probeRestarts cfg s (.health env) .ca = true :=
              decide_eq_true ⟨hdue, hup, hverdict⟩
            have hone : failuresLeft cfg (s.crash k) = 1 := rfl
            have hpos := hcounting.failsLeft_pos
            have hthreshold := effectiveThreshold_pos cfg.healthFailThreshold
            rw [hmakes, hyes, hone, Bool.toNat_true]
            omega
      · have hafter : failuresLeft cfg { s with
            health := health
            sys := sys
            lastHealth := sys.kernel.now
            pc := .reset } = health.failsLeft cfg.healthFailThreshold := rfl
        rw [hafter]
        cases hcheck with
        | idle hdown =>
            have hno : probes cfg s (.health env) = false :=
              decide_eq_false fun h => hdown h.2
            rw [hno]
            exact Nat.le_add_right _ _
        | probed hup | restarted hup =>
            have hmakes : probes cfg s (.health env) = true :=
              decide_eq_true ⟨hdue, hup⟩
            rw [hmakes]
            exact hpays hmakes hdue hup
  | _ =>
      have hsame : t.health = s.health :=
        step_health_eq (fun env h => by cases h) hstep
      have hleft : failuresLeft cfg t ≤ failuresLeft cfg s := by
        unfold failuresLeft
        split
        next =>
          split
          next => exact Nat.le_refl _
          next => exact hcounting.failsLeft_pos
        next hpc => rw [if_neg (not_panicked_before hstep hpc), hsame]
      exact hleft

theorem failuresLeft_le (cfg : Config) (s : Daemon) :
    failuresLeft cfg s ≤ 10 * effectiveThreshold cfg.healthFailThreshold := by
  have hthreshold := effectiveThreshold_pos cfg.healthFailThreshold
  unfold failuresLeft HealthMonitor.failsLeft
  split <;> omega

theorem Calibrated.failuresLeft_pos (hs : Calibrated cfg s) :
    0 < failuresLeft cfg s := by
  obtain ⟨outcomes, hcounting⟩ := hs
  unfold failuresLeft
  split
  · exact Nat.one_pos
  · exact hcounting.failsLeft_pos

/-- In every run in which each health probe is refused or times out, fewer than
ten times the failure threshold of probes go by before the next restart of the
CA, whatever else is started, stopped and restarted meanwhile. -/
theorem outages_answered {ls : List Label} (hreach : Reachable cfg s)
    (hfails : Along (step cfg) (ProbeFails cfg) s ls)
    (hrun : exec (step cfg) s ls = some t) :
    probesIn cfg s ls < 10 * effectiveThreshold cfg.healthFailThreshold *
      (probeRestartsIn cfg s ls + 1) := by
  obtain ⟨now, hpath⟩ := hreach
  have hs : Calibrated cfg s := hpath.preserves
    (fun s l t _ hs hstep => hs.step hstep) (Calibrated.init cfg now)
  have ht : Calibrated cfg t := (reachable_of_exec hrun).preserves
    (fun s l t _ hs hstep => hs.step hstep) hs
  have hcalibrated : Along (step cfg)
      (fun s l => Calibrated cfg s ∧ ProbeFails cfg s l) s ls :=
    hfails.of_invariant (I := Calibrated cfg)
      (fun s l t _ hs hstep => hs.step hstep) (fun s l hl hs => ⟨hs, hl⟩) hs
  have hpaid : (failuresLeft cfg t : ℤ) + probesIn cfg s ls ≤
      failuresLeft cfg s + totalCost (step cfg)
        (fun s l => 10 * effectiveThreshold cfg.healthFailThreshold *
          (probeRestarts cfg s l .ca).toNat) s ls := by
    unfold probesIn
    refine hcalibrated.balance (fun s => (failuresLeft cfg s : ℤ)) ?_ hrun
    rintro s l t ⟨hs, hl⟩ hstep
    have hleft := step_failuresLeft hs hl hstep
    omega
  rw [totalCost_mul] at hpaid
  have hfull := failuresLeft_le cfg s
  have hpos := ht.failuresLeft_pos
  unfold probeRestartsIn
  rw [Nat.mul_add_one]
  omega

/-- Nine timeouts in a row, ten seconds apart. -/
def nineTimeouts : List Label :=
  (List.replicate 9 (.tick (fromSecs 10) ::
    round (.works 100 200) (.answers .timedOut 300))).flatten

/-- Every tenth probe is refused, and the others time out. -/
def longOutage : List Label :=
  nineTimeouts ++ refusedRound ++ nineTimeouts ++ refusedRound ++ nineTimeouts

set_option maxRecDepth 4000 in
/-- The default daemon lets 29 probes fail so before it restarts the CA. -/
theorem outages_answered_bootUp :
    ∃ s t, after bootUp = some s ∧
      exec (step Config.default) s longOutage = some t ∧
      probesIn Config.default s longOutage = 29 := by
  obtain ⟨s, hafter, hsome, hfails, hmakes, hnone⟩ := exists_after bootUp
    (P := fun s => (exec (step Config.default) s longOutage).isSome ∧
      Along (step Config.default) (ProbeFails Config.default) s longOutage ∧
      29 ≤ probesIn Config.default s longOutage ∧
      probeRestartsIn Config.default s longOutage = 0) (by decide)
  obtain ⟨t, hrun⟩ := Option.isSome_iff_exists.mp hsome
  have hreach : Reachable Config.default s :=
    reach_of_after hafter (.of_forall (fun _ _ => trivial) _ _)
  have hbound := outages_answered hreach hfails hrun
  rw [hnone] at hbound
  exact ⟨s, t, hafter, hrun, Nat.le_antisymm (Nat.le_of_lt_succ hbound) hmakes⟩

end Teeproxyd
