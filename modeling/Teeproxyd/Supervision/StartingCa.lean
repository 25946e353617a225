import Teeproxyd.Supervision.HealthRestarts
import Teeproxyd.Supervision.StartupOrder

/-!
# Health checks of a CA that is starting

In `WaitingCaPort` the startup machine gives the CA a time to open its port.  The
health check watches the same CA from the moment it is spawned, and a port that
is not open yet refuses its probes.  So the check may restart the CA before this
time is over.  It cannot if the time is shorter than the checks that a restart
takes, and the monitor holds no counts when the machine starts the CA.
-/

namespace Teeproxyd

open ProcessTable TransitionSystem Supervision EventLog

variable {cfg : Config} {s t : Daemon} {l : Label}

/-- The startup machine waits for the CA, and the deadline has not passed. -/
def AwaitsCa (s : Daemon) : Prop :=
  match s.startup with
  | .waitingCaPort deadline => s.kernel.now ≤ deadline
  | _ => False

instance : Decidable (AwaitsCa s) := by
  unfold AwaitsCa
  split <;> infer_instance

theorem awaitsCa_iff : AwaitsCa s ↔
    ∃ deadline, s.startup = .waitingCaPort deadline ∧
      s.kernel.now ≤ deadline := by
  unfold AwaitsCa
  generalize s.startup = phase
  cases phase with
  | waitingCaPort deadline => simp
  | _ => simp

/-- Nothing happens from `s` to `t` but health probes, and the CA's manager is as
before. -/
def LeavesCa (s t : Daemon) : Prop :=
  t.ca = s.ca ∧ ∃ log, t.kernel.log = log ++ s.kernel.log ∧
    ∀ te ∈ log, ∃ o, te.2 = .healthProbe o

/-- The health check, if the step is one, leaves a CA alone that the startup
machine waits for. -/
def SparesCa (cfg : Config) (s : Daemon) (l : Label) : Prop :=
  ∀ env t, l = .health env → AwaitsCa s → step cfg s l = some t → LeavesCa s t

/-- The step is a health check that falls due while the startup machine waits for
the CA, and whose probe completes a count. -/
def StrikesEarly (cfg : Config) (s : Daemon) : Label → Prop
  | .health env => s.pc = .health ∧ AwaitsCa s ∧ healthDue cfg s ∧
      (s.ca.state = .ready ∨ s.ca.state = CaState.running) ∧
      s.health.Completes env.outcome
  | _ => False

instance decidableStrikesEarly :
    (l : Label) → Decidable (StrikesEarly cfg s l)
  | .health _ => inferInstanceAs (Decidable (_ ∧ _ ∧ _ ∧ (_ ∨ _) ∧ _))
  | .tick _ | .exit _ | .crosvmStart _ | .crosvmExit _ | .others _
  | .terminate | .sigchld | .deliverChld | .deliverTerm | .poll _ | .wake _
  | .drain | .waitpid _ _ | .accept _ | .request _ _ _ | .hangup | .startup _
  | .resetCounts | .shutdown _ _ => inferInstanceAs (Decidable False)

/-! ## One health check -/

theorem healthRestarts_iff {env : HealthEnv} : healthRestarts cfg s env ↔
    healthDue cfg s ∧
      (s.ca.state = .ready ∨ s.ca.state = CaState.running) ∧
      s.health.Completes env.outcome := by
  unfold healthRestarts
  rw [probe_restartNeeded_iff]

theorem step_health_leavesCa {env : HealthEnv}
    (hcalm : ¬ healthRestarts cfg s env)
    (hstep : step cfg s (.health env) = some t) : LeavesCa s t := by
  rcases step_health hstep with
    ⟨-, ⟨-, rfl⟩ | ⟨hdue, k, hcheck, -⟩ | ⟨hdue, health, sys, hcheck, rfl⟩⟩
  · exact ⟨rfl, [], rfl, by simp⟩
  · cases hcheck with
    | stopPanics hup hverdict hstop =>
        exact absurd ⟨hdue, hup, hverdict⟩ hcalm
  · cases hcheck with
    | idle => exact ⟨rfl, [], rfl, by simp⟩
    | probed =>
        refine ⟨rfl, [(_, .healthProbe env.outcome)], rfl, ?_⟩
        intro te hte
        rw [List.mem_singleton.mp hte]
        exact ⟨_, rfl⟩
    | restarted hup hverdict hstop =>
        exact absurd ⟨hdue, hup, hverdict⟩ hcalm

theorem story_of_probes {cause : Fleet → Instant × Event → Prop}
    {f g : Fleet} {log : List (Instant × Event)}
    (h : Story Happens cause f log g)
    (hlog : ∀ te ∈ log, ∃ o, te.2 = .healthProbe o) : g = f := by
  induction h with
  | nil => rfl
  | @cons f₁ f₂ te log before why now ih =>
      obtain ⟨o, ho⟩ := hlog te List.mem_cons_self
      have hsame := ih fun te hte => hlog te (List.mem_cons_of_mem _ hte)
      obtain ⟨time, e⟩ := te
      cases ho
      cases now
      exact hsame

theorem start_log (cfg : Config) (r : Role) (m : Manager) (k : Kernel)
    (env : StartEnv) :
    ∃ log, (r.start cfg m k env).2.1.log = log ++ k.log := by
  rcases start_cases cfg r m k env with
    ⟨-, e, hstart⟩ | ⟨-, e, hstart⟩ | ⟨-, hint, command, hstart⟩
  · rw [hstart]
    exact ⟨[], rfl⟩
  · rw [hstart]
    exact ⟨[_], rfl⟩
  · rw [hstart]
    exact ⟨[_], rfl⟩

/-- A check that comes to a restart does more than probe. -/
theorem not_leavesCa_of_restart {env : HealthEnv}
    (hrestarts : healthRestarts cfg s env)
    (hstep : step cfg s (.health env) = some t) : ¬ LeavesCa s t := by
  have hidle : s.ca.state ≠ .idle := by
    rcases hrestarts.2.1 with hstate | hstate
    · rw [hstate]
      exact nofun
    · rw [hstate]
      exact nofun
  rintro ⟨hca, log, hlog, hprobes⟩
  by_cases hpc : t.pc = .panicked
  · rcases step_health hstep with
      ⟨-, ⟨-, rfl⟩ | ⟨-, k, -, rfl⟩ | ⟨-, health, sys, -, rfl⟩⟩
    · cases hpc
    · exact hidle (congrArg Manager.state hca).symm
    · cases hpc
  · obtain ⟨k, -, hkernel, -, before, hbefore, hstory⟩ :=
      health_ca hrestarts hstep hpc
    obtain ⟨after, hafter⟩ := start_log cfg .ca s.ca.halted k env.start
    have hstart : t.kernel.log = after ++ k.log := by
      rw [hkernel]
      exact hafter
    rw [hstart, hbefore, ← List.append_assoc] at hlog
    have hwhole : after ++ before = log := List.append_cancel_right hlog
    have hsame := story_of_probes hstory fun te hte =>
      hprobes te (hwhole ▸ List.mem_append_right _ hte)
    have hhalted : Function.update s.sys.mgr .ca s.ca.halted .ca = s.ca :=
      congrFun (congrArg Fleet.mgr hsame) .ca
    rw [Function.update_self] at hhalted
    exact hidle (congrArg Manager.state hhalted).symm

theorem exists_step_health {env : HealthEnv} (hpc : s.pc = .health) :
    ∃ t, step cfg s (.health env) = some t := by
  apply Option.isSome_iff_exists.mp
  by_cases hdue : s.lastHealth.elapsed s.kernel.now ≥
      fromSecs cfg.healthIntervalSecs
  · cases hcheck : healthCheck cfg s.health s.sys env with
    | error k => simp [step, hpc, hdue, hcheck]
    | ok result => simp [step, hpc, hdue, hcheck]
  · simp [step, hpc, hdue]

theorem sparesCa_iff : SparesCa cfg s l ↔ ¬ StrikesEarly cfg s l := by
  cases l with
  | health env =>
      constructor
      · rintro hspares ⟨hpc, hawaits, hrestarts⟩
        obtain ⟨t, hstep⟩ := exists_step_health hpc
        exact not_leavesCa_of_restart (healthRestarts_iff.mpr hrestarts) hstep
          (hspares env t rfl hawaits hstep)
      · intro hcalm env' t heq hawaits hstep
        cases heq
        apply step_health_leavesCa ?_ hstep
        intro hrestarts
        apply hcalm
        exact ⟨(step_health hstep).1, hawaits, healthRestarts_iff.mp hrestarts⟩
  | _ => exact iff_of_true (fun _ _ heq => by cases heq) id

/-! ## Two clocks -/

/-- The machine waits for less time than passes between the first and the last
of the probes that a restart takes. -/
structure Patient (cfg : Config) : Prop where
  refused : cfg.caReadyTimeoutSecs.toNat <
    (cfg.healthFailThreshold.toNat - 1) * cfg.healthIntervalSecs.toNat
  timedOut : cfg.caReadyTimeoutSecs.toNat < 9 * cfg.healthIntervalSecs.toNat

/-- The startup machine starts the CA while the monitor holds counts. -/
def StartsCounted (s : Daemon) (l : Label) : Prop :=
  l.isStartup = true ∧ s.startup = .caStarting ∧ s.health.Counts

instance : Decidable (StartsCounted s l) :=
  inferInstanceAs (Decidable (_ ∧ _ ∧ _))

/-- The last of `n` health checks since the machine began to wait was not before
this many intervals, less one. -/
def PacedAfter (cfg : Config) (s : Daemon) (deadline : Instant) (n : ℕ) : Prop :=
  n ≠ 0 → deadline + n * fromSecs cfg.healthIntervalSecs ≤
    s.lastHealth + fromSecs cfg.healthIntervalSecs +
      fromSecs cfg.caReadyTimeoutSecs

/-- The health checks are an interval apart, and each adds one to a count at
most. -/
structure Paced (cfg : Config) (s : Daemon) : Prop where
  failThreshold : s.health.failThreshold = cfg.healthFailThreshold
  timeoutThreshold : s.health.timeoutThreshold = 10
  lastHealth : s.lastHealth ≤ s.kernel.now
  deadline : ∀ deadline, s.startup = .waitingCaPort deadline →
    deadline ≤ s.kernel.now + fromSecs cfg.caReadyTimeoutSecs
  failures : ∀ deadline, s.startup = .waitingCaPort deadline →
    PacedAfter cfg s deadline s.health.consecutiveFailures.toNat
  timeouts : ∀ deadline, s.startup = .waitingCaPort deadline →
    PacedAfter cfg s deadline s.health.consecutiveTimeouts.toNat

theorem Paced.init (cfg : Config) (now : Instant) :
    Paced cfg (init cfg now) := by
  have hphase : ∀ deadline,
      (Teeproxyd.init cfg now).startup ≠ .waitingCaPort deadline := by
    intro deadline h
    rcases init_startup cfg now with hinit | hinit
    · cases hinit.symm.trans h
    · cases hinit.symm.trans h
  constructor
  · rfl
  · rfl
  · exact Nat.le_refl _
  · exact fun d h => absurd h (hphase d)
  · exact fun d h => absurd h (hphase d)
  · exact fun d h => absurd h (hphase d)

/-- What changes neither the monitor nor its clock, and lets the machine wait as
before, keeps the pace. -/
theorem Paced.of_same (hs : Paced cfg s) (hhealth : t.health = s.health)
    (hlast : t.lastHealth = s.lastHealth) (hnow : s.kernel.now ≤ t.kernel.now)
    (hphase : ∀ deadline, t.startup = .waitingCaPort deadline →
      s.startup = .waitingCaPort deadline) : Paced cfg t := by
  have hpaced : ∀ {deadline n}, PacedAfter cfg s deadline n →
      PacedAfter cfg t deadline n := by
    intro deadline n h
    unfold PacedAfter
    rw [hlast]
    exact h
  constructor
  · rw [hhealth]
    exact hs.failThreshold
  · rw [hhealth]
    exact hs.timeoutThreshold
  · rw [hlast]
    exact Nat.le_trans hs.lastHealth hnow
  · intro deadline h
    exact Nat.le_trans (hs.deadline deadline (hphase deadline h))
      (Nat.add_le_add_right hnow _)
  · intro deadline h
    rw [hhealth]
    exact hpaced (hs.failures deadline (hphase deadline h))
  · intro deadline h
    rw [hhealth]
    exact hpaced (hs.timeouts deadline (hphase deadline h))

/-- A health check leaves the thresholds as they are and adds one at most to each
count. -/
theorem checks_counts_le {h h' : HealthMonitor} {sys sys' : Sys}
    {env : HealthEnv} (hcheck : Checks cfg h sys env (.ok (h', sys'))) :
    h'.failThreshold = h.failThreshold ∧
    h'.timeoutThreshold = h.timeoutThreshold ∧
    h'.consecutiveFailures.toNat ≤ h.consecutiveFailures.toNat + 1 ∧
    h'.consecutiveTimeouts.toNat ≤ h.consecutiveTimeouts.toNat + 1 := by
  have hprobed : h' = h ∨ h' = (h.probe env.outcome).1 := by
    cases hcheck with
    | idle => exact Or.inl rfl
    | probed => exact Or.inr rfl
    | restarted => exact Or.inr rfl
  rcases hprobed with rfl | rfl
  · exact ⟨rfl, rfl, Nat.le_succ _, Nat.le_succ _⟩
  · have hone : ∀ (p : Prop) [Decidable p], (if p then 1 else 0) ≤ 1 := by
      intro p _
      split <;> omega
    obtain ⟨hfail, htimeout, hfailures, htimeouts⟩ :=
      probe_counts_le h env.outcome
    exact ⟨hfail, htimeout,
      Nat.le_trans hfailures (Nat.add_le_add_left (hone _) _),
      Nat.le_trans htimeouts (Nat.add_le_add_left (hone _) _)⟩

theorem pace_arith {d i w last now last' n m : ℕ}
    (h : n ≠ 0 → d + n * i ≤ last + i + w) (hm : m ≤ n + 1)
    (hwaits : d ≤ now + w) (hdue : last + i ≤ now) (hlast : now ≤ last') :
    d + m * i ≤ last' + i + w := by
  have hmul : m * i ≤ n * i + i := by
    rw [← Nat.succ_mul]
    exact Nat.mul_le_mul_right i hm
  by_cases hn : n = 0
  · rw [hn, Nat.zero_mul] at hmul
    omega
  · have hbefore := h hn
    omega

theorem PacedAfter.succ {deadline : Instant} {n m : ℕ}
    (h : PacedAfter cfg s deadline n) (hm : m ≤ n + 1)
    (hwaits : deadline ≤ s.kernel.now + fromSecs cfg.caReadyTimeoutSecs)
    (hdue : s.lastHealth + fromSecs cfg.healthIntervalSecs ≤ s.kernel.now)
    (hlast : s.kernel.now ≤ t.lastHealth) : PacedAfter cfg t deadline m :=
  fun _ => pace_arith h hm hwaits hdue hlast

theorem due_le (hs : Paced cfg s) (hdue : healthDue cfg s) :
    s.lastHealth + fromSecs cfg.healthIntervalSecs ≤ s.kernel.now := by
  have hdue : fromSecs cfg.healthIntervalSecs ≤
      s.kernel.now - s.lastHealth := hdue
  exact (Nat.le_sub_iff_add_le' hs.lastHealth).mp hdue

theorem Paced.step_health {env : HealthEnv} (hs : Paced cfg s)
    (hstep : step cfg s (.health env) = some t) : Paced cfg t := by
  have hnow : s.kernel.now ≤ t.kernel.now := (step_continues hstep).now
  rcases Teeproxyd.step_health hstep with
    ⟨-, ⟨-, rfl⟩ | ⟨-, k, -, rfl⟩ | ⟨hdue, health, sys, hcheck, rfl⟩⟩
  · exact hs.of_same rfl rfl hnow fun _ h => h
  · exact hs.of_same rfl rfl hnow fun _ h => h
  obtain ⟨hfail, htimeout, hfailures, htimeouts⟩ := checks_counts_le hcheck
  have hdue := due_le hs hdue
  constructor
  · exact hfail.trans hs.failThreshold
  · exact htimeout.trans hs.timeoutThreshold
  · exact Nat.le_refl _
  · intro deadline h
    exact Nat.le_trans (hs.deadline deadline h) (Nat.add_le_add_right hnow _)
  · intro deadline h
    exact (hs.failures deadline h).succ hfailures (hs.deadline deadline h)
      hdue hnow
  · intro deadline h
    exact (hs.timeouts deadline h).succ htimeouts (hs.deadline deadline h)
      hdue hnow

theorem Paced.of_caStarted {deadline : Instant} (hs : Paced cfg s)
    (hhealth : t.health = s.health) (hlast : t.lastHealth = s.lastHealth)
    (hnow : s.kernel.now ≤ t.kernel.now)
    (hphase : t.startup = .waitingCaPort deadline)
    (hdeadline : deadline =
      t.kernel.now + fromSecs cfg.caReadyTimeoutSecs)
    (hnone : ¬ s.health.Counts) : Paced cfg t := by
  have hzero : s.health.consecutiveFailures = 0 ∧
      s.health.consecutiveTimeouts = 0 := by
    simpa [HealthMonitor.Counts] using hnone
  constructor
  · rw [hhealth]
    exact hs.failThreshold
  · rw [hhealth]
    exact hs.timeoutThreshold
  · rw [hlast]
    exact Nat.le_trans hs.lastHealth hnow
  · intro deadline' h
    cases hphase.symm.trans h
    exact Nat.le_of_eq hdeadline
  · intro deadline' h hpos
    rw [hhealth, hzero.1] at hpos
    exact absurd rfl hpos
  · intro deadline' h hpos
    rw [hhealth, hzero.2] at hpos
    exact absurd rfl hpos

theorem Paced.step_startup {env : StartupEnv} (hs : Paced cfg s)
    (hkept : ¬ StartsCounted s (.startup env))
    (hstep : step cfg s (.startup env) = some t) : Paced cfg t := by
  have hnow : s.kernel.now ≤ t.kernel.now := (step_continues hstep).now
  rcases Teeproxyd.step_startup hstep with
    ⟨-, ⟨k, r, m, env', -, -, -, rfl⟩ | ⟨phase, sys, hadv, rfl⟩⟩
  · exact hs.of_same rfl rfl hnow fun _ h => h
  generalize hbefore : s.startup = before at hadv
  have hsame : (∀ deadline, phase = .waitingCaPort deadline →
      before = .waitingCaPort deadline) → Paced cfg
        { s with startup := phase, sys := sys, pc := .health } := by
    intro h
    refine hs.of_same rfl rfl hnow fun deadline hphase => ?_
    exact hbefore.trans (h deadline hphase)
  cases hadv with
  | final hfinal => exact hsame fun _ h => h
  | portDown => exact hsame fun _ h => h
  | @caStarted m k deadline hstart hdeadline =>
      refine hs.of_caStarted rfl rfl hnow rfl ?_ ?_
      · rw [plus_eq_some hdeadline]
        rfl
      · exact fun hcounts => hkept ⟨rfl, hbefore, hcounts⟩
  | vmRestart =>
      apply hsame
      intro deadline h
      split at h <;> cases h
  | caRestart =>
      apply hsame
      intro deadline h
      split at h <;> cases h
  | _ =>
      apply hsame
      intro deadline h
      cases h

theorem Paced.step (hs : Paced cfg s) (hkept : ¬ StartsCounted s l)
    (hstep : step cfg s l = some t) : Paced cfg t := by
  by_cases hhealth : ∃ env, l = .health env
  · obtain ⟨env, rfl⟩ := hhealth
    exact hs.step_health hstep
  by_cases hstartup : ∃ env, l = .startup env
  · obtain ⟨env, rfl⟩ := hstartup
    exact hs.step_startup hkept hstep
  have hnow : s.kernel.now ≤ t.kernel.now := (step_continues hstep).now
  have hl : l.isStartup = false := by
    cases l with
    | startup env => exact absurd ⟨env, rfl⟩ hstartup
    | _ => rfl
  have hsame := step_phase_monitor hstep
  obtain ⟨hmonitor, hlast⟩ := hsame.2 fun env h => hhealth ⟨env, h⟩
  refine hs.of_same hmonitor hlast hnow fun deadline h => ?_
  exact (hsame.1 hl).symm.trans h

/-- A count that is complete before the deadline would be older than the CA. -/
theorem not_complete_of_paced {deadline : Instant} {n threshold : ℕ}
    (hpaced : PacedAfter cfg s deadline n) (hcount : threshold ≤ n + 1)
    (hpatient : cfg.caReadyTimeoutSecs.toNat <
      (threshold - 1) * cfg.healthIntervalSecs.toNat)
    (hdue : s.lastHealth + fromSecs cfg.healthIntervalSecs ≤ s.kernel.now) :
    deadline < s.kernel.now := by
  have hmul : (threshold - 1) * cfg.healthIntervalSecs.toNat ≤
      n * cfg.healthIntervalSecs.toNat :=
    Nat.mul_le_mul_right _ (by omega)
  have hn : n ≠ 0 := by
    rintro rfl
    omega
  have hle := hpaced hn
  have hscaled : fromSecs cfg.caReadyTimeoutSecs <
      n * fromSecs cfg.healthIntervalSecs := by
    unfold fromSecs
    rw [Nat.mul_left_comm]
    omega
  have hnow := Nat.add_le_add_right hdue (fromSecs cfg.caReadyTimeoutSecs)
  have hsum := Nat.le_trans hle hnow
  exact Nat.lt_of_add_lt_add_right
    (Nat.lt_of_lt_of_le (Nat.add_lt_add_left hscaled deadline) hsum)

theorem not_strikesEarly_of_paced (hpatient : Patient cfg)
    (hs : Paced cfg s) : ¬ StrikesEarly cfg s l := by
  intro hstrikes
  cases l with
  | health env =>
      obtain ⟨-, hawaits, hdue, -, hcompletes⟩ := hstrikes
      obtain ⟨deadline, hphase, hintime⟩ := awaitsCa_iff.mp hawaits
      have hdue := due_le hs hdue
      apply Nat.not_lt.mpr hintime
      generalize env.outcome = o at hcompletes
      cases o with
      | connected => exact absurd hcompletes id
      | otherError => exact absurd hcompletes id
      | refused =>
          have hreached : s.health.failThreshold.toNat ≤
              (s.health.consecutiveFailures + 1).toNat := hcompletes
          rw [hs.failThreshold] at hreached
          have hcount := Nat.le_trans hreached
            (toNat_succ_le (Nat.le_refl s.health.consecutiveFailures.toNat))
          exact not_complete_of_paced (hs.failures deadline hphase) hcount
            hpatient.refused hdue
      | timedOut =>
          have hreached : s.health.timeoutThreshold.toNat ≤
              (s.health.consecutiveTimeouts + 1).toNat := hcompletes
          rw [hs.timeoutThreshold] at hreached
          have hcount := Nat.le_trans hreached
            (toNat_succ_le (Nat.le_refl s.health.consecutiveTimeouts.toNat))
          exact not_complete_of_paced (hs.timeouts deadline hphase) hcount
            hpatient.timedOut hdue
  | _ => exact hstrikes

/-- In every run, the health checks leave a CA alone that the startup machine
waits for, exactly if none of them falls due meanwhile and completes a count.
None does in a run under a patient configuration, if the monitor holds no
counts when the machine starts the CA. -/
theorem startingCa_spared_iff (cfg : Config) (now : Instant)
    (ls : List Label) :
    (Along (step cfg) (SparesCa cfg) (init cfg now) ls ↔
      Along (step cfg) (fun s l => ¬ StrikesEarly cfg s l) (init cfg now) ls) ∧
    (Patient cfg →
      Along (step cfg) (fun s l => ¬ StartsCounted s l) (init cfg now) ls →
      Along (step cfg) (SparesCa cfg) (init cfg now) ls) := by
  refine ⟨⟨?_, ?_⟩, ?_⟩
  · apply Along.mono
    intro s l
    exact sparesCa_iff.mp
  · apply Along.mono
    intro s l
    exact sparesCa_iff.mpr
  · intro hpatient
    refine Along.of_invariant (I := Paced cfg) ?_ ?_ (Paced.init cfg now)
    · intro s l t hkept hs hstep
      exact hs.step hkept hstep
    · rintro s l - hs
      exact sparesCa_iff.mpr (not_strikesEarly_of_paced hpatient hs)

/-- The port of the CA stays closed. -/
def portClosed : StartupEnv := { StartupEnv.works 100 200 with portUp := false }

/-- An iteration, ten seconds later, that finds the port closed. -/
def closedRound : List Label :=
  .tick (fromSecs 10) :: round portClosed (.answers .refused 201)

/-- Under the default configuration a CA whose port stays closed is given its
15 s, though every health check refuses. -/
theorem startingCa_spared_default :
    Along (step Config.default) (SparesCa Config.default)
      (init Config.default 0)
      (bootCa ++ closedRound ++ closedRound ++ closedRound) :=
  (startingCa_spared_iff Config.default 0 _).2 ⟨by decide, by decide⟩
    (by decide)

/-- The CA may take a minute to open its port. -/
def slowCa : Config := { Config.default with caReadyTimeoutSecs := 60 }

/-- The CA of this configuration is restarted after half a minute. -/
theorem startingCa_restarted :
    ∃ s t, Reachable slowCa s ∧ AwaitsCa s ∧ s.ca.childPid = some 200 ∧
      step slowCa s (.health (.answers .refused 201)) = some t ∧
      t.ca.childPid = some 201 ∧
      ¬ SparesCa slowCa s (.health (.answers .refused 201)) := by
  let ls := bootCa ++ closedRound ++ closedRound ++
    [.tick (fromSecs 10), .poll .incoming, .accept false, .startup portClosed]
  have hrun : (exec (step slowCa) (init slowCa 0) ls).any (fun s =>
      s.ca.childPid = some 200 ∧
        StrikesEarly slowCa s (.health (.answers .refused 201)) ∧
        (step slowCa s (.health (.answers .refused 201))).any (fun t =>
          t.ca.childPid = some 201) = true) = true := by decide
  obtain ⟨s, hexec, hs⟩ := (Option.any_eq_true _ _).mp hrun
  obtain ⟨hold, hstrikes, hstep⟩ := of_decide_eq_true hs
  obtain ⟨t, hstep, hnew⟩ := (Option.any_eq_true _ _).mp hstep
  refine ⟨s, t, ⟨0, path_of_exec hexec (.of_forall (fun _ _ => trivial) _ _)⟩,
    hstrikes.2.1, hold, hstep, of_decide_eq_true hnew, ?_⟩
  exact fun hspares => sparesCa_iff.mp hspares hstrikes

end Teeproxyd
