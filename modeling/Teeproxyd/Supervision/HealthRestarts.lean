import Teeproxyd.Supervision.Strikes

/-!
# Whom a health restart is charged to

The health monitor counts the probes that fail in a row.  Its counts belong to
the daemon and not to the CA: `CaManager::start` does not clear them, whoever
calls it, and a restart verdict clears only one of the two if it is reached by
timeouts.  So a CA that is started while the monitor holds counts inherits them
from the CA before it, and may be killed for failures that are not its own.
That is the only way.
-/

namespace Teeproxyd

open ProcessTable TransitionSystem

variable {cfg : Config} {s t : Daemon} {l : Label}

/-! ## The probes of an incarnation -/

/-- How many health probes have had this outcome since a CA was last started. -/
def probesSinceStart : List (Instant × Event) → Connect → ℕ
  | [], _ => 0
  | (_, .spawned .ca _ _) :: _, _ => 0
  | (_, .healthProbe c) :: log, o =>
      if c = o then probesSinceStart log o + 1 else probesSinceStart log o
  | _ :: log, o => probesSinceStart log o

/-- The monitor counts failed probes. -/
def HealthMonitor.Counts (h : HealthMonitor) : Prop :=
  h.consecutiveFailures ≠ 0 ∨ h.consecutiveTimeouts ≠ 0

instance (h : HealthMonitor) : Decidable h.Counts :=
  inferInstanceAs (Decidable (_ ∨ _))

/-- The step starts a CA that inherits counts of the monitor.  A health restart
leaves none after refused probes, and the refused ones after timeouts. -/
def CarriesCounts (cfg : Config) (s : Daemon) (l : Label) : Prop :=
  match l with
  | .health env =>
      healthRestarts cfg s env ∧ startOutcome cfg .ca env.start = .started ∧
        env.outcome = .timedOut ∧ s.health.consecutiveFailures ≠ 0
  | .waitpid _ env =>
      crashRestarts s l = true ∧ startOutcome cfg .ca env = .started ∧
        s.health.Counts
  | _ =>
      (directStart s l .ca).any
        (fun env => startOutcome cfg .ca env = .started) = true ∧
        s.health.Counts

instance decidableCarriesCounts : (l : Label) → Decidable (CarriesCounts cfg s l)
  | .health _ => inferInstanceAs (Decidable (_ ∧ _ ∧ _ ∧ _))
  | .waitpid _ _ => inferInstanceAs (Decidable (_ ∧ _ ∧ _))
  | .tick _ | .exit _ | .crosvmStart _ | .crosvmExit _ | .others _
  | .terminate | .sigchld | .deliverChld | .deliverTerm | .poll _ | .wake _
  | .drain | .accept _ | .request _ _ _ | .hangup | .startup _ | .resetCounts
  | .shutdown _ _ => inferInstanceAs (Decidable (_ ∧ _))

/-- The monitor has the thresholds it was made with, and what it counts are
probes of the CA that was started last. -/
structure Charged (cfg : Config) (log : List (Instant × Event))
    (h : HealthMonitor) : Prop where
  failThreshold : h.failThreshold = cfg.healthFailThreshold
  timeoutThreshold : h.timeoutThreshold = 10
  failures : h.consecutiveFailures.toNat ≤ probesSinceStart log .refused
  timeouts : h.consecutiveTimeouts.toNat ≤ probesSinceStart log .timedOut

variable {h : HealthMonitor} {log : List (Instant × Event)}

theorem probesSinceStart_le {te : Instant × Event}
    (hspawned : ∀ pid command, te.2 ≠ .spawned .ca pid command) (o : Connect) :
    probesSinceStart log o ≤ probesSinceStart (te :: log) o := by
  obtain ⟨time, e⟩ := te
  cases e with
  | spawned r pid command =>
      cases r with
      | vm => exact Nat.le_refl _
      | ca => exact absurd rfl (hspawned pid command)
  | healthProbe c =>
      simp only [probesSinceStart]
      split
      next => exact Nat.le_succ _
      next => exact Nat.le_refl _
  | _ => exact Nat.le_refl _

theorem probesSinceStart_probe (time : Instant) (o c : Connect) :
    probesSinceStart ((time, .healthProbe o) :: log) c =
      probesSinceStart log c + if o = c then 1 else 0 := by
  rw [probesSinceStart]
  split <;> rfl

/-! ## One probe -/

/-- A probe with this outcome completes one of the monitor's counts. -/
def HealthMonitor.Completes (h : HealthMonitor) : Connect → Prop
  | .refused => h.failThreshold ≤ h.consecutiveFailures + 1
  | .timedOut => h.timeoutThreshold ≤ h.consecutiveTimeouts + 1
  | .connected | .otherError => False

instance (h : HealthMonitor) : (o : Connect) → Decidable (h.Completes o)
  | .refused | .timedOut => inferInstanceAs (Decidable (_ ≤ _))
  | .connected | .otherError => inferInstanceAs (Decidable False)

theorem probe_restartNeeded_iff {o : Connect} :
    (h.probe o).2 = .restartNeeded ↔ h.Completes o := by
  cases o with
  | connected => exact iff_of_false nofun id
  | otherError => exact iff_of_false nofun id
  | refused =>
      unfold HealthMonitor.probe HealthMonitor.Completes
      dsimp only
      split
      next hreached => exact iff_of_true rfl hreached
      next hreached => exact iff_of_false nofun hreached
  | timedOut =>
      unfold HealthMonitor.probe HealthMonitor.Completes
      dsimp only
      split
      next hreached => exact iff_of_true rfl hreached
      next hreached => exact iff_of_false nofun hreached

theorem probe_of_completes {o : Connect} (hcompletes : h.Completes o) :
    (o = .refused ∧ (h.probe o).1 =
        { h with consecutiveTimeouts := 0, consecutiveFailures := 0 }) ∨
      (o = .timedOut ∧ (h.probe o).1 = { h with consecutiveTimeouts := 0 }) := by
  cases o with
  | connected => cases hcompletes
  | otherError => cases hcompletes
  | refused =>
      left
      have hreached : h.failThreshold ≤ h.consecutiveFailures + 1 := hcompletes
      exact ⟨rfl, by simp [HealthMonitor.probe, hreached]⟩
  | timedOut =>
      right
      have hreached : h.timeoutThreshold ≤ h.consecutiveTimeouts + 1 :=
        hcompletes
      exact ⟨rfl, by simp [HealthMonitor.probe, hreached]⟩

theorem toNat_succ_le {n : UInt32} {m : ℕ} (hn : n.toNat ≤ m) :
    (n + 1).toNat ≤ m + 1 := by
  rw [UInt32.toNat_add]
  exact Nat.le_trans (Nat.mod_le _ _) (Nat.succ_le_succ hn)

/-- A probe leaves the thresholds as they are, and adds one at most to the count
of its outcome. -/
theorem probe_counts_le (h : HealthMonitor) (o : Connect) :
    (h.probe o).1.failThreshold = h.failThreshold ∧
    (h.probe o).1.timeoutThreshold = h.timeoutThreshold ∧
    (h.probe o).1.consecutiveFailures.toNat ≤
      h.consecutiveFailures.toNat + (if o = .refused then 1 else 0) ∧
    (h.probe o).1.consecutiveTimeouts.toNat ≤
      h.consecutiveTimeouts.toNat + (if o = .timedOut then 1 else 0) := by
  have hmore : ∀ n : UInt32, (n + 1).toNat ≤ n.toNat + 1 :=
    fun n => toNat_succ_le (Nat.le_refl _)
  cases o with
  | connected => exact ⟨rfl, rfl, Nat.zero_le _, Nat.zero_le _⟩
  | otherError => exact ⟨rfl, rfl, Nat.le_refl _, Nat.le_refl _⟩
  | refused =>
      unfold HealthMonitor.probe
      dsimp only
      split
      next => exact ⟨rfl, rfl, Nat.zero_le _, Nat.zero_le _⟩
      next => exact ⟨rfl, rfl, hmore _, Nat.zero_le _⟩
  | timedOut =>
      unfold HealthMonitor.probe
      dsimp only
      split
      next => exact ⟨rfl, rfl, Nat.le_refl _, Nat.zero_le _⟩
      next => exact ⟨rfl, rfl, Nat.le_refl _, hmore _⟩

theorem Charged.probe (hh : Charged cfg log h) (time : Instant) (o : Connect) :
    Charged cfg ((time, .healthProbe o) :: log) (h.probe o).1 := by
  obtain ⟨hfail, htimeout, hfailures, htimeouts⟩ := probe_counts_le h o
  constructor
  · exact hfail.trans hh.failThreshold
  · exact htimeout.trans hh.timeoutThreshold
  · rw [probesSinceStart_probe]
    exact Nat.le_trans hfailures (Nat.add_le_add_right hh.failures _)
  · rw [probesSinceStart_probe]
    exact Nat.le_trans htimeouts (Nat.add_le_add_right hh.timeouts _)

theorem Charged.verdict (hh : Charged cfg log h) (time : Instant) {o : Connect}
    (hverdict : (h.probe o).2 = .restartNeeded) :
    max 1 cfg.healthFailThreshold.toNat ≤
        probesSinceStart ((time, .healthProbe o) :: log) .refused ∨
      10 ≤ probesSinceStart ((time, .healthProbe o) :: log) .timedOut := by
  have hcompletes := probe_restartNeeded_iff.mp hverdict
  rw [probesSinceStart_probe, probesSinceStart_probe]
  cases o with
  | connected => cases hcompletes
  | otherError => cases hcompletes
  | refused =>
      left
      have hreached : h.failThreshold.toNat ≤
        (h.consecutiveFailures + 1).toNat := hcompletes
      have hfailures := toNat_succ_le hh.failures
      rw [hh.failThreshold] at hreached
      rw [if_pos rfl]
      omega
  | timedOut =>
      right
      have hreached : h.timeoutThreshold.toNat ≤
        (h.consecutiveTimeouts + 1).toNat := hcompletes
      rw [hh.timeoutThreshold] at hreached
      rw [if_pos rfl]
      exact Nat.le_trans hreached (toNat_succ_le hh.timeouts)

/-! ## Steps -/

theorem step_health_eq (hl : ∀ env, l ≠ .health env)
    (hstep : step cfg s l = some t) : t.health = s.health :=
  ((step_phase_monitor hstep).2 hl).1

/-- Counts stay charged to the last CA in every step that starts none, or finds
no counts. -/
theorem step_charged_log
    (hclear : ∀ f env, CallsStart cfg s l f .ca env →
      startOutcome cfg .ca env = .started → ¬ h.Counts)
    (hstep : step cfg s l = some t) (hs : Charged cfg s.kernel.log h) :
    Charged cfg t.kernel.log h := by
  refine step_invariant (I := fun log _ => Charged cfg log h)
    (fun _ _ hlog => hlog) ?_ hstep hs
  intro log f te g hcause hte hlog
  by_cases hspawned : ∃ pid command, te.2 = .spawned .ca pid command
  · obtain ⟨pid, command, he⟩ := hspawned
    obtain ⟨env, hcalls, hstarted⟩ : ∃ env, CallsStart cfg s l f .ca env ∧
        startOutcome cfg .ca env = .started := by
      simpa [Cause, he] using hcause
    have hnone := hclear f env hcalls hstarted
    have hzero : h.consecutiveFailures = 0 ∧ h.consecutiveTimeouts = 0 := by
      simpa [HealthMonitor.Counts] using hnone
    refine ⟨hlog.failThreshold, hlog.timeoutThreshold, ?_, ?_⟩
    · rw [hzero.1]
      exact Nat.zero_le _
    · rw [hzero.2]
      exact Nat.zero_le _
  · have hmore : ∀ o, probesSinceStart log o ≤ probesSinceStart (te :: log) o :=
      probesSinceStart_le fun pid command he => hspawned ⟨pid, command, he⟩
    exact ⟨hlog.failThreshold, hlog.timeoutThreshold,
      Nat.le_trans hlog.failures (hmore .refused),
      Nat.le_trans hlog.timeouts (hmore .timedOut)⟩

theorem not_counts_of_kept (hl : ∀ env, l ≠ .health env)
    (hkept : ¬ CarriesCounts cfg s l) {f : Fleet} {env : StartEnv}
    (hcalls : CallsStart cfg s l f .ca env)
    (hstarted : startOutcome cfg .ca env = .started) : ¬ s.health.Counts := by
  intro hcounts
  apply hkept
  rcases hcalls with ⟨-, hdirect⟩ | ⟨-, -, hauto⟩
  · cases l with
    | waitpid raw env => cases hdirect
    | health env => exact absurd rfl (hl env)
    | _ => exact ⟨by simp [hdirect, hstarted], hcounts⟩
  · cases l with
    | waitpid raw env =>
        obtain ⟨rfl, hcrash⟩ := crashRestarts_of_autoRestart hauto
        exact ⟨hcrash, hstarted, hcounts⟩
    | health env => exact absurd rfl (hl env)
    | _ => cases hauto

/-- The health check charges its probe, and a restart leaves behind no counts
that a new CA could inherit. -/
theorem step_health_charged {env : HealthEnv}
    (hkept : ¬ CarriesCounts cfg s (.health env))
    (hs : Charged cfg s.kernel.log s.health)
    (hstep : step cfg s (.health env) = some t) :
    t.pc = .panicked ∨ Charged cfg t.kernel.log t.health := by
  rcases step_health hstep with
    ⟨-, ⟨-, rfl⟩ | ⟨-, k, -, rfl⟩ | ⟨hdue, health, sys, hcheck, hnext⟩⟩
  · exact Or.inr hs
  · exact Or.inl rfl
  right
  have hhealth : t.health = health := by rw [hnext]
  have hkernel : t.kernel = sys.kernel := by rw [hnext]
  rw [hhealth]
  cases hcheck with
  | idle =>
      rw [hkernel]
      exact hs
  | probed =>
      rw [hkernel]
      exact hs.probe _ env.outcome
  | restarted hup hverdict hstop =>
      have hleft := probe_of_completes (probe_restartNeeded_iff.mp hverdict)
      have hbefore :
          Charged cfg s.kernel.log (s.health.probe env.outcome).1 := by
        rcases hleft with ⟨-, hnone⟩ | ⟨-, hrefusals⟩
        · rw [hnone]
          exact ⟨hs.failThreshold, hs.timeoutThreshold, Nat.zero_le _,
            Nat.zero_le _⟩
        · rw [hrefusals]
          exact ⟨hs.failThreshold, hs.timeoutThreshold, hs.failures,
            Nat.zero_le _⟩
      refine step_charged_log ?_ hstep hbefore
      rintro f env' (⟨-, hdirect⟩ | ⟨-, -, rfl, hrestarts⟩) hstarted hcounts
      · cases hdirect
      rcases hleft with ⟨-, hnone⟩ | ⟨htimedOut, hrefusals⟩
      · rw [hnone] at hcounts
        exact hcounts.elim (fun h => h rfl) (fun h => h rfl)
      · rw [hrefusals] at hcounts
        exact hkept ⟨hrestarts, hstarted, htimedOut,
          hcounts.resolve_right fun h => h rfl⟩

theorem step_charged (hkept : ¬ CarriesCounts cfg s l)
    (hs : s.pc = .panicked ∨ Charged cfg s.kernel.log s.health)
    (hstep : step cfg s l = some t) :
    t.pc = .panicked ∨ Charged cfg t.kernel.log t.health := by
  rcases hs with hpanicked | hs
  · left
    exact (step_ended (by rw [hpanicked]; rfl) hstep).1.trans hpanicked
  by_cases hl : ∃ env, l = .health env
  · obtain ⟨env, rfl⟩ := hl
    exact step_health_charged hkept hs hstep
  · right
    have hl : ∀ env, l ≠ .health env := fun env h => hl ⟨env, h⟩
    rw [step_health_eq hl hstep]
    exact step_charged_log
      (fun f env hcalls hstarted => not_counts_of_kept hl hkept hcalls hstarted)
      hstep hs

theorem reach_charged
    (hreach : Reach cfg (fun s l => ¬ CarriesCounts cfg s l) s) :
    s.pc = .panicked ∨ Charged cfg s.kernel.log s.health := by
  obtain ⟨now, hpath⟩ := hreach
  refine hpath.preserves
    (I := fun s => s.pc = .panicked ∨ Charged cfg s.kernel.log s.health) ?_ ?_
  · intro u l v hkept hu hstep
    exact step_charged hkept hu hstep
  · exact Or.inr ⟨rfl, rfl, Nat.le_refl _, Nat.le_refl _⟩

/-- The recorded child is the one that was started last. -/
theorem reach_recorded_last {guard : Daemon → Label → Prop} {r : Role}
    (hreach : Reach cfg guard s) : s.pc = .panicked ∨
      ∀ pid, (s.sys.mgr r).childPid = some pid →
        (Kernel.spawnsIn s.kernel.log r).head? = some pid := by
  refine reach_history (I := fun log f => ∀ pid, (f.mgr r).childPid = some pid →
    (Kernel.spawnsIn log r).head? = some pid) ?_ ?_ hreach
  · intro pid h
    cases h
  rintro u l - log f ⟨time, e⟩ g hcause hte hf pid hpid
  have hkept : (∀ q command, e ≠ .spawned r q command) →
      (f.mgr r).childPid = some pid →
      (Kernel.spawnsIn ((time, e) :: log) r).head? = some pid := by
    intro hspawned hbefore
    rw [spawnsIn_cons hspawned]
    exact hf pid hbefore
  rcases hte.changes r with ⟨hsubject, hsame⟩ | hchanges
  · rw [hsame] at hpid
    refine hkept (fun q command he => hsubject ?_) hpid
    rw [he]
    rfl
  generalize f.mgr r = m at hchanges hkept
  generalize g.mgr r = m' at hchanges hpid
  cases hchanges with
  | spawned =>
      cases hpid
      simp [Kernel.spawnsIn]
  | stopped => cases hpid
  | died => cases hpid
  | _ =>
      refine hkept ?_ hpid
      intro q command h
      cases h

/-- The log when the health check has made its probe. -/
def probedLog (s : Daemon) (env : HealthEnv) : List (Instant × Event) :=
  ((s.kernel.advance env.took).emit (.healthProbe env.outcome)).log

/-- In every run in which no CA is started while the monitor holds counts, a
health restart stops the CA that was started last, and this one has refused as
many probes as the threshold asks for, and at least one, or has timed out on
ten. -/
theorem healthRestart_charged {env : HealthEnv}
    (hreach : Reach cfg (fun s l => ¬ CarriesCounts cfg s l) s)
    (hrestarts : healthRestarts cfg s env)
    (hstep : step cfg s (.health env) = some t) :
    (∀ pid, s.ca.childPid = some pid →
      (Kernel.spawnsIn s.kernel.log .ca).head? = some pid) ∧
    (max 1 cfg.healthFailThreshold.toNat ≤
        probesSinceStart (probedLog s env) .refused ∨
      10 ≤ probesSinceStart (probedLog s env) .timedOut) := by
  have hpc : s.pc ≠ .panicked := by
    rw [(step_health hstep).1]
    exact nofun
  have hcharged := (reach_charged hreach).resolve_left hpc
  have hlast := (reach_recorded_last (r := .ca) hreach).resolve_left hpc
  constructor
  · exact hlast
  · exact hcharged.verdict _ hrestarts.2.2

/-- Ten seconds later, up to the health check. -/
def toHealth : List Label :=
  [.tick (fromSecs 10), .poll .incoming, .accept false, .startup (.works 100 200)]

/-- The third refusal in a row of CA 200. -/
theorem healthRestart_charged_bootUp :
    ∃ s t, after (bootUp ++ refusedRound ++ refusedRound ++ toHealth) = some s ∧
      step Config.default s (.health (.answers .refused 201)) = some t ∧
      (3 ≤ probesSinceStart (probedLog s (.answers .refused 201)) .refused ∨
        10 ≤ probesSinceStart (probedLog s (.answers .refused 201))
          .timedOut) := by
  obtain ⟨s, hafter, hrestarts, hrun⟩ := exists_after
    (bootUp ++ refusedRound ++ refusedRound ++ toHealth)
    (P := fun s => healthRestarts Config.default s (.answers .refused 201) ∧
      (step Config.default s (.health (.answers .refused 201))).isSome = true)
    (by decide)
  obtain ⟨t, hstep⟩ := Option.isSome_iff_exists.mp hrun
  exact ⟨s, t, hafter, hstep, (healthRestart_charged
    (reach_of_after hafter (by decide)) hrestarts hstep).2⟩

/-- CA 200, which has refused two probes, dies and is replaced by CA 201. -/
def caReplaced : List Label :=
  caExit ++ [.waitpid (some (200, .code 1)) (.works 201)] ++ restOfIteration

/-- The first probe that CA 201 refuses gets it killed, for two refusals of the
CA before it. -/
theorem newer_ca_charged :
    ∃ s t, Reachable Config.default s ∧
      healthRestarts Config.default s (.answers .refused 202) ∧
      step Config.default s (.health (.answers .refused 202)) = some t ∧
      s.ca.childPid = some 201 ∧ t.ca.childPid = some 202 ∧
      probesSinceStart (probedLog s (.answers .refused 202)) .refused = 1 ∧
      probesSinceStart (probedLog s (.answers .refused 202)) .timedOut = 0 := by
  obtain ⟨s, hafter, hrestarts, hbefore, hrefused, htimedOut, hrun⟩ :=
    exists_after (bootUp ++ refusedRound ++ refusedRound ++ caReplaced ++ toHealth)
      (P := fun s => healthRestarts Config.default s (.answers .refused 202) ∧
        s.ca.childPid = some 201 ∧
        probesSinceStart (probedLog s (.answers .refused 202)) .refused = 1 ∧
        probesSinceStart (probedLog s (.answers .refused 202)) .timedOut = 0 ∧
        (step Config.default s (.health (.answers .refused 202))).any (fun t =>
          t.ca.childPid = some 202) = true) (by decide)
  obtain ⟨t, hstep, hafterwards⟩ := (Option.any_eq_true _ _).mp hrun
  exact ⟨s, t, reach_of_after hafter (.of_forall (fun _ _ => trivial) _ _),
    hrestarts, hstep, hbefore, of_decide_eq_true hafterwards, hrefused,
    htimedOut⟩

end Teeproxyd
