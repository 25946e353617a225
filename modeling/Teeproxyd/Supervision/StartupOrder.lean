import Teeproxyd.Supervision.Stops

/-!
# The order and the timing of the startup

Three callers start a CA without a client asking for it: the startup machine in
`CaStarting`, the reap path and the health check.  The last two need a CA that
is recorded or reported, so the first CA of a run in which no client sends
`start_ca` comes from the startup machine, and that gets to `CaStarting` only
from a vsock probe that succeeded.  The phase carries the time at which the VM
was started; what the phase says is tied here to the steps of the run.
-/

namespace Teeproxyd

open ProcessTable TransitionSystem

variable {cfg : Config} {s t : Daemon} {l : Label} {n : ℕ}

/-! ## What has happened before a step of a run -/

/-- A call of `advance_startup` starts the VM successfully. -/
def BootsVm (cfg : Config) (s : Daemon) (l : Label) : Prop :=
  l.isStartup = true ∧ launches cfg s l .vm = true

instance : Decidable (BootsVm cfg s l) := inferInstanceAs (Decidable (_ ∧ _))

/-- Before step `k`, a call of `advance_startup` has started the VM, at time
`t₀`. -/
def BootedBefore (run : Run (step cfg) n) (k : ℕ) (t₀ : Instant) : Prop :=
  ∃ i, i < k ∧ BootsVm cfg (run.state i) (run.label i) ∧
    (run.state (i + 1)).kernel.now = t₀

/-- Before step `k`, a call of `advance_startup` has started the VM, and a later
one, made after the boot delay, has seen the vsock probe succeed. -/
def ProbedBefore (run : Run (step cfg) n) (k : ℕ) : Prop :=
  ∃ j, j < k ∧ marksReady (run.state j) (run.label j) .vm = true ∧
    ∃ t₀, BootedBefore run j t₀ ∧
      t₀ + fromSecs cfg.vsockProbeDelaySecs ≤ (run.state j).kernel.now

section Before

variable {run : Run (step cfg) n} {k : ℕ}

theorem BootedBefore.succ {t₀ : Instant} (h : BootedBefore run k t₀) :
    BootedBefore run (k + 1) t₀ := by
  obtain ⟨i, hi, hboots⟩ := h
  exact ⟨i, Nat.lt_succ_of_lt hi, hboots⟩

theorem ProbedBefore.succ (h : ProbedBefore run k) :
    ProbedBefore run (k + 1) := by
  obtain ⟨j, hj, hprobed⟩ := h
  exact ⟨j, Nat.lt_succ_of_lt hj, hprobed⟩

end Before

/-! ## What the phase tells -/

/-- The phases after the vsock probe has succeeded. -/
def StartupPhase.isPastVsock : StartupPhase → Bool
  | caStarting | waitingCaPort _ | complete => true
  | _ => false

/-- What a phase that waits for vsock in state `s`, before step `k` of the run,
tells of the steps before. -/
def BootTimes (run : Run (step cfg) n) (k : ℕ) (s : Daemon) : Prop :=
  ∀ deadline bootStart delayDone,
    s.startup = .waitingVsock deadline bootStart delayDone →
      BootedBefore run k bootStart ∧ bootStart ≤ s.kernel.now ∧
        deadline = bootStart +
          fromSecs (cfg.vsockProbeDelaySecs + cfg.vmBootTimeoutSecs) ∧
        (delayDone = true →
          bootStart + fromSecs cfg.vsockProbeDelaySecs ≤ s.kernel.now)

/-- What the startup phase in state `s`, before step `k` of the run, tells of
the steps before.  As long as no vsock probe has succeeded, the CA is at
rest. -/
structure OnSchedule (run : Run (step cfg) n) (k : ℕ) (s : Daemon) : Prop where
  wellFormed : ∀ r, (s.sys.mgr r).WellFormed
  booted : BootTimes run k s
  probed : s.startup.isPastVsock = true → ProbedBefore run k
  rest : ¬ ProbedBefore run k → s.ca.AtRest

theorem onSchedule_init (run : Run (step cfg) n) (now : Instant) :
    OnSchedule run 0 (init cfg now) := by
  have hphase := init_startup cfg now
  constructor
  · rintro (_ | _) <;> exact Manager.wellFormed_new
  · intro deadline bootStart delayDone hwaiting
    rcases hphase with h | h <;> cases h.symm.trans hwaiting
  · intro hpast
    rcases hphase with h | h <;> rw [h] at hpast <;> cases hpast
  · exact fun _ => Manager.atRest_halted Manager.new

theorem plus_eq_some {now deadline : Instant} {d : ℕ}
    (h : now.plus d = some deadline) : deadline = now + d := by
  unfold Instant.plus at h
  split at h <;> cases h
  rfl

section Step

variable {run : Run (step cfg) n} {k : ℕ}

theorem step_bootTimes (hwf : ∀ r, ((run.state k).sys.mgr r).WellFormed)
    (hs : BootTimes run k (run.state k)) (hk : k < n) :
    BootTimes run (k + 1) (run.state (k + 1)) := by
  intro deadline bootStart delayDone hphase
  have hstep := run.step_eq k hk
  have hnow := (step_continues hstep).now
  -- nothing but the clock has changed since the step before
  have hsame : (run.state k).startup =
      .waitingVsock deadline bootStart delayDone →
      BootedBefore run (k + 1) bootStart ∧
        bootStart ≤ (run.state (k + 1)).kernel.now ∧
        deadline = bootStart +
          fromSecs (cfg.vsockProbeDelaySecs + cfg.vmBootTimeoutSecs) ∧
        (delayDone = true → bootStart + fromSecs cfg.vsockProbeDelaySecs ≤
          (run.state (k + 1)).kernel.now) := by
    intro hwaiting
    obtain ⟨hbooted, hstart, hdeadline, hdone⟩ := hs _ _ _ hwaiting
    exact ⟨hbooted.succ, Nat.le_trans hstart hnow, hdeadline,
      fun h => Nat.le_trans (hdone h) hnow⟩
  cases hl : run.label k with
  | startup env =>
      rw [hl] at hstep
      rcases step_startup hstep with
        ⟨-, ⟨k', r, m, env', -, -, -, ht⟩ | ⟨phase, sys, hadv, ht⟩⟩
      · rw [ht] at hphase
        exact hsame hphase
      have hphase' : phase = .waitingVsock deadline bootStart delayDone := by
        rw [ht] at hphase
        exact hphase
      have hkernel : (run.state (k + 1)).kernel = sys.kernel := by rw [ht]
      generalize hbefore : (run.state k).startup = before at hadv
      cases hadv with
      | vmRestart _ hdead =>
          exact absurd hdead ((hwf .vm).not_isDead _)
      | caRestart _ hdead =>
          exact absurd hdead ((hwf .ca).not_isDead _)
      | final hfinal =>
          rw [hphase'] at hfinal
          cases hfinal
      | @vmStarted m k' deadline' hstart hdeadline =>
          cases hphase'
          have hboots : BootsVm cfg (run.state k) (run.label k) := by
            rw [hl]
            refine ⟨rfl, ?_⟩
            simp [launches, directStart, hbefore, StartupEnv.call,
              start_ok hstart]
          have hnow' : (run.state (k + 1)).kernel.now = k'.now := by
            rw [hkernel, Sys.set_kernel]
          refine ⟨⟨k, Nat.lt_succ_self k, hboots, hnow'⟩,
            Nat.le_of_eq hnow'.symm, plus_eq_some hdeadline, ?_⟩
          intro hdone
          cases hdone
      | delay =>
          obtain ⟨hbooted, hstart, hdeadline, -⟩ := hs _ _ _ hbefore
          cases hphase'
          refine ⟨hbooted.succ, Nat.le_trans hstart hnow, hdeadline, ?_⟩
          intro hdone
          have hover : fromSecs cfg.vsockProbeDelaySecs ≤
              (run.state k).kernel.now - bootStart := of_decide_eq_true hdone
          exact Nat.le_trans ((Nat.le_sub_iff_add_le' hstart).mp hover) hnow
      | vsockDown => exact hsame (hbefore.trans hphase')
      | _ => cases hphase'
  | _ =>
      have hstartup := step_startup_eq (by rw [hl]; rfl) hstep
      exact hsame (hstartup.symm.trans hphase)

theorem OnSchedule.step_probed (hs : OnSchedule run k (run.state k))
    (hk : k < n) (hpast : (run.state (k + 1)).startup.isPastVsock = true) :
    ProbedBefore run (k + 1) := by
  have hstep := run.step_eq k hk
  have hsame : (run.state k).startup.isPastVsock = true →
      ProbedBefore run (k + 1) := fun h => (hs.probed h).succ
  cases hl : run.label k with
  | startup env =>
      rw [hl] at hstep
      rcases step_startup hstep with
        ⟨-, ⟨k', r, m, env', -, -, -, ht⟩ | ⟨phase, sys, hadv, ht⟩⟩
      · rw [ht] at hpast
        exact hsame hpast
      have hpast' : phase.isPastVsock = true := by
        rw [ht] at hpast
        exact hpast
      generalize hbefore : (run.state k).startup = before at hadv hsame
      cases hadv with
      | vmRestart _ hdead =>
          exact absurd hdead ((hs.wellFormed .vm).not_isDead _)
      | caRestart _ hdead =>
          exact absurd hdead ((hs.wellFormed .ca).not_isDead _)
      | @vsockUp deadline bootStart hintime hup =>
          obtain ⟨hbooted, -, -, hdone⟩ := hs.booted _ _ _ hbefore
          have hmarks : marksReady (run.state k) (run.label k) .vm = true := by
            rw [hl]
            exact marksReady_iff.mpr
              ⟨env, rfl, Or.inl ⟨rfl, _, _, hbefore, hintime, hup⟩⟩
          exact ⟨k, Nat.lt_succ_self k, hmarks, bootStart, hbooted, hdone rfl⟩
      | final => exact hsame hpast'
      | caStarted => exact hsame rfl
      | portUp => exact hsame rfl
      | portTimeout => exact hsame rfl
      | portDown => exact hsame rfl
      | _ => cases hpast'
  | _ =>
      have hstartup := step_startup_eq (by rw [hl]; rfl) hstep
      rw [hstartup] at hpast
      exact hsame hpast

/-- As long as no vsock probe has succeeded and no client asks for the CA,
nobody starts it. -/
theorem OnSchedule.step_rest (hs : OnSchedule run k (run.state k)) (hk : k < n)
    (hcmd : (run.label k).cmd ≠ some .startCa) (hnot : ¬ ProbedBefore run k) :
    Kernel.spawnsIn (run.state (k + 1)).kernel.log .ca =
        Kernel.spawnsIn (run.state k).kernel.log .ca ∧
      (run.state (k + 1)).ca.AtRest := by
  have hpast : (run.state k).startup.isPastVsock = false :=
    Bool.eq_false_iff.mpr fun h => hnot (hs.probed h)
  have hdirect : directStart (run.state k) (run.label k) .ca = none := by
    cases hl : run.label k with
    | request req env written =>
        rw [hl] at hcmd
        have hcmd : requestCmd req ≠ .startCa := fun h => hcmd (congrArg some h)
        simp only [directStart]
        cases h : requestCmd req with
        | startCa => exact absurd h hcmd
        | _ => rfl
    | startup env =>
        simp only [directStart]
        cases h : (run.state k).startup with
        | caStarting => simp [h, StartupPhase.isPastVsock] at hpast
        | _ => rfl
    | _ => rfl
  have hmarks : marksReady (run.state k) (run.label k) .ca = false := by
    cases h : marksReady (run.state k) (run.label k) .ca with
    | false => rfl
    | true =>
        obtain ⟨env, -, ⟨hr, -⟩ | ⟨-, deadline, hphase, -⟩⟩ := marksReady_iff.mp h
        · cases hr
        · simp [hphase, StartupPhase.isPastVsock] at hpast
  obtain ⟨hspawns, hrest⟩ := step_atRest hdirect (fun _ => hmarks)
    (fun _ => hs.rest hnot) (run.step_eq k hk)
  exact ⟨hspawns, hrest rfl⟩

end Step

theorem onSchedule {now : Instant} {run : Run (step cfg) n}
    (hinit : run.state 0 = init cfg now)
    (hcmd : ∀ i, i < n → (run.label i).cmd ≠ some .startCa) :
    ∀ k, k ≤ n → OnSchedule run k (run.state k) := by
  refine run.invariant (I := fun k s => OnSchedule run k s) ?_ ?_
  · rw [hinit]
    exact onSchedule_init run now
  · intro k hk hs
    refine ⟨step_wellFormed hs.wellFormed (run.step_eq k hk),
      step_bootTimes hs.wellFormed hs.booted hk, hs.step_probed hk,
      fun hnot => ?_⟩
    exact (hs.step_rest hk (hcmd k hk) fun h => hnot h.succ).2

/-! ## The order and the timing -/

theorem vsockProbes_start (cfg : Config) (r : Role) (m : Manager) (k : Kernel)
    (env : StartEnv) :
    Kernel.vsockProbes (r.start cfg m k env).2.1.log =
      Kernel.vsockProbes k.log := by
  rcases start_cases cfg r m k env with
    ⟨-, e, hstart⟩ | ⟨-, e, hstart⟩ | ⟨-, hint, command, hstart⟩ <;>
    rw [hstart] <;> rfl

/-- Only a call of `advance_startup` in `WaitingVsock` probes vsock, once the
boot delay is noted and the deadline is checked. -/
theorem step_probes (hwf : ∀ r, (s.sys.mgr r).WellFormed)
    (hstep : step cfg s l = some t)
    (hprobes : Kernel.vsockProbes t.kernel.log ≠
      Kernel.vsockProbes s.kernel.log) :
    ∃ deadline bootStart, s.startup = .waitingVsock deadline bootStart true ∧
      s.kernel.now ≤ deadline := by
  cases l with
  | startup env =>
      have hstart : ∀ (r : Role) (m : Manager) (k : Kernel)
          (result : Except String Unit) (env' : StartEnv),
          r.start cfg (s.sys.mgr r) s.kernel env' = (m, k, result) →
          Kernel.vsockProbes k.log = Kernel.vsockProbes s.kernel.log := by
        intro r m k result env' h
        have hsame := vsockProbes_start cfg r (s.sys.mgr r) s.kernel env'
        rw [h] at hsame
        exact hsame
      rcases step_startup hstep with
        ⟨-, ⟨k, r, m, env', -, h, -, rfl⟩ | ⟨phase, sys, hadv, rfl⟩⟩
      · exact absurd (hstart _ _ _ _ _ h) hprobes
      generalize hbefore : s.startup = before at hadv
      cases hadv with
      | vmRestart _ hdead => exact absurd hdead ((hwf .vm).not_isDead _)
      | caRestart _ hdead => exact absurd hdead ((hwf .ca).not_isDead _)
      | vmStarted h => exact absurd (hstart .vm _ _ _ _ h) hprobes
      | vmNotStarted h => exact absurd (hstart .vm _ _ _ _ h) hprobes
      | caStarted h => exact absurd (hstart .ca _ _ _ _ h) hprobes
      | caNotStarted h => exact absurd (hstart .ca _ _ _ _ h) hprobes
      | vsockUp hintime => exact ⟨_, _, rfl, hintime⟩
      | vsockDown hintime => exact ⟨_, _, rfl, hintime⟩
      | _ => exact absurd rfl hprobes
  | _ => exact absurd ((step_continues hstep).probes rfl) hprobes

theorem fromSecs_add {a b : UInt64} (h : a.toNat + b.toNat < 2 ^ 64) :
    fromSecs (a + b) = fromSecs a + fromSecs b := by
  unfold fromSecs
  rw [UInt64.toNat_add, Nat.mod_eq_of_lt h, Nat.mul_add]

/-- In a run in which no client sends `start_ca`, no CA is spawned before the
startup machine has started the VM and, after the boot delay, seen the vsock
probe succeed; and vsock is probed only between the boot delay and the deadline
that follow the start of the VM. -/
theorem startup_ordered {now : Instant} {run : Run (step cfg) n}
    (hinit : run.state 0 = init cfg now)
    (hcmd : ∀ i, i < n → (run.label i).cmd ≠ some .startCa)
    (hfits : cfg.vsockProbeDelaySecs.toNat + cfg.vmBootTimeoutSecs.toNat <
      2 ^ 64) {k : ℕ} (hk : k < n) :
    (Kernel.spawnsIn (run.state (k + 1)).kernel.log .ca ≠
        Kernel.spawnsIn (run.state k).kernel.log .ca → ProbedBefore run k) ∧
    (Kernel.vsockProbes (run.state (k + 1)).kernel.log ≠
        Kernel.vsockProbes (run.state k).kernel.log →
      ∃ t₀, BootedBefore run k t₀ ∧
        t₀ + fromSecs cfg.vsockProbeDelaySecs ≤ (run.state k).kernel.now ∧
        (run.state k).kernel.now ≤ t₀ + fromSecs cfg.vsockProbeDelaySecs +
          fromSecs cfg.vmBootTimeoutSecs) := by
  have hs := onSchedule hinit hcmd k (Nat.le_of_lt hk)
  constructor
  · intro hspawned
    by_contra hnot
    exact hspawned (hs.step_rest hk (hcmd k hk) hnot).1
  · intro hprobes
    obtain ⟨deadline, bootStart, hphase, hintime⟩ :=
      step_probes hs.wellFormed (run.step_eq k hk) hprobes
    obtain ⟨hbooted, -, hdeadline, hdone⟩ := hs.booted _ _ _ hphase
    refine ⟨bootStart, hbooted, hdone rfl, ?_⟩
    rw [hdeadline, fromSecs_add hfits, ← Nat.add_assoc] at hintime
    exact hintime

/-- The start of the daemon up to its first CA. -/
theorem startup_ordered_bootCa :
    ∃ run : Run (step Config.default) bootCa.length,
      run.state 0 = init Config.default 0 ∧
      ∃ k, k < bootCa.length ∧ ProbedBefore run k := by
  obtain ⟨s, hafter, hspawned⟩ := exists_after bootCa
    (P := fun s => Kernel.spawnsIn s.kernel.log .ca = [200]) (by decide)
  obtain ⟨run, hinit, hlast, hlabel⟩ := Run.exists_of_exec hafter
  have hcmd : ∀ i, i < bootCa.length → (run.label i).cmd ≠ some .startCa := by
    simp only [hlabel]
    decide
  refine ⟨run, hinit, ?_⟩
  by_contra hnone
  have hquiet : ∀ k, k ≤ bootCa.length →
      Kernel.spawnsIn (run.state k).kernel.log .ca = [] := by
    refine run.invariant
      (I := fun _ s => Kernel.spawnsIn s.kernel.log .ca = []) ?_ ?_
    · rw [hinit]
      rfl
    · intro k hk hbefore
      by_contra hafter
      refine hnone ⟨k, hk, (startup_ordered hinit hcmd (by decide) hk).1 ?_⟩
      rwa [hbefore]
  have hend := hquiet _ (Nat.le_refl _)
  rw [hlast, hspawned] at hend
  cases hend

end Teeproxyd
