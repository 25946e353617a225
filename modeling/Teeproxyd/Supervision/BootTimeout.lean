import Teeproxyd.Supervision.StartupOrder

/-!
# A boot that times out without a probe

In `WaitingVsock` a call of `advance_startup` notes the end of the boot delay, or
tests the deadline, or probes.  The first call after the delay tests the deadline
before it probes, so when it comes late, because a client or a stop has held the
main loop, the VM is given up unprobed.
-/

namespace Teeproxyd

open ProcessTable TransitionSystem

variable {cfg : Config} {s t : Daemon} {l : Label} {n : ℕ}
  {deadline bootStart : Instant} {delayDone : Bool}

/-! ## One call in `WaitingVsock` -/

/-- What a call in `WaitingVsock` does. -/
theorem step_waitingVsock {env : StartupEnv}
    (hwf : ∀ r, (s.sys.mgr r).WellFormed)
    (hphase : s.startup = .waitingVsock deadline bootStart delayDone)
    (hstep : step cfg s (.startup env) = some t) :
    (delayDone = false ∧
      ∃ done, t.startup = .waitingVsock deadline bootStart done) ∨
    (delayDone = true ∧ deadline < s.kernel.now ∧
      t.startup = .failed "vsock timeout") ∨
    (delayDone = true ∧ s.kernel.now ≤ deadline ∧ t.startup = .caStarting) ∨
    (delayDone = true ∧ s.kernel.now ≤ deadline ∧ t.startup = s.startup ∧
      ∃ time, Kernel.vsockProbes t.kernel.log =
        (time, false) :: Kernel.vsockProbes s.kernel.log) := by
  rcases step_startup hstep with
    ⟨-, ⟨k, r, m, env', hcall, -⟩ | ⟨phase, sys, hadv, rfl⟩⟩
  · rw [hphase] at hcall
    cases hcall
  rw [hphase] at hadv ⊢
  cases hadv with
  | final hfinal => cases hfinal
  | vmRestart _ hdead => exact absurd hdead ((hwf .vm).not_isDead _)
  | caRestart hwaiting => cases hwaiting
  | delay => exact Or.inl ⟨rfl, _, rfl⟩
  | vsockTimeout hlate => exact Or.inr (Or.inl ⟨rfl, hlate, rfl⟩)
  | vsockUp hintime => exact Or.inr (Or.inr (Or.inl ⟨rfl, hintime, rfl⟩))
  | vsockDown hintime =>
      exact Or.inr (Or.inr (Or.inr ⟨rfl, hintime, rfl, _, rfl⟩))

/-- Only a machine that waits for vsock gets to probe. -/
theorem before_waitingVsock {env : StartupEnv}
    (hphase : t.startup = .waitingVsock deadline bootStart true)
    (hstep : step cfg s (.startup env) = some t) :
    ∃ done, s.startup = .waitingVsock deadline bootStart done := by
  rcases step_startup hstep with
    ⟨-, ⟨k, r, m, env', -, -, -, rfl⟩ | ⟨phase, sys, hadv, rfl⟩⟩
  · exact ⟨true, hphase⟩
  have hphase : phase = .waitingVsock deadline bootStart true := hphase
  generalize s.startup = before at hadv
  cases hadv with
  | final => exact ⟨true, hphase⟩
  | vmRestart => split at hphase <;> cases hphase
  | caRestart => split at hphase <;> cases hphase
  | delay =>
      obtain ⟨rfl, rfl, -⟩ := StartupPhase.waitingVsock.inj hphase
      exact ⟨false, rfl⟩
  | vsockDown => exact ⟨true, hphase⟩
  | _ => cases hphase

/-! ## The machine does not go back -/

/-- How far the startup machine has come. -/
def StartupPhase.rank : StartupPhase → ℕ
  | vmStarting => 0
  | waitingVsock _ _ false => 1
  | waitingVsock _ _ true => 2
  | caStarting => 3
  | waitingCaPort _ => 4
  | notStarted | complete | failed _ => 5

theorem rank_waitingVsock (deadline bootStart : Instant) (delayDone : Bool) :
    1 ≤ (StartupPhase.waitingVsock deadline bootStart delayDone).rank := by
  cases delayDone <;> simp [StartupPhase.rank]

theorem step_rank_le (hwf : ∀ r, (s.sys.mgr r).WellFormed)
    (hstep : step cfg s l = some t) : s.startup.rank ≤ t.startup.rank := by
  cases l with
  | startup env =>
      rcases step_startup hstep with
        ⟨-, ⟨k, r, m, env', -, -, -, rfl⟩ | ⟨phase, sys, hadv, rfl⟩⟩
      · exact Nat.le_refl _
      generalize s.startup = before at hadv
      cases hadv with
      | vmRestart _ hdead => exact absurd hdead ((hwf .vm).not_isDead _)
      | caRestart _ hdead => exact absurd hdead ((hwf .ca).not_isDead _)
      | vmStarted => exact Nat.zero_le _
      | vmNotStarted => exact Nat.zero_le _
      | delay => exact rank_waitingVsock _ _ _
      | _ => simp [StartupPhase.rank]
  | _ => rw [step_startup_eq rfl hstep]

section Run

variable {run : Run (step cfg) n}

theorem wellFormed_state {now : Instant} (hinit : run.state 0 = init cfg now) :
    ∀ k, k ≤ n → ∀ r, ((run.state k).sys.mgr r).WellFormed := by
  refine run.invariant (I := fun _ s => ∀ r, (s.sys.mgr r).WellFormed) ?_ ?_
  · rw [hinit]
    rintro (_ | _) <;> exact Manager.wellFormed_new
  · exact fun k hk hs => step_wellFormed hs (run.step_eq k hk)

theorem rank_mono {now : Instant} (hinit : run.state 0 = init cfg now) {i k : ℕ}
    (hik : i ≤ k) (hk : k ≤ n) :
    (run.state i).startup.rank ≤ (run.state k).startup.rank := by
  induction k, hik using Nat.le_induction with
  | base => exact Nat.le_refl _
  | succ k hik ih =>
      have hwf := wellFormed_state hinit k (Nat.le_of_lt hk)
      exact Nat.le_trans (ih (Nat.le_of_lt hk))
        (step_rank_le hwf (run.step_eq k hk))

/-- Between two calls of `advance_startup` the phase does not change. -/
theorem startup_between {m k : ℕ} (hmk : m ≤ k) (hk : k ≤ n)
    (hnone : ∀ i, m ≤ i → i < k → (run.label i).isStartup = false) :
    (run.state k).startup = (run.state m).startup := by
  induction k, hmk using Nat.le_induction with
  | base => rfl
  | succ k hmk ih =>
      have hlabel := hnone k hmk (Nat.lt_succ_self k)
      rw [step_startup_eq hlabel (run.step_eq k hk)]
      exact ih (Nat.le_of_lt hk) fun i hmi hik =>
        hnone i hmi (Nat.lt_succ_of_lt hik)

end Run

/-! ## Probes and timeouts of a run -/

/-- Step `j` is a call that probes vsock in vain, in the boot with these
times. -/
def ProbesInVain (run : Run (step cfg) n) (j : ℕ)
    (deadline bootStart : Instant) : Prop :=
  (run.label j).isStartup = true ∧
    (run.state j).startup = .waitingVsock deadline bootStart true ∧
    ∃ time, Kernel.vsockProbes (run.state (j + 1)).kernel.log =
      (time, false) :: Kernel.vsockProbes (run.state j).kernel.log

/-- Before step `k`, a call made after the boot delay has probed in vain. -/
def ProbedInVain (run : Run (step cfg) n) (k : ℕ)
    (deadline bootStart : Instant) : Prop :=
  ∃ j, j < k ∧ ProbesInVain run j deadline bootStart ∧
    bootStart + fromSecs cfg.vsockProbeDelaySecs ≤ (run.state j).kernel.now

/-- Step `m` is the call that notes the end of the boot delay. -/
def EndsDelay (run : Run (step cfg) n) (m : ℕ)
    (deadline bootStart : Instant) : Prop :=
  (run.label m).isStartup = true ∧
    (run.state m).startup = .waitingVsock deadline bootStart false ∧
    (run.state (m + 1)).startup = .waitingVsock deadline bootStart true

/-- Step `k` is the first call of `advance_startup` after step `m`. -/
def NextCall (run : Run (step cfg) n) (m k : ℕ) : Prop :=
  m < k ∧ k < n ∧ (run.label k).isStartup = true ∧
    ∀ i, m < i → i < k → (run.label i).isStartup = false

/-- Before step `k`, a machine that may test the deadline has probed in vain, or
has not been called since the end of the delay. -/
def ProbedOrDue (run : Run (step cfg) n) (k : ℕ) (s : Daemon) : Prop :=
  ∀ deadline bootStart, s.startup = .waitingVsock deadline bootStart true →
    ProbedInVain run k deadline bootStart ∨
      ∃ m, m < k ∧ EndsDelay run m deadline bootStart ∧
        ∀ i, m < i → i < k → (run.label i).isStartup = false

section Step

variable {run : Run (step cfg) n} {k : ℕ}

theorem ProbedInVain.succ (h : ProbedInVain run k deadline bootStart) :
    ProbedInVain run (k + 1) deadline bootStart := by
  obtain ⟨j, hj, hprobes⟩ := h
  exact ⟨j, Nat.lt_succ_of_lt hj, hprobes⟩

theorem step_probedOrDue (hwf : ∀ r, ((run.state k).sys.mgr r).WellFormed)
    (htimes : BootTimes run k (run.state k))
    (hs : ProbedOrDue run k (run.state k)) (hk : k < n) :
    ProbedOrDue run (k + 1) (run.state (k + 1)) := by
  intro deadline bootStart hphase
  have hstep := run.step_eq k hk
  cases hl : run.label k with
  | startup env =>
      have hlabel : (run.label k).isStartup = true := by rw [hl]; rfl
      rw [hl] at hstep
      obtain ⟨done, hbefore⟩ := before_waitingVsock hphase hstep
      rcases step_waitingVsock hwf hbefore hstep with
        ⟨rfl, -⟩ | ⟨-, -, hfailed⟩ | ⟨-, -, hready⟩ |
          ⟨rfl, -, -, hprobes⟩
      · -- the delay has just ended
        exact Or.inr ⟨k, Nat.lt_succ_self k, ⟨hlabel, hbefore, hphase⟩,
          fun i hki hik => absurd (Nat.lt_succ_iff.mp hik) (Nat.not_le.mpr hki)⟩
      · cases hphase.symm.trans hfailed
      · cases hphase.symm.trans hready
      · exact Or.inl ⟨k, Nat.lt_succ_self k, ⟨hlabel, hbefore, hprobes⟩,
          (htimes _ _ _ hbefore).2.2.2 rfl⟩
  | _ =>
      have hlabel : (run.label k).isStartup = false := by rw [hl]; rfl
      have hsame := step_startup_eq hlabel (run.step_eq k hk)
      rcases hs deadline bootStart (hsame.symm.trans hphase) with
        hprobed | ⟨m, hm, hends, hnone⟩
      · exact Or.inl hprobed.succ
      · refine Or.inr ⟨m, Nat.lt_succ_of_lt hm, hends, ?_⟩
        intro i hmi hik
        rcases Nat.lt_succ_iff_lt_or_eq.mp hik with hik | rfl
        · exact hnone i hmi hik
        · exact hlabel

end Step

section Timeout

variable {run : Run (step cfg) n} {now : Instant}

theorem probedOrDue (hinit : run.state 0 = init cfg now) :
    ∀ k, k ≤ n → ProbedOrDue run k (run.state k) := by
  have htimes : ∀ k, k ≤ n →
      BootTimes run k (run.state k) ∧ ProbedOrDue run k (run.state k) := by
    refine run.invariant (I := fun k s =>
      BootTimes run k s ∧ ProbedOrDue run k s) ?_ ?_
    · rw [hinit]
      constructor
      · exact (onSchedule_init run now).booted
      · intro deadline bootStart h
        rcases init_startup cfg now with hvm | hnone
        · cases hvm.symm.trans h
        · cases hnone.symm.trans h
    · rintro k hk ⟨htimes, hprobed⟩
      have hwf := wellFormed_state hinit k (Nat.le_of_lt hk)
      exact ⟨step_bootTimes hwf htimes hk,
        step_probedOrDue hwf htimes hprobed hk⟩
  exact fun k hk => (htimes k hk).2

/-- A call that gives the VM up is made in `WaitingVsock` after the deadline. -/
theorem late_of_timeout {k : ℕ} (hinit : run.state 0 = init cfg now)
    (hk : k < n)
    (hphase : (run.state k).startup =
      .waitingVsock deadline bootStart delayDone)
    (hfailed : (run.state (k + 1)).startup = .failed "vsock timeout") :
    (run.label k).isStartup = true ∧ delayDone = true ∧
      deadline < (run.state k).kernel.now := by
  have hstep := run.step_eq k hk
  have hwf := wellFormed_state hinit k (Nat.le_of_lt hk)
  cases hl : run.label k with
  | startup env =>
      rw [hl] at hstep
      rcases step_waitingVsock hwf hphase hstep with
        ⟨-, done, hwaits⟩ | ⟨hdone, hlate, -⟩ | ⟨-, -, hready⟩ |
          ⟨-, -, hwaits, -⟩
      · cases hfailed.symm.trans hwaits
      · exact ⟨rfl, hdone, hlate⟩
      · cases hfailed.symm.trans hready
      · cases hfailed.symm.trans (hwaits.trans hphase)
  | _ =>
      have hsame := step_startup_eq (by rw [hl]; rfl) hstep
      cases hfailed.symm.trans (hsame.trans hphase)

/-- In every run of the daemon, the VM is given up only after a probe of this
boot that was made after the delay and failed, exactly if the call that follows
the one that notes the end of the delay never comes after the deadline. -/
theorem timeout_probed_iff (hinit : run.state 0 = init cfg now) :
    (∀ k deadline bootStart delayDone, k < n →
      (run.state k).startup = .waitingVsock deadline bootStart delayDone →
      (run.state (k + 1)).startup = .failed "vsock timeout" →
      ProbedInVain run k deadline bootStart) ↔
    ∀ m k deadline bootStart, EndsDelay run m deadline bootStart →
      NextCall run m k → (run.state k).kernel.now ≤ deadline := by
  constructor
  · rintro hprobed m k deadline bootStart ⟨hlabel, hbefore, hafter⟩
      ⟨hmk, hk, hnext, hnone⟩
    by_contra hlate
    have hphase : (run.state k).startup =
        .waitingVsock deadline bootStart true := by
      rw [← hafter]
      exact startup_between hmk (Nat.le_of_lt hk) hnone
    have hwf := wellFormed_state hinit k (Nat.le_of_lt hk)
    have hstep := run.step_eq k hk
    cases hl : run.label k with
    | startup env =>
        rw [hl] at hstep
        rcases step_waitingVsock hwf hphase hstep with
          ⟨hdone, -⟩ | ⟨-, -, hfailed⟩ | ⟨-, hintime, -⟩ | ⟨-, hintime, -⟩
        · cases hdone
        · obtain ⟨j, hj, ⟨hcall, hwaits, -⟩, -⟩ :=
            hprobed k deadline bootStart true hk hphase hfailed
          -- a probe before the end of the delay would have to be undone
          rcases Nat.lt_or_ge m j with hmj | hjm
          · cases (hnone j hmj hj).symm.trans hcall
          · have hrank := rank_mono hinit hjm
              (Nat.le_of_lt (Nat.lt_trans hmk hk))
            rw [hwaits, hbefore] at hrank
            exact absurd hrank (by simp [StartupPhase.rank])
        · exact hlate hintime
        · exact hlate hintime
    | _ =>
        rw [hl] at hnext
        cases hnext
  · intro hintime k deadline bootStart delayDone hk hphase hfailed
    obtain ⟨hcall, rfl, hlate⟩ := late_of_timeout hinit hk hphase hfailed
    rcases probedOrDue hinit k (Nat.le_of_lt hk) deadline bootStart hphase with
      hprobed | ⟨m, hm, hends, hnone⟩
    · exact hprobed
    · have hle := hintime m k deadline bootStart hends ⟨hm, hk, hcall, hnone⟩
      exact absurd hle (Nat.not_le.mpr hlate)

end Timeout

/-- The VM does not answer its probe. -/
def StartupEnv.silent : StartupEnv :=
  { StartupEnv.works 100 200 with vsockUp := false }

/-- An iteration in which the VM does not answer. -/
def silentRound : List Label := round .silent (.answers .connected 300)

/-- A VM that never answers: the delay ends at 15 s, one probe fails, and a
minute later the VM is given up. -/
def slowBoot : List Label :=
  goodRound ++ [.tick (fromSecs 15)] ++ silentRound ++ silentRound ++
    [.tick (fromSecs 61)] ++ silentRound

/-- The slow boot times out after a probe. -/
theorem timeout_probed_slowBoot :
    ∃ run : Run (step Config.default) slowBoot.length,
      run.state 0 = init Config.default 0 ∧
      (run.state slowBoot.length).startup = .failed "vsock timeout" ∧
      ProbedInVain run 19 (fromSecs 75) 0 := by
  obtain ⟨t, hafter, -⟩ := exists_after slowBoot (P := fun _ => True) (by decide)
  obtain ⟨run, hinit, -, hlabel⟩ := Run.exists_of_exec hafter
  have hends : ∀ m, m < 22 → (run.label m).isStartup = true →
      m = 2 ∨ m = 8 ∨ m = 13 ∨ m = 19 := by
    simp only [hlabel]
    decide
  have hstart : (run.state 2).startup = .vmStarting :=
    holds_at hinit hlabel (by decide) (P := fun s => s.startup = _) (by decide)
  have hdelay : (run.state 8).startup = .waitingVsock (fromSecs 75) 0 false :=
    holds_at hinit hlabel (by decide) (P := fun s => s.startup = _) (by decide)
  obtain ⟨hprobe, hintime⟩ : (run.state 13).startup =
      .waitingVsock (fromSecs 75) 0 true ∧
        (run.state 13).kernel.now = fromSecs 15 :=
    holds_at hinit hlabel (by decide)
      (P := fun s => s.startup = _ ∧ s.kernel.now = _) (by decide)
  have hphase : (run.state 19).startup = .waitingVsock (fromSecs 75) 0 true :=
    holds_at hinit hlabel (by decide) (P := fun s => s.startup = _) (by decide)
  have hfailed : (run.state 20).startup = .failed "vsock timeout" :=
    holds_at hinit hlabel (by decide) (P := fun s => s.startup = _) (by decide)
  have hlast : (run.state 22).startup = .failed "vsock timeout" :=
    holds_at hinit hlabel (by decide) (P := fun s => s.startup = _) (by decide)
  refine ⟨run, hinit, hlast, (timeout_probed_iff hinit).mpr ?_ 19 _ _ true
    (by decide) hphase hfailed⟩
  rintro m k deadline bootStart ⟨hcall, hbefore, -⟩ ⟨hmk, hk, hnext, hnone⟩
  rcases hends m (Nat.lt_trans hmk hk) hcall with rfl | rfl | rfl | rfl
  · cases hbefore.symm.trans hstart
  · obtain ⟨rfl, -, -⟩ :=
      StartupPhase.waitingVsock.inj (hbefore.symm.trans hdelay)
    have hnot : (run.label 13).isStartup = true := by
      rw [hlabel]
      rfl
    rcases hends k hk hnext with rfl | rfl | rfl | rfl
    · exact absurd hmk (by decide)
    · exact absurd hmk (by decide)
    · rw [hintime]
      decide
    · cases hnot.symm.trans (hnone 13 (by decide) (by decide))
  · cases hbefore.symm.trans hprobe
  · cases hbefore.symm.trans hphase

/-- A client holds the main loop for a minute after the delay: the VM is given
up, and nobody has probed it. -/
theorem timeout_unprobed :
    ∃ s t env, Reachable Config.default s ∧
      s.startup = .waitingVsock (fromSecs 75) 0 true ∧
      step Config.default s (.startup env) = some t ∧
      t.startup = .failed "vsock timeout" ∧
      Kernel.vsockProbes t.kernel.log = [] := by
  obtain ⟨s, hafter, hphase, hnext⟩ := exists_after
    (goodRound ++ [.tick (fromSecs 15)] ++ goodRound ++
      [.poll .incoming, .accept true, .tick (fromSecs 61), .hangup])
    (P := fun s => s.startup = .waitingVsock (fromSecs 75) 0 true ∧
      (step Config.default s (.startup (.works 100 200))).any (fun t =>
        t.startup = .failed "vsock timeout" ∧
          Kernel.vsockProbes t.kernel.log = []) = true) (by decide)
  obtain ⟨t, hstep, ht⟩ := (Option.any_eq_true _ _).mp hnext
  obtain ⟨hfailed, hprobes⟩ := of_decide_eq_true ht
  exact ⟨s, t, .works 100 200,
    reach_of_after hafter (.of_forall (fun _ _ => trivial) _ _), hphase, hstep,
    hfailed, hprobes⟩

end Teeproxyd
