import Teeproxyd.Supervision.BootTimeout
import Teeproxyd.Supervision.StartAll

/-!
# The startup machine comes to rest

Each phase of the startup has a time from which on the next call of
`advance_startup` leaves it, whatever the call finds.  No phase is entered
twice, and a vsock timeout is the end, so four such calls are the most that a
run can hold.  In a daemon that keeps running the machine comes to rest in a
final phase.
-/

namespace Teeproxyd

open TransitionSystem

variable {cfg : Config} {s t : Daemon} {l : Label}

/-! ## One call -/

/-- The time from which on a call leaves the phase. -/
def StartupPhase.overdueAt (cfg : Config) : StartupPhase → ℕ
  | waitingVsock _ bootStart false =>
      bootStart + fromSecs cfg.vsockProbeDelaySecs
  | waitingVsock deadline _ true | waitingCaPort deadline => deadline + 1
  | _ => 0

/-- The label calls `advance_startup` when the phase is over. -/
def overdueCall (cfg : Config) (s : Daemon) (l : Label) : Bool :=
  l.isStartup && !s.startup.isFinal &&
    decide (s.startup.overdueAt cfg ≤ s.kernel.now)

theorem step_advances (hwf : ∀ r, (s.sys.mgr r).WellFormed)
    (hstep : step cfg s l = some t) :
    s.startup.rank < t.startup.rank ∨ t.startup = s.startup := by
  cases l with
  | startup env =>
      rcases step_startup hstep with
        ⟨-, ⟨k, r, m, env', -, -, -, rfl⟩ | ⟨phase, sys, hadv, rfl⟩⟩
      · exact Or.inr rfl
      dsimp only
      generalize s.startup = before at hadv ⊢
      cases hadv with
      | vmRestart _ hdead => exact absurd hdead ((hwf .vm).not_isDead _)
      | caRestart _ hdead => exact absurd hdead ((hwf .ca).not_isDead _)
      | final => exact Or.inr rfl
      | @delay deadline bootStart =>
          generalize decide (bootStart.elapsed s.sys.kernel.now ≥
            fromSecs cfg.vsockProbeDelaySecs) = waited
          cases waited with
          | false => exact Or.inr rfl
          | true => exact Or.inl (by simp [StartupPhase.rank])
      | vsockDown => exact Or.inr rfl
      | portDown => exact Or.inr rfl
      | _ => exact Or.inl (by simp [StartupPhase.rank])
  | _ => exact Or.inr (step_startup_eq rfl hstep)

/-- How many calls can still come late.  From `WaitingVsock` a late call leads
to the end. -/
def StartupPhase.lateCallsLeft (phase : StartupPhase) : ℕ :=
  if phase.rank ≤ 2 then 4 - phase.rank else 5 - phase.rank

/-- A call that comes when the phase is over moves the machine on, whatever it
finds, unless it panics. -/
theorem step_overdueCall (hwf : ∀ r, (s.sys.mgr r).WellFormed)
    (hcall : overdueCall cfg s l = true) (hstep : step cfg s l = some t) :
    t.startup.lateCallsLeft < s.startup.lateCallsLeft ∨ t.pc = .panicked := by
  cases l with
  | startup env =>
      rcases step_startup hstep with
        ⟨-, ⟨k, r, m, env', -, -, -, rfl⟩ | ⟨phase, sys, hadv, rfl⟩⟩
      · exact Or.inr rfl
      left
      simp only [overdueCall, Bool.and_eq_true, Bool.not_eq_true',
        decide_eq_true_eq] at hcall
      obtain ⟨⟨-, hphase⟩, hover⟩ := hcall
      dsimp only
      generalize s.startup = before at hadv hphase hover ⊢
      cases hadv with
      | vmRestart _ hdead => exact absurd hdead ((hwf .vm).not_isDead _)
      | caRestart _ hdead => exact absurd hdead ((hwf .ca).not_isDead _)
      | final hfinal => cases hphase.symm.trans hfinal
      | @delay deadline bootStart =>
          have hover : bootStart.elapsed s.sys.kernel.now ≥
            fromSecs cfg.vsockProbeDelaySecs := Nat.le_sub_of_add_le' hover
          rw [decide_eq_true hover]
          simp [StartupPhase.lateCallsLeft, StartupPhase.rank]
      | vsockUp hintime =>
          exact absurd hintime (Nat.not_le_of_lt hover)
      | vsockDown hintime =>
          exact absurd hintime (Nat.not_le_of_lt hover)
      | portDown hdown hintime =>
          have hlate := Nat.le_trans (Nat.le_add_right _ _) hintime
          exact absurd hlate (Nat.not_le_of_lt hover)
      | _ => simp [StartupPhase.lateCallsLeft, StartupPhase.rank]
  | _ => cases hcall

theorem StartupPhase.rank_le (phase : StartupPhase) : phase.rank ≤ 5 := by
  cases phase with
  | waitingVsock deadline bootStart delayDone =>
      cases delayDone <;> simp [rank]
  | _ => simp [rank]

theorem lateCallsLeft_anti {phase phase' : StartupPhase}
    (h : phase.rank ≤ phase'.rank) :
    phase'.lateCallsLeft ≤ phase.lateCallsLeft := by
  have hend := phase'.rank_le
  unfold StartupPhase.lateCallsLeft
  split <;> split <;> omega

theorem one_le_lateCallsLeft {phase : StartupPhase}
    (h : phase.isFinal = false) : 1 ≤ phase.lateCallsLeft := by
  cases phase with
  | notStarted | complete | failed => cases h
  | waitingVsock deadline bootStart delayDone =>
      cases delayDone <;>
        simp [StartupPhase.lateCallsLeft, StartupPhase.rank]
  | _ => simp [StartupPhase.lateCallsLeft, StartupPhase.rank]

theorem not_panicked_of_isStartup (hl : l.isStartup = true)
    (hstep : step cfg s l = some t) : s.pc ≠ .panicked := by
  cases l with
  | startup env =>
      rw [(step_startup hstep).1]
      exact Pc.noConfusion
  | _ => cases hl

/-! ## Runs -/

/-- The overdue calls of a run. -/
def overdueCallsIn (cfg : Config) (s : Daemon) (ls : List Label) : ℕ :=
  totalCost (step cfg) (fun s l => (overdueCall cfg s l).toNat) s ls

/-- The late calls that a program which is still there can meet. -/
def lateCallsAhead (s : Daemon) : ℕ :=
  if s.pc = .panicked then 0 else s.startup.lateCallsLeft

theorem step_lateCallsAhead (hwf : ∀ r, (s.sys.mgr r).WellFormed)
    (hstep : step cfg s l = some t) :
    lateCallsAhead t + (overdueCall cfg s l).toNat ≤ lateCallsAhead s := by
  cases hcall : overdueCall cfg s l with
  | false =>
      unfold lateCallsAhead
      split
      next => exact Nat.zero_le _
      next hpc =>
        have hbefore : s.pc ≠ .panicked := by
          intro hpanicked
          exact hpc ((step_ended (by rw [hpanicked]; rfl) hstep).1.trans
            hpanicked)
        rw [if_neg hbefore]
        exact lateCallsLeft_anti (step_rank_le hwf hstep)
  | true =>
      have hless := step_overdueCall hwf hcall hstep
      simp only [overdueCall, Bool.and_eq_true, Bool.not_eq_true'] at hcall
      obtain ⟨⟨hl, hphase⟩, -⟩ := hcall
      unfold lateCallsAhead
      rw [if_neg (not_panicked_of_isStartup hl hstep)]
      split
      next => exact one_le_lateCallsLeft hphase
      next hpc => exact hless.resolve_right hpc

theorem along_wellFormed (cfg : Config) (now : Instant) (ls : List Label) :
    Along (step cfg) (fun s _ => ∀ r, (s.sys.mgr r).WellFormed) (init cfg now)
      ls := by
  refine Along.of_invariant (G := fun _ _ => True)
    (I := fun s => ∀ r, (s.sys.mgr r).WellFormed) ?_ ?_ ?_
    (.of_forall (fun _ _ => trivial) _ _)
  · exact fun s l t _ hs hstep => step_wellFormed hs hstep
  · exact fun s l _ hs => hs
  · rintro (_ | _) <;> exact Manager.wellFormed_new

/-- In every run, four calls of `advance_startup` at most come when the phase
that they find is over; without auto-start there is none. -/
theorem overdue_calls_bounded {now : Instant} {ls : List Label}
    (hrun : exec (step cfg) (init cfg now) ls = some t) :
    overdueCallsIn cfg (init cfg now) ls ≤ if cfg.autoStart then 4 else 0 := by
  have hpaid : lateCallsAhead t + overdueCallsIn cfg (init cfg now) ls ≤
      lateCallsAhead (init cfg now) := by
    refine Along.totalCost_le (G := fun s _ => ∀ r, (s.sys.mgr r).WellFormed)
      ?_ (along_wellFormed cfg now ls) hrun
    exact fun s l t hwf hstep => step_lateCallsAhead hwf hstep
  have hstart : lateCallsAhead (init cfg now) =
      if cfg.autoStart then 4 else 0 := by
    cases hauto : cfg.autoStart <;>
      simp [lateCallsAhead, init, hauto, StartupPhase.lateCallsLeft,
        StartupPhase.rank]
  rw [hstart] at hpaid
  exact Nat.le_of_add_left_le hpaid

/-- The VM boots, the vsock probe succeeds at once, and the CA port is not up
within its timeout. -/
def lateBoot : List Label :=
  goodRound ++ [.tick (fromSecs 15)] ++ goodRound ++ goodRound ++ goodRound ++
    [.tick (fromSecs 16)] ++
    round { StartupEnv.works 100 200 with portUp := false }
      (.answers .connected 300)

/-- The boot with a late end takes all four. -/
theorem overdue_calls_bounded_lateBoot :
    ∃ t, after lateBoot = some t ∧
      overdueCallsIn Config.default (init Config.default 0) lateBoot = 4 := by
  obtain ⟨t, hafter, -⟩ :=
    exists_after lateBoot (P := fun _ => True) (by decide)
  exact ⟨t, hafter, Nat.le_antisymm (overdue_calls_bounded hafter) (by decide)⟩

/-! ## Executions -/

section Execution

variable {e : Execution (step cfg)}
  (hwf : ∀ n r, ((e.state n).sys.mgr r).WellFormed)

include hwf

theorem moves_on {i j : ℕ} (hij : i ≤ j) :
    (e.state i).startup.rank < (e.state j).startup.rank ∨
      (e.state j).startup = (e.state i).startup := by
  induction j, hij using Nat.le_induction with
  | base => exact Or.inr rfl
  | succ j _ ih =>
      have hrank := step_rank_le (hwf j) (e.step_eq j)
      rcases ih with hfurther | hsame
      · exact Or.inl (Nat.lt_of_lt_of_le hfurther hrank)
      · rw [← hsame]
        exact step_advances (hwf j) (e.step_eq j)

theorem phase_left (hrunning : ∀ n, (e.state n).pc ≠ .panicked)
    (hruns : KeepsRunning e) (htime : TimePasses e) {i : ℕ}
    (hphase : (e.state i).startup.isFinal = false) :
    ∃ j, i ≤ j ∧ (e.state i).startup.rank < (e.state j).startup.rank := by
  obtain ⟨m, hm⟩ := htime ((e.state i).startup.overdueAt cfg)
  obtain ⟨j, hj, hturn⟩ := hruns (max i m)
  have hl := hturn.resolve_right (hrunning j)
  have hij : i ≤ j := le_trans (le_max_left i m) hj
  rcases moves_on hwf hij with hfurther | hsame
  · exact ⟨j, hij, hfurther⟩
  have hover : (e.state i).startup.overdueAt cfg ≤ (e.state j).kernel.now :=
    le_trans hm (now_mono e (le_trans (le_max_right i m) hj))
  have hcall : overdueCall cfg (e.state j) (e.label j) = true := by
    simp [overdueCall, hl, hsame, hphase, hover]
  rcases step_overdueCall (hwf j) hcall (e.step_eq j) with hless | hpanicked
  · rw [← hsame]
    refine ⟨j + 1, Nat.le_succ_of_le hij, Nat.lt_of_not_le fun hback => ?_⟩
    exact Nat.not_le_of_lt hless (lateCallsLeft_anti hback)
  · exact absurd hpanicked (hrunning (j + 1))

end Execution

/-- After a panic, or in a final phase, the machine does not move any more. -/
theorem step_comesToRest (hs : s.startup.isFinal = true ∨ s.pc = .panicked)
    (hstep : step cfg s l = some t) :
    t.startup = s.startup ∧
      (t.startup.isFinal = true ∨ t.pc = .panicked) := by
  rcases hs with hfinal | hpanicked
  · have hsame := step_isFinal hfinal hstep
    exact ⟨hsame, Or.inl (hsame ▸ hfinal)⟩
  · have hl : l.isStartup = false := Bool.eq_false_iff.mpr fun hcall =>
      not_panicked_of_isStartup hcall hstep hpanicked
    refine ⟨step_startup_eq hl hstep, Or.inr ?_⟩
    exact (step_ended (by rw [hpanicked]; rfl) hstep).1.trans hpanicked

/-- Whatever clients, children, probes and signals do: as long as the main loop
keeps calling `advance_startup` and time goes on, the startup machine comes to
rest, in a final phase if no deadline overflows and panics. -/
theorem startup_settles {e : Execution (step cfg)}
    (hreach : Reachable cfg (e.state 0)) (hruns : KeepsRunning e)
    (htime : TimePasses e) :
    ∃ N, ((e.state N).startup.isFinal = true ∨ (e.state N).pc = .panicked) ∧
      ∀ n, N ≤ n → (e.state n).startup = (e.state N).startup := by
  have hwf : ∀ n r, ((e.state n).sys.mgr r).WellFormed := by
    intro n
    obtain ⟨now, hpath⟩ := hreach
    have hlater : Path (step cfg) (fun _ _ => True) (e.state 0) (e.state n) :=
      e.path (Nat.zero_le n) fun _ _ _ => trivial
    exact reach_wellFormed ⟨now, hpath.trans hlater⟩
  have hrest : ∃ N, (e.state N).startup.isFinal = true ∨
      (e.state N).pc = .panicked := by
    by_cases hpanics : ∃ n, (e.state n).pc = .panicked
    · obtain ⟨n, hn⟩ := hpanics
      exact ⟨n, Or.inr hn⟩
    have hrunning : ∀ n, (e.state n).pc ≠ .panicked :=
      fun n hn => hpanics ⟨n, hn⟩
    obtain ⟨N, -, hfinal⟩ := e.exists_of_rank
      (P := fun s => s.startup.isFinal = true) (fun s => 5 - s.startup.rank)
      (fun i hi => by
        obtain ⟨j, hij, hfurther⟩ := phase_left hwf hrunning hruns htime
          (Bool.eq_false_iff.mpr hi)
        have hend := (e.state j).startup.rank_le
        exact ⟨j, hij, by omega⟩) 0
    exact ⟨N, Or.inl hfinal⟩
  obtain ⟨N, hN⟩ := hrest
  have hstays : ∀ n, N ≤ n → (e.state n).startup = (e.state N).startup ∧
      ((e.state n).startup.isFinal = true ∨ (e.state n).pc = .panicked) := by
    intro n hn
    induction n, hn using Nat.le_induction with
    | base => exact ⟨rfl, hN⟩
    | succ n _ ih =>
        obtain ⟨hsame, hnext⟩ := step_comesToRest ih.2 (e.step_eq n)
        exact ⟨hsame.trans ih.1, hnext⟩
  exact ⟨N, hN, fun n hn => (hstays n hn).1⟩

/-- The boot of the default daemon, and then idle rounds for ever. -/
theorem startup_settles_bootUp :
    ∃ e : Execution (step Config.default),
      e.state 0 = init Config.default 0 ∧
      ∃ N, ((e.state N).startup.isFinal = true ∨
          (e.state N).pc = .panicked) ∧
        ∀ n, N ≤ n → (e.state n).startup = (e.state N).startup := by
  obtain ⟨t, hafter, hpc, hpipe, hfinal⟩ := exists_after bootUp
    (P := fun t => t.pc = .poll ∧ t.kernel.pipe = [] ∧
      t.startup.isFinal = true) (by decide)
  obtain ⟨e, he, -, hruns, htime, -⟩ :=
    exists_idling hafter ⟨hpc, hpipe, hfinal, Nat.zero_le _⟩ (by decide)
  have hreach : Reachable Config.default (e.state 0) := by
    rw [he]
    exact ⟨0, .refl⟩
  exact ⟨e, he, startup_settles hreach hruns htime⟩

end Teeproxyd
