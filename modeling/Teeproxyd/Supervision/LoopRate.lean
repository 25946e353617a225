import Teeproxyd.Supervision.SelfPipe

/-!
# How often the main loop goes round

The loop sleeps for 100 ms at least, unless a signal or the listener wakes it.
A signal is worth two iterations at most, the one it interrupts and the one that
drains its byte, and each report of the listener is worth one.  So the number of
iterations is bounded by the time that a run takes, by the signals it delivers
and by the reports of the listener.

Nothing bounds these in turn.  A helper process raises a signal when it ends, so
each vsock probe makes the next `poll` return at once; a client that waits is
reported until it is accepted; and a socket that nobody listens on is reported
for ever, for a condition that the loop does not look at.
-/

namespace Teeproxyd

open TransitionSystem

variable {cfg : Config} {s t : Daemon} {l : Label}

/-! ## Labels -/

/-- The label enters an iteration of the main loop. -/
def Label.isPoll : Label → Bool
  | poll _ => true
  | _ => false

/-- The listener keeps the thread from sleeping, or wakes it. -/
def Label.isReport : Label → Bool
  | poll listener | wake listener => !listener.isQuiet
  | _ => false

/-- The label delivers a signal. -/
def Label.isSignal (l : Label) : Bool := l.byte.isSome

/-! ## What is paid for -/

/-- The least time that the loop sleeps for. -/
def leastSleep : ℕ := fromMillis 100

/-- What is left of the least sleep, if the thread is asleep. -/
def Pc.unslept (pc : Pc) (now : ℕ) : ℕ :=
  match pc with
  | .polling wakeAt => min leastSleep (wakeAt - now)
  | _ => 0

/-- The unread bytes that have no iteration yet. -/
def Pc.unheard (pc : Pc) (pipe : List Char) : ℕ :=
  match pc with
  | .drain _ => pipe.length - 1
  | _ => pipe.length

/-- The iterations that the unread bytes are worth, less the time that has gone
by or is sure to. -/
def loopBalance (s : Daemon) : ℤ :=
  (leastSleep * s.pc.unheard s.kernel.pipe : ℕ) - (s.kernel.now : ℕ) -
    (s.pc.unslept s.kernel.now : ℕ)

theorem Pc.unslept_le (pc : Pc) (now : ℕ) : pc.unslept now ≤ leastSleep := by
  unfold Pc.unslept
  split
  · exact Nat.min_le_left _ _
  · exact Nat.zero_le _

theorem Pc.unslept_of_awake {pc : Pc} (h : ∀ wakeAt, pc ≠ .polling wakeAt)
    (now : ℕ) : pc.unslept now = 0 := by
  cases pc with
  | polling wakeAt => exact absurd rfl (h wakeAt)
  | _ => rfl

theorem Pc.unheard_le (pc : Pc) (pipe : List Char) :
    pc.unheard pipe ≤ pipe.length := by
  unfold Pc.unheard
  split
  · exact Nat.sub_le _ _
  · exact Nat.le_refl _

theorem Pc.le_unheard (pc : Pc) (pipe : List Char) :
    pipe.length ≤ pc.unheard pipe + 1 := by
  unfold Pc.unheard
  split <;> omega

theorem Pc.unslept_later (pc : Pc) {now now' : ℕ} (h : now ≤ now') :
    now + pc.unslept now ≤ now' + pc.unslept now' := by
  cases pc with
  | polling wakeAt =>
      have hleft : ∀ w : ℕ, now + min leastSleep (w - now) ≤
          now' + min leastSleep (w - now') := by
        intro w
        omega
      exact hleft wakeAt
  | _ => exact h

theorem Pc.unslept_cut (pc : Pc) {now now' : ℕ} (h : now ≤ now') :
    now + pc.unslept now ≤ now' + leastSleep :=
  Nat.add_le_add h (pc.unslept_le now)

theorem leastSleep_le_pollTimeout (cfg : Config) (phase : StartupPhase)
    (lastHealth now : Instant) :
    leastSleep ≤ fromMillis (pollTimeout cfg phase lastHealth now).toNat := by
  have hleast : 100 ≤ (pollTimeout cfg phase lastHealth now).toNat := by
    unfold pollTimeout
    rw [UInt16.toNat_ofNat', Nat.mod_eq_of_lt (by omega)]
    omega
  exact Nat.mul_le_mul_left _ hleast

/-! ## Steps -/

/-- A signal adds one byte at most to what is unheard, whether the handler
returns or blocks. -/
theorem step_unheard_signal (hl : l.isSignal = true)
    (hstep : step cfg s l = some t) :
    t.pc.unheard t.kernel.pipe ≤ s.pc.unheard s.kernel.pipe + 1 := by
  have hhandler : ∀ (u : Daemon) byte, u.pc = s.pc →
      u.kernel.pipe = s.kernel.pipe →
      (signalHandler u byte).pc.unheard (signalHandler u byte).kernel.pipe ≤
        s.pc.unheard s.kernel.pipe + 1 := by
    intro u byte hpc hpipe
    rw [← hpc, ← hpipe]
    by_cases hroom : u.kernel.HasPipeRoom
    · rw [signalHandler_eq hroom]
      have hlength : (u.kernel.pipe ++ [byte]).length =
          u.kernel.pipe.length + 1 := List.length_append
      change u.pc.woken.unheard (u.kernel.pipe ++ [byte]) ≤ _
      cases hat : u.pc with
      | drain client =>
          change (u.kernel.pipe ++ [byte]).length - 1 ≤
            u.kernel.pipe.length - 1 + 1
          omega
      | _ => exact Nat.le_of_eq hlength
    · rw [signalHandler, if_neg hroom]
      exact Pc.le_unheard _ _
  cases l with
  | deliverChld =>
      simp only [step] at hstep
      split at hstep <;> cases hstep
      exact hhandler _ 'C' rfl rfl
  | deliverTerm =>
      simp only [step] at hstep
      split at hstep <;> cases hstep
      exact hhandler _ 'T' rfl rfl
  | _ => cases hl

theorem Label.byte_of_no_signal (hl : l.isSignal = false) : l.byte = none :=
  Option.isNone_iff_eq_none.mp (Option.isSome_eq_false_iff.mp hl)

theorem hasRoom_of_no_signal (hl : l.isSignal = false) : HasRoom s l := by
  intro hsome
  cases hl.symm.trans hsome

/-- An iteration is entered for a byte or a report, or it sleeps. -/
theorem step_poll_pays {listener : Listener}
    (hstep : step cfg s (.poll listener) = some t) :
    s.pc = .poll ∧ t.kernel = s.kernel ∧
      leastSleep * (t.pc.unheard t.kernel.pipe + 1) ≤
        leastSleep * (s.pc.unheard s.kernel.pipe + (!listener.isQuiet).toNat) +
          t.pc.unslept t.kernel.now := by
  simp only [step] at hstep
  split at hstep
  next hpc =>
    refine ⟨hpc, ?_⟩
    rw [hpc]
    split at hstep
    next hbytes =>
      cases hstep
      have hpos := List.length_pos_of_ne_nil hbytes
      have hone : s.kernel.pipe.length - 1 + 1 ≤
          s.kernel.pipe.length + (!listener.isQuiet).toNat := by omega
      exact ⟨rfl, Nat.le_add_right_of_le (Nat.mul_le_mul_left _ hone)⟩
    next =>
      split at hstep
      next hreport =>
        cases hstep
        rw [hreport]
        exact ⟨rfl, Nat.le_add_right _ _⟩
      next hquiet =>
        cases hstep
        refine ⟨rfl, ?_⟩
        have hsleep : leastSleep ≤ fromMillis (pollTimeout cfg s.startup
            s.lastHealth s.kernel.now).toNat :=
          leastSleep_le_pollTimeout cfg s.startup s.lastHealth s.kernel.now
        have hleft : leastSleep = min leastSleep (s.kernel.now +
            fromMillis (pollTimeout cfg s.startup s.lastHealth
              s.kernel.now).toNat - s.kernel.now) := by
          rw [Nat.add_sub_cancel_left, Nat.min_eq_left hsleep]
        rw [Nat.mul_add_one]
        exact Nat.add_le_add (Nat.mul_le_mul_left _ (Nat.le_add_right _ _))
          (Nat.le_of_eq hleft)
  next => cases hstep

/-- A report cuts a sleep short; without one it is slept to its end. -/
theorem step_wake_pays {listener : Listener}
    (hstep : step cfg s (.wake listener) = some t) :
    t.kernel = s.kernel ∧ t.pc = .accept listener.isClient ∧
      s.pc.unheard s.kernel.pipe = s.kernel.pipe.length ∧
      s.pc.unslept s.kernel.now ≤
        leastSleep * (!listener.isQuiet).toNat := by
  simp only [step] at hstep
  split at hstep
  next wakeAt hpc =>
    rw [hpc]
    split at hstep
    next hwakes =>
      cases hstep
      refine ⟨rfl, rfl, rfl, ?_⟩
      rcases hwakes with hreport | hover
      · rw [hreport]
        exact Nat.min_le_left _ _
      · have hnone : wakeAt - s.kernel.now = 0 := Nat.sub_eq_zero_of_le hover
        change min leastSleep (wakeAt - s.kernel.now) ≤ _
        rw [hnone, Nat.min_zero]
        exact Nat.zero_le _
    next => cases hstep
  next => cases hstep

theorem step_unheard_le (hsignal : l.isSignal = false)
    (hpoll : ∀ listener, l ≠ .poll listener)
    (hwake : ∀ listener, l ≠ .wake listener) (hstep : step cfg s l = some t) :
    t.pc.unheard t.kernel.pipe ≤ s.pc.unheard s.kernel.pipe ∧
      s.kernel.now + s.pc.unslept s.kernel.now ≤
        t.kernel.now + t.pc.unslept t.kernel.now := by
  have hroom : HasRoom s l := hasRoom_of_no_signal hsignal
  have hbyte := Label.byte_of_no_signal hsignal
  have hnow := (step_continues hstep).now
  rcases step_turn hstep with henv | hturn
  · obtain ⟨hpipe, hpc⟩ := step_environment henv hroom hstep
    rw [hbyte] at hpipe hpc
    rw [hpipe, hpc, Option.toList_none, List.append_nil]
    exact ⟨Nat.le_refl _, s.pc.unslept_later hnow⟩
  · have hawake : ∀ wakeAt, s.pc ≠ .polling wakeAt := by
      intro wakeAt hat
      rw [hat] at hturn
      cases l with
      | wake listener => exact hwake listener rfl
      | _ => cases hturn
    refine ⟨?_, ?_⟩
    · refine Nat.le_trans (Pc.unheard_le _ _) ?_
      rw [step_pipe hroom hstep, hbyte, Option.toList_none, List.append_nil,
        List.length_drop]
      by_cases hdrain : l = .drain
      · subst hdrain
        obtain ⟨client, hpc, -⟩ := step_drain hstep
        rw [hpc]
        change s.kernel.pipe.length - 64 ≤ s.kernel.pipe.length - 1
        omega
      · refine Nat.le_trans (Nat.sub_le _ _) ?_
        cases hpc : s.pc with
        | drain client =>
            rw [hpc] at hturn
            cases l with
            | drain => exact absurd rfl hdrain
            | _ => cases hturn
        | _ => exact Nat.le_refl _
    · rw [Pc.unslept_of_awake hawake]
      exact Nat.le_add_right_of_le hnow

/-- What an iteration costs is paid by a byte, a report or a sleep, and what the
bytes and the reports pay by their labels. -/
theorem step_pays (hstep : step cfg s l = some t) :
    leastSleep * t.pc.unheard t.kernel.pipe +
        (s.kernel.now + s.pc.unslept s.kernel.now) +
        leastSleep * l.isPoll.toNat ≤
      leastSleep * s.pc.unheard s.kernel.pipe +
        (t.kernel.now + t.pc.unslept t.kernel.now) +
        leastSleep * (2 * l.isSignal.toNat + l.isReport.toNat) := by
  cases hsignal : l.isSignal with
  | true =>
      have hunheard := Nat.mul_le_mul_left leastSleep
        (step_unheard_signal hsignal hstep)
      have hslept := s.pc.unslept_cut (step_continues hstep).now
      have hpoll : l.isPoll = false := by
        cases l with
        | poll listener => cases hsignal
        | _ => rfl
      rw [hpoll]
      simp only [Bool.toNat_true, Bool.toNat_false, Nat.mul_add] at hunheard ⊢
      omega
  | false =>
      cases l with
      | poll listener =>
          obtain ⟨hpc, hkernel, hpays⟩ := step_poll_pays hstep
          rw [hkernel] at hpays ⊢
          have hup : s.pc.unslept s.kernel.now = 0 := by
            rw [hpc]
            rfl
          have hreport : (Label.poll listener).isReport =
              !listener.isQuiet := rfl
          have hpoll : (Label.poll listener).isPoll = true := rfl
          rw [hup, hreport, hpoll]
          simp only [Bool.toNat_true, Bool.toNat_false, Nat.mul_add] at hpays ⊢
          omega
      | wake listener =>
          obtain ⟨hkernel, hpc, hbytes, hpays⟩ := step_wake_pays hstep
          have hreport : (Label.wake listener).isReport =
              !listener.isQuiet := rfl
          have hpoll : (Label.wake listener).isPoll = false := rfl
          have hunheard : t.pc.unheard s.kernel.pipe =
              s.kernel.pipe.length := by
            rw [hpc]
            rfl
          rw [hkernel, hreport, hpoll, hunheard, hbytes]
          simp only [Bool.toNat_false, Nat.mul_add]
          omega
      | _ =>
          obtain ⟨hunheard, hslept⟩ := step_unheard_le hsignal
            (fun listener h => by cases h) (fun listener h => by cases h) hstep
          have hmul := Nat.mul_le_mul_left leastSleep hunheard
          simp only [Label.isPoll, Bool.toNat_false, Nat.mul_zero, Nat.add_zero]
          exact Nat.le_add_right_of_le (Nat.add_le_add hmul hslept)

/-! ## Runs -/

/-- In every run, each iteration but the first has 100 ms of the run's time, or
a report of the listener, or one half of a signal to itself. -/
theorem polls_bounded {now : Instant} {ls : List Label}
    (hrun : exec (step cfg) (init cfg now) ls = some t) :
    leastSleep * ls.countP Label.isPoll ≤
      t.kernel.now - now + leastSleep *
        (1 + 2 * ls.countP Label.isSignal + ls.countP Label.isReport) := by
  have hpaid : loopBalance t + totalCost (step cfg)
      (fun _ l => leastSleep * l.isPoll.toNat) (init cfg now) ls ≤
      loopBalance (init cfg now) + totalCost (step cfg)
        (fun _ l => leastSleep * (2 * l.isSignal.toNat + l.isReport.toNat))
        (init cfg now) ls := by
    refine Along.balance (G := fun _ _ => True) loopBalance ?_
      (.of_forall (fun _ _ => trivial) _ _) hrun
    intro s l t _ hstep
    have hpays := step_pays hstep
    unfold loopBalance
    omega
  rw [totalCost_mul, totalCost_mul, totalCost_add, totalCost_mul,
    totalCost_label _ hrun, totalCost_label _ hrun, totalCost_label _ hrun]
    at hpaid
  have hfirst : loopBalance (init cfg now) = -(now : ℤ) := by
    simp [loopBalance, init, Pc.unheard, Pc.unslept]
  have hlast : -(t.kernel.now : ℤ) - leastSleep ≤ loopBalance t := by
    have hslept := t.pc.unslept_le t.kernel.now
    unfold loopBalance
    omega
  rw [hfirst] at hpaid
  simp only [Nat.mul_add] at hpaid ⊢
  omega

/-- From the accepting of clients to the end of an iteration, with none
there. -/
def quietRest : List Label :=
  [.accept false, .startup (.works 100 200), .health (.answers .connected 300),
    .resetCounts]

/-- A signal interrupts the first sleep; the loop sleeps again when it has
drained the byte. -/
def interruptedSleep : List Label :=
  [.poll .quiet, .sigchld, .deliverChld] ++ quietRest ++
    [.poll .quiet, .drain, .waitpid none (.works 100)] ++ quietRest ++
    [.poll .quiet]

/-- Without auto-start, a signal that comes at once: no time goes by, and the
bound is reached. -/
theorem polls_bounded_interruptedSleep :
    ∃ t, exec (step { Config.default with autoStart := false })
        (init { Config.default with autoStart := false } 0) interruptedSleep =
          some t ∧ t.kernel.now = 0 ∧
      interruptedSleep.countP Label.isPoll = 3 ∧
      leastSleep * interruptedSleep.countP Label.isPoll ≤
        0 + leastSleep * 3 := by
  let cfg : Config := { Config.default with autoStart := false }
  have hrun : (exec (step cfg) (init cfg 0) interruptedSleep).any
      (fun t => t.kernel.now = 0) = true := by decide
  obtain ⟨t, hafter, hnow⟩ := (Option.any_eq_true _ _).mp hrun
  have hnow : t.kernel.now = 0 := of_decide_eq_true hnow
  have hbound := polls_bounded hafter
  rw [hnow] at hbound
  exact ⟨t, hafter, hnow, rfl, hbound⟩

/-- An iteration in which `poll` returns for the listener, with no client. -/
theorem exec_ignoredRound (hauto : cfg.autoStart = false)
    (hinterval : 0 < cfg.healthIntervalSecs) (now : Instant) :
    exec (step cfg) (init cfg now) (.poll .ignored :: quietRest) =
      some (init cfg now) := by
  let standing (pc : Pc) : Daemon := { init cfg now with pc := pc }
  have hpoll : step cfg (standing .poll) (.poll .ignored) =
      some (standing (.accept false)) := rfl
  have haccept : step cfg (standing (.accept false)) (.accept false) =
      some (standing .startup) := rfl
  have hfinal : (standing .startup).startup.isFinal = true := by
    simp [standing, init, hauto, StartupPhase.isFinal]
  have hstartup : step cfg (standing .startup) (.startup (.works 100 200)) =
      some (standing .health) := step_startup_of_isFinal rfl hfinal
  have hhealth : step cfg (standing .health)
      (.health (.answers .connected 300)) = some (standing .reset) := by
    have hpos : ¬ fromSecs cfg.healthIntervalSecs ≤ 0 :=
      Nat.not_le.mpr (Nat.mul_pos (by decide) hinterval)
    have hearly : ¬ healthDue cfg (standing .health) := by
      intro hdue
      exact hpos (Nat.le_trans hdue (Nat.le_of_eq (Nat.sub_self now)))
    exact if_neg hearly
  have hreset : step cfg (standing .reset) .resetCounts =
      some (standing .poll) := rfl
  change exec (step cfg) (standing .poll) _ = some (standing .poll)
  simp [quietRest, exec, hpoll, haccept, hstartup, hhealth, hreset]

/-- A listener that is reported for ever makes the loop spin: any number of
iterations take no time and need no signal. -/
theorem loop_spins (hauto : cfg.autoStart = false)
    (hinterval : 0 < cfg.healthIntervalSecs) (now : Instant) (n : ℕ) :
    ∃ ls, exec (step cfg) (init cfg now) ls = some (init cfg now) ∧
      ls.countP Label.isPoll = n ∧ ls.countP Label.isSignal = 0 := by
  induction n with
  | zero => exact ⟨[], rfl, rfl, rfl⟩
  | succ n ih =>
      obtain ⟨ls, hrun, hpolls, hsignals⟩ := ih
      refine ⟨(.poll .ignored :: quietRest) ++ ls,
        exec_append_eq_some_iff.mpr
          ⟨_, exec_ignoredRound hauto hinterval now, hrun⟩, ?_, ?_⟩
      · rw [List.countP_append, hpolls, Nat.add_comm]
        rfl
      · rw [List.countP_append, hsignals]
        rfl

end Teeproxyd
