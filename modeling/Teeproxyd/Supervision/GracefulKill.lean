import Teeproxyd.Supervision.Tracking

/-!
# What `graceful_kill` says of a child

The polling loop asks `kill(pid, 0)` whether the process is still there.  A child
of the daemon stays there as a zombie until it is reaped, which the daemon does
not do while it polls.  So the loop always runs to the first poll that comes
after the deadline, SIGKILL is always sent, and the answer is always `false`.
-/

namespace Teeproxyd

open ProcessTable TransitionSystem

variable {k k' k'' : Kernel} {pid : Pid} {deadline : Instant} {env : KillEnv}
  {graceSecs : UInt64} {n : ℕ}

/-! ## The polls -/

/-- The first poll that is not before the deadline, of the next `n`: each comes
200 ms after the one before, and by how much that sleep overruns. -/
def pollsUntil (deadline : Instant) (lag : Instant → ℕ) :
    ℕ → Instant → Instant
  | 0, now => now
  | n + 1, now =>
      if now < deadline then
        pollsUntil deadline lag n (now + (fromMillis 200 + lag now))
      else now

/-- The first poll that is not before the deadline. -/
def lastPoll (now deadline : Instant) (lag : Instant → ℕ) : Instant :=
  pollsUntil deadline lag (pollBound now deadline) now

theorem deadline_le_pollsUntil {lag : Instant → ℕ} {now : Instant}
    (hn : deadline ≤ now + fromMillis 200 * n) :
    deadline ≤ pollsUntil deadline lag n now := by
  induction n generalizing now with
  | zero => exact hn
  | succ n ih =>
      unfold pollsUntil
      split
      next =>
        refine ih (Nat.le_trans hn ?_)
        rw [Nat.mul_succ]
        omega
      next hlate => exact Nat.le_of_not_lt hlate

/-- The bound on the iterations is never what ends the loop. -/
theorem deadline_le_lastPoll (now deadline : Instant) (lag : Instant → ℕ) :
    deadline ≤ lastPoll now deadline lag := by
  refine deadline_le_pollsUntil ?_
  have hpos : 0 < fromMillis 200 := by decide
  have hlt : deadline - now < fromMillis 200 * pollBound now deadline :=
    Nat.lt_mul_div_succ (deadline - now) hpos
  exact Nat.sub_le_iff_le_add'.mp (Nat.le_of_lt hlt)

/-! ## A child while it is waited for -/

/-- When SIGKILL was sent to the pid, newest first. -/
def sigkillsIn (log : List (Instant × Event)) (pid : Pid) : List Instant :=
  log.filterMap fun
    | (t, .signalled p .sigkill _) => if p = pid then some t else none
    | _ => none

theorem sigkillsIn_append (log log' : List (Instant × Event)) (pid : Pid) :
    sigkillsIn (log ++ log') pid = sigkillsIn log pid ++ sigkillsIn log' pid :=
  List.filterMap_append

/-- From `k` to `k'` the daemon reaps and spawns nobody, and sends SIGKILL to
`pid` at these times, newest first. -/
structure Handles (pid : Pid) (k k' : Kernel) (kills : List Instant) : Prop where
  pids : k'.table.pids = k.table.pids
  log : ∃ log, k'.log = log ++ k.log ∧ sigkillsIn log pid = kills

namespace Handles

variable {kills kills' : List Instant}

theorem refl (pid : Pid) (k : Kernel) : Handles pid k k [] := ⟨rfl, [], rfl, rfl⟩

theorem trans (h : Handles pid k k' kills) (h' : Handles pid k' k'' kills') :
    Handles pid k k'' (kills' ++ kills) := by
  obtain ⟨log, hlog, hkills⟩ := h.log
  obtain ⟨log', hlog', hkills'⟩ := h'.log
  refine ⟨h'.pids.trans h.pids, log' ++ log, ?_, ?_⟩
  · rw [hlog', hlog, List.append_assoc]
  · rw [sigkillsIn_append, hkills, hkills']

theorem exitProc (k : Kernel) (pid : Pid) : Handles pid k (k.exitProc pid) [] :=
  ⟨Table.pids_exit _, [(k.now, .exited pid)], rfl, rfl⟩

theorem sleep (k : Kernel) (d : ℕ) (pid : Pid) (env : KillEnv) :
    Handles pid k (sleep k d pid env) [] := by
  have hlater : Handles pid k (k.advance (d + env.lag k.now)) [] :=
    ⟨rfl, [], rfl, rfl⟩
  simp only [Teeproxyd.sleep]
  split
  next => exact hlater.trans (.exitProc _ pid)
  next => exact hlater

theorem sigterm (k : Kernel) (pid : Pid) :
    Handles pid k (k.kill pid .sigterm) [] :=
  ⟨rfl, [(k.now, .signalled pid .sigterm (k.childOf pid))], rfl, rfl⟩

/-- SIGKILL ends a child that still runs, and leaves it a zombie. -/
theorem sigkill (k : Kernel) (pid : Pid) :
    Handles pid k (k.kill pid .sigkill) [k.now] := by
  have hsent : Handles pid k
      (k.emit (.signalled pid .sigkill (k.childOf pid))) [k.now] :=
    ⟨rfl, [(k.now, .signalled pid .sigkill (k.childOf pid))], rfl,
      by simp [sigkillsIn]⟩
  simp only [Kernel.kill]
  split
  next => exact hsent.trans (.exitProc _ pid)
  next => exact hsent

end Handles

theorem kill_now (k : Kernel) (pid : Pid) (sig : Signal) :
    (k.kill pid sig).now = k.now := by
  cases sig with
  | sigterm => rfl
  | sigkill =>
      simp only [Kernel.kill]
      split <;> rfl

theorem sleep_now (k : Kernel) (d : ℕ) (pid : Pid) (env : KillEnv) :
    (sleep k d pid env).now = k.now + (d + env.lag k.now) := by
  simp only [sleep]
  split <;> rfl

theorem isAlive_of_mem (hchild : pid ∈ k.table.pids) : isAlive k pid = true := by
  simp [isAlive, hchild]

/-- The loop waits for a child as long as it may. -/
theorem gracefulPoll_child (deadline : Instant) (env : KillEnv) (n : ℕ)
    (hchild : pid ∈ k.table.pids) :
    ∃ k', gracefulPoll pid deadline env n k = (k', false) ∧
      k'.now = pollsUntil deadline env.lag n k.now ∧ Handles pid k k' [] := by
  induction n generalizing k with
  | zero => exact ⟨k, rfl, rfl, .refl pid k⟩
  | succ n ih =>
      by_cases hearly : k.now < deadline
      · have hslept : Handles pid k (sleep k (fromMillis 200) pid env) [] :=
          .sleep k _ pid env
        obtain ⟨k', hpoll, hnow, hhandles⟩ := ih (hslept.pids ▸ hchild)
        refine ⟨k', ?_, ?_, hslept.trans hhandles⟩
        · simp [gracefulPoll, hearly, isAlive_of_mem hchild, hpoll]
        · rw [hnow, sleep_now, pollsUntil, if_pos hearly]
      · refine ⟨k, ?_, ?_, .refl pid k⟩
        · simp [gracefulPoll, hearly]
        · rw [pollsUntil, if_neg hearly]

/-! ## The whole call -/

/-- A call for a child ends after the first poll that is not before the
deadline; SIGKILL is sent then, and the answer is `false`. -/
theorem gracefulKill_child (env : KillEnv) (hchild : pid ∈ k.table.pids)
    (hfits : k.now.plus (fromSecs graceSecs) = some deadline) :
    ∃ k', gracefulKill k pid graceSecs env = .ok (k', false) ∧
      k'.now = lastPoll k.now deadline env.lag +
        (fromMillis 100 + env.lag (lastPoll k.now deadline env.lag)) ∧
      Handles pid k k' [lastPoll k.now deadline env.lag] := by
  have hterm : Handles pid k (k.kill pid .sigterm) [] := .sigterm k pid
  have hheld : pid ∈ (k.kill pid .sigterm).table.pids := hchild
  obtain ⟨k₂, hpoll, hnow, hpolled⟩ := gracefulPoll_child deadline env
    (pollBound k.now deadline) hheld
  have hnow : k₂.now = lastPoll k.now deadline env.lag := hnow
  have hkilled : Handles pid k₂ (k₂.kill pid .sigkill) [k₂.now] :=
    .sigkill k₂ pid
  let k' := sleep (k₂.kill pid .sigkill) (fromMillis 100) pid env
  have hall : Handles pid k k' [k₂.now] :=
    hterm.trans (hpolled.trans (hkilled.trans (.sleep _ _ pid env)))
  refine ⟨k', ?_, ?_, hnow ▸ hall⟩
  · have halive : isAlive k' pid = true :=
      isAlive_of_mem (hall.pids ▸ hchild)
    have hdeadline : (k.kill pid .sigterm).now.plus (fromSecs graceSecs) =
      some deadline := hfits
    simp only [gracefulKill, isAlive_of_mem hchild, hdeadline]
    change Except.ok (awaitDeadline (k.kill pid .sigterm) pid deadline env) = _
    unfold awaitDeadline
    have hpoll : gracefulPoll pid deadline env
        (pollBound (k.kill pid .sigterm).now deadline) (k.kill pid .sigterm) =
          (k₂, false) := hpoll
    rw [hpoll]
    change Except.ok (k', !isAlive k' pid) = _
    rw [halive]
    rfl
  · rw [sleep_now, kill_now, hnow]

/-! ## When the answer is right -/

/-- When the process ends after SIGTERM, if it does by itself: at once if it is
a zombie already. -/
def exitTime (k : Kernel) (pid : Pid) (env : KillEnv) : Option Instant :=
  if k.table.isAlive pid then env.exitAt.map (max k.now) else some k.now

def ExitsBy (k : Kernel) (pid : Pid) (env : KillEnv) (deadline : Instant) :
    Prop :=
  ∃ e, exitTime k pid env = some e ∧ e ≤ deadline

/-- What the log gained from `k` to `k'`. -/
def Kernel.logSince (k k' : Kernel) : List (Instant × Event) :=
  k'.log.take (k'.log.length - k.log.length)

theorem Handles.logSince {kills : List Instant} (h : Handles pid k k' kills) :
    sigkillsIn (k.logSince k') pid = kills := by
  obtain ⟨log, hlog, hkills⟩ := h.log
  simp [Kernel.logSince, hlog, hkills]

/-- `graceful_kill` returns, and it returns `true` exactly if the process ended
within the grace period; it returns no later than a polling step, which may
overrun, after the process ended by itself or by SIGKILL; and it sends SIGKILL
only to a process that has not ended by the deadline. -/
def KeepsWord (k : Kernel) (pid : Pid) (graceSecs : UInt64) (env : KillEnv) :
    Prop :=
  ∃ deadline k' gone,
    k.now.plus (fromSecs graceSecs) = some deadline ∧
    gracefulKill k pid graceSecs env = .ok (k', gone) ∧
    (gone = true ↔ ExitsBy k pid env deadline) ∧
    (∀ e, exitTime k pid env = some e ∨
        e ∈ sigkillsIn (k.logSince k') pid →
      k'.now ≤ e +
        (fromMillis 200 + env.lag (lastPoll k.now deadline env.lag))) ∧
    (sigkillsIn (k.logSince k') pid ≠ [] → ¬ ExitsBy k pid env deadline)

theorem inTime_iff {last e d lag : ℕ} :
    last + (d + lag) ≤ e + (d + d + lag) ↔ last ≤ e + d := by
  omega

/-- For a child, `graceful_kill` does what it says exactly if the deadline is a
time of the clock, and the child does not end by itself until then, and not
more than 100 ms before the first poll from then on. -/
theorem graceful_kill_keepsWord_iff (hchild : pid ∈ k.table.pids) :
    KeepsWord k pid graceSecs env ↔
      ∃ deadline, k.now.plus (fromSecs graceSecs) = some deadline ∧
        ∀ e, exitTime k pid env = some e → deadline < e ∧
          lastPoll k.now deadline env.lag ≤ e + fromMillis 100 := by
  have hstep : fromMillis 200 = fromMillis 100 + fromMillis 100 := rfl
  constructor
  · rintro ⟨deadline, k', gone, hfits, hkill, hgone, htimely, -⟩
    obtain ⟨k'', hkill', hnow, -⟩ := gracefulKill_child env hchild hfits
    obtain ⟨rfl, rfl⟩ := Prod.mk.inj (Except.ok.inj (hkill'.symm.trans hkill))
    refine ⟨deadline, hfits, ?_⟩
    intro e he
    constructor
    · by_contra hearly
      have htrue : false = true := hgone.mpr ⟨e, he, Nat.le_of_not_lt hearly⟩
      cases htrue
    · have hle := htimely e (Or.inl he)
      rw [hnow, hstep] at hle
      exact inTime_iff.mp hle
  · rintro ⟨deadline, hfits, hlate⟩
    obtain ⟨k', hkill, hnow, hhandles⟩ := gracefulKill_child env hchild hfits
    have hnever : ¬ ExitsBy k pid env deadline := by
      rintro ⟨e, he, hearly⟩
      exact Nat.not_lt.mpr hearly (hlate e he).1
    refine ⟨deadline, k', false, hfits, hkill, ?_, ?_, fun _ => hnever⟩
    · exact iff_of_false Bool.false_ne_true hnever
    · intro e he
      rw [hhandles.logSince, List.mem_singleton] at he
      rw [hnow, hstep]
      refine inTime_iff.mpr ?_
      rcases he with he | rfl
      · exact (hlate e he).2
      · exact Nat.le_add_right _ _

/-- The stopped process does not end by itself. -/
def KillEnv.ignores : KillEnv where
  exitAt := none
  lag _ := 0

/-- CA 200 of the booted daemon does not react to SIGTERM and is killed. -/
theorem graceful_kill_keepsWord_bootUp :
    ∃ s, after bootUp = some s ∧ KeepsWord s.kernel 200 3 .ignores := by
  obtain ⟨s, hafter, hchild, halive, hfits⟩ := exists_after bootUp
    (P := fun s => 200 ∈ s.kernel.table.pids ∧
      s.kernel.table.isAlive 200 = true ∧
      (s.kernel.now.plus (fromSecs 3)).isSome = true) (by decide)
  obtain ⟨deadline, hfits⟩ := Option.isSome_iff_exists.mp hfits
  refine ⟨s, hafter,
    (graceful_kill_keepsWord_iff hchild).mpr ⟨deadline, hfits, ?_⟩⟩
  intro e he
  rw [exitTime, if_pos halive] at he
  cases he

/-- CA 200 of the booted daemon ends at its SIGTERM; `graceful_kill` waits for
three seconds, sends SIGKILL and says that it did not end. -/
theorem graceful_kill_breaks_word :
    ∃ s deadline k', Reachable Config.default s ∧
      200 ∈ s.kernel.table.pids ∧
      exitTime s.kernel 200 .obeys = some s.kernel.now ∧
      s.kernel.now.plus (fromSecs 3) = some deadline ∧
      gracefulKill s.kernel 200 3 .obeys = .ok (k', false) ∧
      k'.now = deadline + fromMillis 100 ∧
      sigkillsIn (s.kernel.logSince k') 200 = [deadline] ∧
      ¬ KeepsWord s.kernel 200 3 .obeys := by
  obtain ⟨s, hafter, hchild, hexit, hrest⟩ := exists_after bootUp
    (P := fun s => 200 ∈ s.kernel.table.pids ∧
      exitTime s.kernel 200 .obeys = some s.kernel.now ∧
      (s.kernel.now.plus (fromSecs 3)).any (fun deadline =>
        lastPoll s.kernel.now deadline KillEnv.obeys.lag = deadline) = true)
    (by decide)
  obtain ⟨deadline, hfits, hlast⟩ := (Option.any_eq_true _ _).mp hrest
  obtain ⟨k', hkill, hnow, hhandles⟩ :=
    gracefulKill_child .obeys hchild hfits
  have hpunctual : KillEnv.obeys.lag deadline = 0 := rfl
  rw [of_decide_eq_true hlast, hpunctual, Nat.add_zero] at hnow
  rw [of_decide_eq_true hlast] at hhandles
  refine ⟨s, deadline, k',
    reach_of_after hafter (.of_forall (fun _ _ => trivial) _ _), hchild,
    hexit, hfits, hkill, hnow, hhandles.logSince, ?_⟩
  rintro ⟨deadline', k'', gone, hfits', hkill', hgone, -⟩
  obtain ⟨-, rfl⟩ := Prod.mk.inj (Except.ok.inj (hkill.symm.trans hkill'))
  refine Bool.false_ne_true (hgone.mpr ⟨s.kernel.now, hexit, ?_⟩)
  unfold Instant.plus at hfits'
  split at hfits' <;> cases hfits'
  exact Nat.le_add_right _ _

end Teeproxyd
