import Teeproxyd.Supervision.Tracking

/-!
# The self-pipe

The signal handler writes one byte for each signal, and the main loop reads at
most 64 of them in an iteration.  The thread that writes is the one that reads,
and the pipe is a blocking one.  So a signal that finds the pipe full stops the
daemon for ever; one that finds room is heard, and in time: what lies before it
in the pipe goes in chunks of 64, one in each iteration.
-/

namespace Teeproxyd

open ProcessTable TransitionSystem

variable {cfg : Config} {s t : Daemon} {l : Label}

/-! ## What a step does to the pipe -/

/-- The byte that the handler writes for the signal the label delivers. -/
def Label.byte : Label → Option Char
  | deliverChld => some 'C'
  | deliverTerm => some 'T'
  | _ => none

/-- How many bytes the label takes from the pipe, at most. -/
def Label.drained : Label → ℕ
  | drain => 64
  | _ => 0

/-- If the label delivers a signal, the pipe has room for its byte. -/
def HasRoom (s : Daemon) (l : Label) : Prop :=
  l.byte.isSome = true → s.kernel.HasPipeRoom

instance : Decidable (HasRoom s l) := inferInstanceAs (Decidable (_ → _))

/-- A signal wakes the thread from `poll`. -/
def Pc.woken : Pc → Pc
  | .polling _ => .accept false
  | pc => pc

theorem signalHandler_eq {byte : Char}
    (hroom : s.kernel.HasPipeRoom) :
    signalHandler s byte =
      { s.withKernel (s.kernel.writePipe byte) with pc := s.pc.woken } := by
  rw [signalHandler, if_pos hroom]
  cases hpc : s.pc <;> rfl

/-- The labels of the environment, but for the handler of a signal, move the
thread nowhere. -/
theorem step_environment (henv : l.isEnvironment = true) (hroom : HasRoom s l)
    (hstep : step cfg s l = some t) :
    t.kernel.pipe = s.kernel.pipe ++ l.byte.toList ∧
      t.pc = if l.byte.isSome then s.pc.woken else s.pc := by
  cases l with
  | tick d =>
      cases hstep
      exact ⟨(List.append_nil _).symm, rfl⟩
  | exit pid =>
      obtain ⟨-, rfl⟩ := step_exit hstep
      exact ⟨(List.append_nil _).symm, rfl⟩
  | crosvmStart parent =>
      simp only [step] at hstep
      split at hstep <;> cases hstep
      exact ⟨(List.append_nil _).symm, rfl⟩
  | crosvmExit i =>
      cases hstep
      exact ⟨(List.append_nil _).symm, rfl⟩
  | others pids =>
      simp only [step] at hstep
      split at hstep <;> cases hstep
      exact ⟨(List.append_nil _).symm, rfl⟩
  | terminate | sigchld =>
      cases hstep
      exact ⟨(List.append_nil _).symm, rfl⟩
  | deliverChld =>
      have hroom : s.kernel.HasPipeRoom := hroom rfl
      simp only [step] at hstep
      split at hstep <;> cases hstep
      rw [signalHandler_eq
        (s := s.withKernel { s.kernel with chldPending := false }) hroom]
      exact ⟨rfl, rfl⟩
  | deliverTerm =>
      have hroom : s.kernel.HasPipeRoom := hroom rfl
      simp only [step] at hstep
      split at hstep <;> cases hstep
      rw [signalHandler_eq
        (s := s.withKernel { s.kernel with termPending := false }) hroom]
      exact ⟨rfl, rfl⟩
  | _ => cases henv

theorem step_pipe (hroom : HasRoom s l) (hstep : step cfg s l = some t) :
    t.kernel.pipe = s.kernel.pipe.drop l.drained ++ l.byte.toList := by
  rcases step_turn hstep with henv | hturn
  · rw [(step_environment henv hroom hstep).1]
    cases l with
    | drain => cases henv
    | _ => rfl
  by_cases hquiet : l.isQuiet = false
  · have hbyte : l.byte = none ∧ l.drained = 0 := by
      cases l with
      | drain => cases hquiet
      | deliverChld => cases hquiet
      | deliverTerm => cases hquiet
      | _ => exact ⟨rfl, rfl⟩
    rw [(step_continues hstep).pipe hquiet, hbyte.1, hbyte.2]
    exact (List.append_nil _).symm
  cases l with
  | drain =>
      obtain ⟨client, -, hkernel, -⟩ := step_drain hstep
      rw [hkernel]
      exact (List.append_nil _).symm
  | poll | wake | accept | hangup =>
      rw [step_move rfl hstep]
      exact (List.append_nil _).symm
  | _ => simp_all [Label.isQuiet, Pc.takes]

/-- Unless it reads a page to its end, a drain makes no room. -/
theorem step_drain_hasPipeRoom (hstep : step cfg s .drain = some t)
    (hpage : s.kernel.pipeOffset + 64 < pageSize)
    (hrest : 64 < s.kernel.pipe.length) :
    t.kernel.HasPipeRoom ↔ s.kernel.HasPipeRoom := by
  obtain ⟨client, -, hkernel, -⟩ := step_drain hstep
  have hkept : s.kernel.pipe.drop 64 ≠ [] := by simpa using hrest
  have hoffset : t.kernel.pipeOffset = s.kernel.pipeOffset + 64 := by
    rw [hkernel, ← Nat.mod_eq_of_lt hpage]
    exact if_neg hkept
  have hlength : t.kernel.pipe.length = s.kernel.pipe.length - 64 := by
    rw [hkernel]
    exact List.length_drop
  unfold Kernel.HasPipeRoom
  rw [hoffset, hlength]
  omega

/-- The thread is neither asleep nor blocked. -/
def Pc.isUp : Pc → Bool
  | polling _ | hung => false
  | _ => true

theorem Pc.up_of_isUp {pc : Pc} (h : pc.isUp = true) :
    pc ≠ .hung ∧ ∀ wakeAt, pc ≠ .polling wakeAt := by
  constructor
  · rintro rfl
    cases h
  · rintro wakeAt rfl
    cases h

/-- Of the thread's own steps, only `poll` goes to sleep, and none blocks. -/
theorem step_thread (hturn : s.pc.takes l = true)
    (hpoll : ∀ listener, l ≠ .poll listener) (hstep : step cfg s l = some t) :
    t.pc ≠ .hung ∧ ∀ wakeAt, t.pc ≠ .polling wakeAt := by
  apply Pc.up_of_isUp
  cases l with
  | poll listener => exact absurd rfl (hpoll listener)
  | wake listener =>
      simp only [step] at hstep
      repeat' split at hstep
      all_goals cases hstep
      rfl
  | drain =>
      obtain ⟨client, -, -, hpc⟩ := step_drain hstep
      rw [hpc]
      unfold afterSignals
      repeat' split
      all_goals rfl
  | waitpid raw env =>
      obtain ⟨term, client, hpc, -, rfl⟩ := step_waitpid hstep
      rw [hpc]
      unfold afterSignals
      repeat' split
      all_goals rfl
  | accept ok =>
      simp only [step] at hstep
      split at hstep <;> cases hstep
      dsimp only
      split <;> rfl
  | request req env written =>
      rcases step_request hstep with ⟨-, ⟨k, -, rfl⟩ | ⟨sys, reply, -, rfl⟩⟩
      · rfl
      · dsimp only
        split <;> rfl
  | hangup =>
      simp only [step] at hstep
      split at hstep <;> cases hstep
      rfl
  | startup env =>
      rcases step_startup hstep with
        ⟨-, ⟨k, r, m, env', -, -, -, rfl⟩ | ⟨phase, sys, -, rfl⟩⟩
      · rfl
      · rfl
  | health env =>
      rcases step_health hstep with
        ⟨-, ⟨-, rfl⟩ | ⟨-, k, -, rfl⟩ | ⟨-, health, sys, -, rfl⟩⟩
      · rfl
      · rfl
      · rfl
  | resetCounts =>
      obtain ⟨-, vm, k, ca, k', -, -, rfl⟩ := step_resetCounts hstep
      rfl
  | shutdown caKill vmKill =>
      rcases step_shutdown_pc hstep with hpc | hpc
      · rw [hpc]
        rfl
      · rw [hpc]
        rfl
  | _ => simp [Pc.takes] at hturn

/-- The handler blocks exactly if it finds the pipe full. -/
theorem step_hung_iff (hs : s.pc ≠ .hung) (hstep : step cfg s l = some t) :
    t.pc ≠ .hung ↔ HasRoom s l := by
  constructor
  · intro hpc hbyte
    by_contra hfull
    apply hpc
    cases l with
    | deliverChld =>
        simp only [step] at hstep
        split at hstep <;> cases hstep
        exact congrArg Daemon.pc (if_neg hfull)
    | deliverTerm =>
        simp only [step] at hstep
        split at hstep <;> cases hstep
        exact congrArg Daemon.pc (if_neg hfull)
    | _ => cases hbyte
  · intro hroom
    rcases step_turn hstep with henv | hturn
    · rw [(step_environment henv hroom hstep).2]
      split
      next =>
        cases hat : s.pc with
        | hung => exact absurd hat hs
        | _ =>
            intro h
            cases h
      next => exact hs
    · by_cases hpoll : ∃ listener, l = .poll listener
      · obtain ⟨listener, rfl⟩ := hpoll
        intro hhung
        obtain ⟨-, -, ⟨-, hpc⟩ | ⟨-, hpc | ⟨wakeAt, hpc⟩⟩⟩ := step_poll hstep
        · cases hpc.symm.trans hhung
        · cases hpc.symm.trans hhung
        · cases hpc.symm.trans hhung
      · have hpoll : ∀ listener, l ≠ .poll listener :=
          fun listener h => hpoll ⟨listener, h⟩
        exact (step_thread hturn hpoll hstep).1

/-! ## The thread is awake -/

/-- The thread is not blocked in the handler, and it sleeps only on an empty
pipe. -/
structure Awake (s : Daemon) : Prop where
  handling : s.pc ≠ .hung
  asleep : ∀ wakeAt, s.pc = .polling wakeAt → s.kernel.pipe = []

theorem step_awake (hroom : HasRoom s l) (hs : Awake s)
    (hstep : step cfg s l = some t) : Awake t := by
  refine ⟨(step_hung_iff hs.handling hstep).mpr hroom, fun wakeAt hat => ?_⟩
  rcases step_turn hstep with henv | hturn
  · obtain ⟨hpipe, hpc⟩ := step_environment henv hroom hstep
    split at hpc
    next =>
      -- whoever was asleep has been woken
      have hwoken : s.pc.woken = .polling wakeAt := hpc.symm.trans hat
      cases hbefore : s.pc <;> rw [hbefore] at hwoken <;> cases hwoken
    next hbyte =>
      have hnone : l.byte = none := Option.not_isSome_iff_eq_none.mp hbyte
      rw [hpipe, hnone, hs.asleep wakeAt (hpc.symm.trans hat)]
      rfl
  · by_cases hpoll : ∃ listener, l = .poll listener
    · obtain ⟨listener, rfl⟩ := hpoll
      obtain ⟨-, hsys, ⟨-, hpc⟩ | ⟨hempty, -⟩⟩ := step_poll hstep
      · cases hpc.symm.trans hat
      · rw [Daemon.kernel, hsys]
        exact hempty
    · have hpoll : ∀ listener, l ≠ .poll listener :=
        fun listener h => hpoll ⟨listener, h⟩
      exact absurd hat ((step_thread hturn hpoll hstep).2 wakeAt)

theorem reach_awake (hreach : Reach cfg HasRoom s) : Awake s := by
  obtain ⟨now, hpath⟩ := hreach
  refine hpath.preserves (I := Awake) (fun u l t => step_awake) ?_
  exact ⟨nofun, fun _ => nofun⟩


/-! ## A byte in the pipe is found in time -/

/-- The label ends an iteration of the main loop. -/
def Label.endsRound : Label → ℕ
  | resetCounts => 1
  | _ => 0

theorem Label.endsRound_of_isEnvironment (henv : l.isEnvironment = true) :
    l.endsRound = 0 := by
  cases l with
  | resetCounts => cases henv
  | _ => rfl

theorem Label.drained_of_ne (hl : l ≠ .drain) : l.drained = 0 := by
  cases l with
  | drain => exact absurd rfl hl
  | _ => rfl

/-- How many iterations of the main loop end in a run. -/
def rounds (ls : List Label) : ℕ := (ls.map Label.endsRound).sum

/-- The pipe is not drained any more in this iteration. -/
def Pc.pastDrain : Pc → ℕ
  | .reap _ _ | .accept _ | .session | .startup | .health | .reset => 1
  | .shutdown => 1
  | _ => 0

/-- The byte is in the pipe, and no more than `n` iterations can end before the
thread reads it. -/
structure Queued (byte : Char) (n : ℕ) (s : Daemon) : Prop where
  awake : ∀ wakeAt, s.pc ≠ .polling wakeAt
  unread : byte ∈ s.kernel.pipe.take (64 * (n - s.pc.pastDrain))

theorem Pc.pastDrain_le (pc : Pc) : pc.pastDrain ≤ 1 := by
  unfold Pc.pastDrain
  split <;> decide

variable {byte : Char} {n : ℕ}

theorem Queued.pos (h : Queued byte n s) : 1 ≤ n := by
  by_contra hzero
  have hempty : 64 * (n - s.pc.pastDrain) = 0 := by omega
  have hunread := h.unread
  rw [hempty] at hunread
  cases hunread

theorem Queued.mem (h : Queued byte n s) : byte ∈ s.kernel.pipe :=
  List.mem_of_mem_take h.unread

theorem queued_of_mem (hs : Awake s) (hmem : byte ∈ s.kernel.pipe)
    (hn : s.kernel.pipe.length + 64 ≤ 64 * n) : Queued byte n s where
  awake wakeAt hat := by
    rw [hs.asleep wakeAt hat] at hmem
    cases hmem
  unread := by
    have hpast := s.pc.pastDrain_le
    rw [List.take_of_length_le (by omega)]
    exact hmem

theorem Pc.pastDrain_of_takes {pc : Pc} (hturn : pc.takes l = true)
    (hawake : ∀ wakeAt, pc ≠ .polling wakeAt)
    (hpoll : ∀ listener, l ≠ .poll listener) (hdrain : l ≠ .drain) :
    pc.pastDrain = 1 := by
  cases pc with
  | poll =>
      cases l with
      | poll listener => exact absurd rfl (hpoll listener)
      | _ => cases hturn
  | drain client =>
      cases l with
      | drain => exact absurd rfl hdrain
      | _ => cases hturn
  | polling wakeAt => exact absurd rfl (hawake wakeAt)
  | exited | panicked | hung => cases hturn
  | _ => rfl

/-- Without a drain the byte keeps its place, and the bound may fall when the
iteration ends. -/
theorem Queued.kept (hs : Queued byte n s) (hroom : HasRoom s l)
    (hstep : step cfg s l = some t) (hdrain : l ≠ .drain)
    (hawake : ∀ wakeAt, t.pc ≠ .polling wakeAt)
    (hpast : t.pc.pastDrain + l.endsRound ≤ s.pc.pastDrain) :
    Queued byte (n - l.endsRound) t := by
  refine ⟨hawake, ?_⟩
  rw [step_pipe hroom hstep, Label.drained_of_ne hdrain, List.drop_zero,
    List.take_append]
  apply List.mem_append_left
  refine List.take_subset_take_left _ ?_ hs.unread
  omega

/-- A drain reads the byte, or takes 64 others that were ahead of it. -/
theorem Queued.drained (hs : Queued byte n s)
    (hstep : step cfg s .drain = some t)
    (hawake : ∀ wakeAt, t.pc ≠ .polling wakeAt) :
    byte ∈ s.kernel.pipe.take 64 ∨ Queued byte n t := by
  by_cases hfound : byte ∈ s.kernel.pipe.take 64
  · exact Or.inl hfound
  right
  refine ⟨hawake, ?_⟩
  obtain ⟨client, hat, hkernel, -⟩ := step_drain hstep
  have hunread := hs.unread
  have hpos := hs.pos
  have hsplit : 64 * (n - s.pc.pastDrain) = 64 + 64 * (n - 1) := by
    rw [hat]
    change 64 * (n - 0) = _
    omega
  rw [hsplit, List.take_add, List.mem_append] at hunread
  rw [hkernel]
  refine List.take_subset_take_left _ ?_ (hunread.resolve_left hfound)
  have hpast := t.pc.pastDrain_le
  omega

/-- In one step the byte is read, or it comes nearer to the head of the pipe
with every iteration that ends. -/
theorem step_queued (hroom : HasRoom s l) (hs : Queued byte n s)
    (hstep : step cfg s l = some t) :
    (l = .drain ∧ byte ∈ s.kernel.pipe.take 64) ∨
      Queued byte (n - l.endsRound) t := by
  rcases step_turn hstep with henv | hturn
  · right
    have hsame : t.pc = s.pc := by
      obtain ⟨-, hpc⟩ := step_environment henv hroom hstep
      have hwoken : s.pc.woken = s.pc := by
        cases hat : s.pc with
        | polling wakeAt => exact absurd hat (hs.awake wakeAt)
        | _ => rfl
      rw [hwoken, ite_self] at hpc
      exact hpc
    have hdrain : l ≠ .drain := by
      rintro rfl
      cases henv
    apply hs.kept hroom hstep hdrain
    · rw [hsame]
      exact hs.awake
    · rw [hsame, Label.endsRound_of_isEnvironment henv]
      exact Nat.le_refl _
  by_cases hpoll : ∃ listener, l = .poll listener
  · right
    obtain ⟨listener, rfl⟩ := hpoll
    obtain ⟨hat, -, ⟨-, hpc⟩ | ⟨hempty, -⟩⟩ := step_poll hstep
    · apply hs.kept hroom hstep Label.noConfusion
      · intro wakeAt hpolling
        cases hpc.symm.trans hpolling
      · rw [hpc, hat]
        exact Nat.le_refl _
    · have hmem := hs.mem
      rw [hempty] at hmem
      cases hmem
  have hpoll : ∀ listener, l ≠ .poll listener :=
    fun listener h => hpoll ⟨listener, h⟩
  have hawake := (step_thread hturn hpoll hstep).2
  by_cases hdrain : l = .drain
  · subst hdrain
    exact (hs.drained hstep hawake).imp (And.intro rfl) id
  · right
    apply hs.kept hroom hstep hdrain hawake
    have hbefore := Pc.pastDrain_of_takes hturn hs.awake hpoll hdrain
    have hpast := t.pc.pastDrain_le
    rw [hbefore]
    cases l with
    | resetCounts =>
        obtain ⟨-, vm, k, ca, k', -, -, rfl⟩ := step_resetCounts hstep
        exact Nat.le_refl _
    | _ => exact hpast

/-! ## A shutdown request -/

/-- A drain has found a `T`, or the program has ended. -/
def Pc.leavesLoop : Pc → Bool
  | .reap true _ | .shutdown | .exited | .panicked => true
  | _ => false

theorem step_leavesLoop (hroom : HasRoom s l) (hs : s.pc.leavesLoop = true)
    (hstep : step cfg s l = some t) :
    t.pc.leavesLoop = true ∧ l.endsRound = 0 := by
  rcases step_turn hstep with henv | hturn
  · refine ⟨?_, Label.endsRound_of_isEnvironment henv⟩
    rw [(step_environment henv hroom hstep).2]
    split
    next =>
      cases hat : s.pc with
      | polling wakeAt =>
          rw [hat] at hs
          cases hs
      | _ =>
          rw [hat] at hs
          exact hs
    next => exact hs
  cases hat : s.pc with
  | reap term client =>
      rw [hat] at hs hturn
      have hterm : term = true := by
        cases term with
        | true => rfl
        | false => cases hs
      subst hterm
      cases l with
      | waitpid raw env =>
          obtain ⟨term, client, hreap, -, rfl⟩ := step_waitpid hstep
          cases hat.symm.trans hreap
          refine ⟨?_, rfl⟩
          dsimp only
          rw [hat]
          split <;> rfl
      | _ => cases hturn
  | shutdown =>
      rw [hat] at hturn
      cases l with
      | shutdown caKill vmKill =>
          refine ⟨?_, rfl⟩
          rcases step_shutdown_pc hstep with hpc | hpc
          · rw [hpc]
            rfl
          · rw [hpc]
            rfl
      | _ => cases hturn
  | exited | panicked =>
      rw [hat] at hturn
      cases hturn
  | _ =>
      rw [hat] at hs
      cases hs

/-- A `T` has been read, or will be in no more than `n` iterations. -/
def TermHeard (n : ℕ) (s : Daemon) : Prop :=
  (s.pc.leavesLoop = true ∧ 1 ≤ n) ∨ Queued 'T' n s

theorem step_termHeard (hroom : HasRoom s l) (hs : TermHeard n s)
    (hstep : step cfg s l = some t) : TermHeard (n - l.endsRound) t := by
  rcases hs with ⟨hleaves, hn⟩ | hqueued
  · obtain ⟨hleft, hends⟩ := step_leavesLoop hroom hleaves hstep
    rw [hends]
    exact Or.inl ⟨hleft, hn⟩
  rcases step_queued hroom hqueued hstep with ⟨rfl, hfound⟩ | hnext
  · left
    obtain ⟨client, -, -, hpc⟩ := step_drain hstep
    have hterm : (s.kernel.pipe.take 64).contains 'T' = true :=
      List.contains_iff_mem.mpr hfound
    refine ⟨?_, hqueued.pos⟩
    rw [hpc, hterm]
    split <;> rfl
  · exact Or.inr hnext

/-- The self-pipe in a run: no handler blocks exactly if every signal finds room
for its byte.  In such runs, from the delivery of a SIGTERM or SIGINT on, the
byte stays in the pipe until a drain finds it and the loop is left, and no more
iterations end before that than it takes to drain what is in the pipe. -/
theorem signals_handled {now : Instant} {ls : List Label}
    (hrun : exec (step cfg) (init cfg now) ls = some s) :
    (Throughout (step cfg) (fun u => u.pc ≠ .hung) (init cfg now) ls ↔
      Along (step cfg) HasRoom (init cfg now) ls) ∧
    (Along (step cfg) HasRoom (init cfg now) ls →
      ∀ ms t u, HasRoom s .deliverTerm → step cfg s .deliverTerm = some t →
        Along (step cfg) HasRoom t ms → exec (step cfg) t ms = some u →
          (u.pc.leavesLoop = true ∨ 'T' ∈ u.kernel.pipe) ∧
          64 * rounds ms < t.kernel.pipe.length + 64) := by
  constructor
  · refine throughout_iff_along (I := fun _ => True) (A := fun _ _ => True)
      (fun _ _ _ _ _ _ => trivial) ?_ trivial nofun
      (.of_forall (fun _ _ => trivial) _ _) hrun
    intro u l v _ _ hu hstep
    exact step_hung_iff hu hstep
  · intro hrooms ms t u hroom hstep halong hend
    have hs : Awake s := reach_awake ⟨now, path_of_exec hrun hrooms⟩
    have ht : Awake t := step_awake hroom hs hstep
    have hmem : 'T' ∈ t.kernel.pipe := by
      rw [step_pipe hroom hstep]
      exact List.mem_append_right _ (List.mem_singleton_self _)
    -- the number of iterations that it takes to drain the pipe
    let n := (t.kernel.pipe.length + 63) / 64 + 1
    have hn : t.kernel.pipe.length + 64 ≤ 64 * n := by omega
    have hheard : TermHeard (n - rounds ms) u :=
      halong.countdown (I := TermHeard)
        (fun _ _ _ _ hroom hs hstep => step_termHeard hroom hs hstep) hend
        (Or.inr (queued_of_mem ht hmem hn))
    have hpos : 1 ≤ n - rounds ms := by
      rcases hheard with ⟨-, hpos⟩ | hqueued
      · exact hpos
      · exact hqueued.pos
    constructor
    · exact hheard.imp And.left Queued.mem
    · omega


/-- SIGTERM on a booted daemon. -/
theorem signals_handled_bootUp :
    ∃ s t u, after (bootUp ++ [.terminate]) = some s ∧
      Throughout (step Config.default) (fun u => u.pc ≠ .hung)
        (init Config.default 0) (bootUp ++ [.terminate]) ∧
      step Config.default s .deliverTerm = some t ∧
      exec (step Config.default) t [.poll .incoming, .drain] = some u ∧
      (u.pc.leavesLoop = true ∨ 'T' ∈ u.kernel.pipe) := by
  obtain ⟨s, hafter, hroom, hrun⟩ := exists_after (bootUp ++ [.terminate])
    (P := fun s => HasRoom s .deliverTerm ∧
      (step Config.default s .deliverTerm).any (fun t =>
        (exec (step Config.default) t [.poll .incoming, .drain]).any fun _ =>
          Along (step Config.default) HasRoom t [.poll .incoming, .drain]) =
        true) (by decide)
  obtain ⟨t, hstep, hrun⟩ := (Option.any_eq_true _ _).mp hrun
  obtain ⟨u, hu, halong⟩ := (Option.any_eq_true _ _).mp hrun
  obtain ⟨hblocks, hheard⟩ := signals_handled hafter
  have hrooms : Along (step Config.default) HasRoom (init Config.default 0)
      (bootUp ++ [.terminate]) := by decide
  exact ⟨s, t, u, hafter, hblocks.mpr hrooms, hstep, hu,
    (hheard hrooms _ t u hroom hstep (of_decide_eq_true halong) hu).1⟩

/-- A client is connected, these bytes are in the pipe, and a SIGTERM may be
about to be delivered. -/
def besieged (pipe : List Char) (termPending : Bool) : Daemon :=
  let s := init Config.default 0
  { s.withKernel { s.kernel with pipe := pipe, termPending := termPending } with
    pc := .session }

theorem step_besieged (pipe : List Char) :
    step Config.default (besieged pipe true) .deliverTerm =
      some (signalHandler (besieged pipe false) 'T') := by
  simp only [step]
  exact if_pos ⟨rfl, rfl⟩

theorem besieged_hasPipeRoom_iff {k : ℕ} {termPending : Bool} :
    (besieged (List.replicate k 'T') termPending).kernel.HasPipeRoom ↔
      k < pipeCapacity := by
  change 0 + (List.replicate k 'T').length < pipeCapacity ↔ _
  rw [List.length_replicate, Nat.zero_add]

theorem reachable_besieged (k : ℕ) (hk : k ≤ pipeCapacity) :
    Reachable Config.default (besieged (List.replicate k 'T') true) := by
  induction k with
  | zero =>
      have hrun : exec (step Config.default) (init Config.default 0)
          [.poll .incoming, .accept true, .terminate] =
            some (besieged (List.replicate 0 'T') true) := rfl
      exact ⟨0, path_of_exec hrun (.of_forall (fun _ _ => trivial) _ _)⟩
  | succ k ih =>
      obtain ⟨now, hpath⟩ := ih (Nat.le_of_succ_le hk)
      have hroom : (besieged (List.replicate k 'T') false).kernel.HasPipeRoom :=
        besieged_hasPipeRoom_iff.mpr (Nat.lt_of_succ_le hk)
      have hwritten :
          step Config.default (besieged (List.replicate k 'T') true)
            .deliverTerm =
              some (besieged (List.replicate (k + 1) 'T') false) := by
        rw [step_besieged, signalHandler_eq hroom, List.replicate_succ']
        rfl
      exact ⟨now, (hpath.tail ⟨.deliverTerm, trivial, hwritten⟩).tail
        ⟨.terminate, trivial, rfl⟩⟩

/-- The signal that finds 65536 unread bytes in the pipe blocks the daemon for
ever. -/
theorem handler_blocks :
    ∃ s t, Reachable Config.default s ∧ s.pc = .session ∧
      step Config.default s .deliverTerm = some t ∧ t.pc = .hung ∧
      ∀ ls u, exec (step Config.default) t ls = some u → u.pc = .hung := by
  let pipe := List.replicate pipeCapacity 'T'
  have hfull : ¬ (besieged pipe false).kernel.HasPipeRoom :=
    mt besieged_hasPipeRoom_iff.mp (Nat.lt_irrefl _)
  have hblocked : (signalHandler (besieged pipe false) 'T').pc = .hung :=
    congrArg Daemon.pc (if_neg hfull)
  refine ⟨_, _, reachable_besieged _ (Nat.le_refl _), rfl, step_besieged _,
    hblocked, ?_⟩
  intro ls u hrun
  have hstays : ∀ v l w, v.pc = .hung → step Config.default v l = some w →
      w.pc = .hung := by
    intro v l w hv hstep
    rw [(step_ended (by rw [hv]; rfl) hstep).1]
    exact hv
  exact Path.preserves (I := fun v => v.pc = .hung)
    (fun v l w _ hv hstep => hstays v l w hv hstep)
    (reachable_of_exec hrun) hblocked

end Teeproxyd
