import Teeproxyd.Supervision.Stops

/-!
# What `start_all` starts

`handle_start_all` starts the VM and leaves the CA to the startup machine,
whose phase it cannot write.  The machine takes it from there only when it is
itself about to boot the VM: in `VmStarting` or `WaitingVsock`.  In the later
phases it never marks the VM `Ready` again, and in the final ones it does
nothing at all.
-/

namespace Teeproxyd

open TransitionSystem

variable {cfg : Config} {s t : Daemon} {l : Label} {r : Role}

/-! ## The promise -/

/-- The reply has `ok: true`. -/
def Value.isOk (v : Value) : Bool :=
  match v.index "ok" with
  | .bool b => b
  | _ => false

/-- `start_all` is handled in `s` and answered with `ok: true`, and the daemon
goes on from `t`. -/
def StartAllAnswered (cfg : Config) (s t : Daemon) : Prop :=
  ∃ req env written, requestCmd req = .startAll ∧
    (handleStartAll cfg s.sys env).2.isOk = true ∧
    step cfg s (.request req env written) = some t

/-- The environment does its part: no client starts or stops a child, no child
ends, every probe and every spawn succeeds, and the daemon is not told to shut
down. -/
def Label.cooperates : Label → Bool
  | .exit _ => false
  | .request req _ _ => !(requestCmd req).isOperator
  | .waitpid _ env => env.spawn.outcome = .started
  | .startup env =>
      env.vsockUp && env.portUp && env.vmStart.spawn.outcome = .started &&
        env.caStart.spawn.outcome = .started
  | .health env => env.outcome = .connected
  | .shutdown _ _ => false
  | _ => true

/-- The main loop keeps calling `advance_startup`, unless a panic ends it. -/
def KeepsRunning (e : Execution (step cfg)) : Prop :=
  ∀ N, ∃ n, N ≤ n ∧
    ((e.label n).isStartup = true ∨ (e.state n).pc = .panicked)

def TimePasses (e : Execution (step cfg)) : Prop :=
  ∀ time, ∃ n, time ≤ (e.state n).kernel.now

/-- The startup machine marks the VM `Ready`, starts a CA after that, and
then is in `Complete` with the CA `Ready`. -/
def StartsAll (e : Execution (step cfg)) : Prop :=
  ∃ i j k, i < j ∧ j < k ∧
    (marksReady (e.state i) (e.label i) .vm = true ∧
      (e.state (i + 1)).vm.state = .ready) ∧
    ((e.label j).isStartup = true ∧
      ∃ pid, Kernel.spawnsIn (e.state (j + 1)).kernel.log .ca =
        pid :: Kernel.spawnsIn (e.state j).kernel.log .ca) ∧
    (e.state k).startup = .complete ∧ (e.state k).ca.state = .ready

/-! ## What can go wrong -/

/-- The machine has yet to see the VM up. -/
def StartupPhase.isBooting : StartupPhase → Bool
  | vmStarting | waitingVsock _ _ _ => true
  | _ => false

/-- The call of `advance_startup` finds the vsock deadline passed. -/
def misses (s : Daemon) (l : Label) : Bool :=
  match l, s.startup with
  | .startup _, .waitingVsock deadline _ true =>
      decide (deadline < s.kernel.now)
  | _, _ => false

/-- The call fails although the environment does its part: the vsock deadline
has passed, the start is refused by its early checks, or the deadline that is
set after the start does not fit the clock. -/
def FailsAlone (cfg : Config) (s : Daemon) (l : Label) : Prop :=
  misses s l = true ∨
    (l.isStartup = true ∧ ∃ r, (directStart s l r).any (fun env =>
      startOutcome cfg r env = .refused) = true) ∨
    ∃ r, deadlineFits cfg s l r = false

instance : Decidable (FailsAlone cfg s l) :=
  inferInstanceAs (Decidable (_ ∨ _ ∧ _ ∨ _))

/-! ## Calls that fail -/

theorem failsAlone_cases (h : FailsAlone cfg s l) :
    ∃ env, l = .startup env ∧
      ((∃ deadline bootStart,
          s.startup = .waitingVsock deadline bootStart true ∧
            deadline < s.kernel.now) ∨
        ∃ r env', env.call s.startup r = some env' ∧
          (startOutcome cfg r env' = .refused ∨
            (s.kernel.now + env'.spawn.took).plus (s.startup.patience cfg) =
              none)) := by
  rcases h with hlate | ⟨hl, r, hrefused⟩ | ⟨r, hover⟩
  · unfold misses at hlate
    split at hlate
    next env deadline bootStart hphase =>
      exact ⟨env, rfl, Or.inl
        ⟨deadline, bootStart, hphase, of_decide_eq_true hlate⟩⟩
    next => cases hlate
  · cases l with
    | startup env =>
        obtain ⟨env', hcall, hrefused⟩ := (Option.any_eq_true _ _).mp hrefused
        exact ⟨env, rfl, Or.inr
          ⟨r, env', hcall, Or.inl (of_decide_eq_true hrefused)⟩⟩
    | _ => cases hl
  · cases l with
    | startup env =>
        cases hcall : env.call s.startup r with
        | none => simp [deadlineFits, hcall] at hover
        | some env' =>
            refine ⟨env, rfl, Or.inr ⟨r, env', hcall, Or.inr ?_⟩⟩
            simpa [deadlineFits, hcall] using hover
    | _ => cases hover

theorem call_not_isFinal {env : StartupEnv} {phase : StartupPhase}
    {env' : StartEnv} (hcall : env.call phase r = some env') :
    phase.isFinal = false := by
  cases phase <;> first | rfl | cases hcall

theorem FailsAlone.not_isFinal (h : FailsAlone cfg s l) :
    s.startup.isFinal = false := by
  obtain ⟨env, -, ⟨deadline, bootStart, hphase, -⟩ | ⟨r, env', hcall, -⟩⟩ :=
    failsAlone_cases h
  · rw [hphase]
    rfl
  · exact call_not_isFinal hcall

/-- The startup has come to nothing. -/
def Abortive (s : Daemon) : Prop :=
  (∃ reason, s.startup = .failed reason) ∨
    (s.pc = .panicked ∧ s.startup ≠ .complete)

theorem step_failsAlone (hwf : ∀ r, (s.sys.mgr r).WellFormed)
    (hfails : FailsAlone cfg s l) (hstep : step cfg s l = some t) :
    Abortive t := by
  have hvm := (hwf .vm).not_isDead s.kernel
  have hfinal := hfails.not_isFinal
  obtain ⟨env, rfl, hwhy⟩ := failsAlone_cases hfails
  rcases step_startup hstep with
    ⟨-, ⟨k, r, m, env', -, -, -, rfl⟩ | ⟨phase, sys, hadv, rfl⟩⟩
  · refine Or.inr ⟨rfl, fun hcomplete => ?_⟩
    have hcomplete : s.startup = .complete := hcomplete
    simp [hcomplete, StartupPhase.isFinal] at hfinal
  left
  rcases hwhy with ⟨deadline, bootStart, hphase, hlate⟩ | ⟨r, env', hcall, hwhy⟩
  · rw [hphase] at hadv
    cases hadv with
    | vsockTimeout => exact ⟨_, rfl⟩
    | vsockUp hintime => exact absurd hlate (Nat.not_lt_of_le hintime)
    | vsockDown hintime => exact absurd hlate (Nat.not_lt_of_le hintime)
    | vmRestart _ hdead => exact absurd hdead hvm
    | final hfinal => cases hfinal
    | caRestart hwaiting => cases hwaiting
  · rcases start_cases cfg r (s.sys.mgr r) s.kernel env' with
      ⟨-, e, hstart⟩ | ⟨-, e, hstart⟩ | ⟨hstarted, hint, command, hstart⟩
    · exact ⟨e, (hadv.of_call hvm hcall hstart).2.2 e rfl⟩
    · exact ⟨e, (hadv.of_call hvm hcall hstart).2.2 e rfl⟩
    · exfalso
      have hfits := (hadv.of_call hvm hcall hstart).2.1 rfl
      rcases hwhy with hrefused | hover
      · cases hstarted.symm.trans hrefused
      · have hnow : (((s.kernel.advance env'.spawn.took).spawn r hint
            command).1.now).plus (s.startup.patience cfg) = none := hover
        rw [hnow] at hfits
        cases hfits

theorem step_abortive (hs : Abortive s) (hstep : step cfg s l = some t) :
    Abortive t := by
  rcases hs with ⟨reason, hfailed⟩ | ⟨hpc, hcomplete⟩
  · have hsame := step_isFinal (by rw [hfailed]; rfl) hstep
    exact Or.inl ⟨reason, hsame.trans hfailed⟩
  · obtain ⟨hsame, -, hl⟩ := step_ended (by rw [hpc]; rfl) hstep
    refine Or.inr ⟨hsame.trans hpc, ?_⟩
    rw [step_startup_eq ?_ hstep]
    · exact hcomplete
    · rcases hl with hquiet | ⟨pid, rfl⟩
      · cases l <;> first | rfl | cases hquiet
      · rfl

/-- The VM is seen up once: after that the machine does not look again. -/
theorem step_not_isBooting (hwf : ∀ r, (s.sys.mgr r).WellFormed)
    (hphase : s.startup.isBooting = false) (hstep : step cfg s l = some t) :
    t.startup.isBooting = false := by
  cases hl : l.isStartup with
  | false =>
      rw [step_startup_eq hl hstep]
      exact hphase
  | true =>
      cases l with
      | startup env =>
          rcases step_startup hstep with
            ⟨-, ⟨k, r, m, env', -, -, -, rfl⟩ | ⟨phase, sys, hadv, rfl⟩⟩
          · exact hphase
          generalize s.startup = before at hphase hadv
          cases hadv with
          | final => exact hphase
          | vmRestart _ hdead => exact absurd hdead ((hwf .vm).not_isDead _)
          | caRestart _ hdead => exact absurd hdead ((hwf .ca).not_isDead _)
          | caStarted => rfl
          | caNotStarted => rfl
          | portUp => rfl
          | portTimeout => rfl
          | portDown => rfl
          | _ => cases hphase
      | _ => cases hl

/-! ## Calls that work -/

theorem startOutcome_started {env : StartEnv}
    (hspawn : env.spawn.outcome = .started)
    (hfiles : startOutcome cfg r env ≠ .refused) :
    startOutcome cfg r env = .started := by
  cases r with
  | vm =>
      unfold startOutcome at hfiles ⊢
      cases hvalid : VmManager.validateImages cfg env with
      | error e => simp [hvalid] at hfiles
      | ok => simpa using hspawn
  | ca =>
      unfold startOutcome at hfiles ⊢
      dsimp only at hfiles ⊢
      split at hfiles
      next hexists => rw [if_pos hexists, hspawn]
      next => exact absurd rfl hfiles

section Calls

variable {env : StartupEnv} (hwf : ∀ r, (s.sys.mgr r).WellFormed)
  (hcoop : (Label.startup env).cooperates = true)
  (hworks : ¬ FailsAlone cfg s (.startup env))
  (hstep : step cfg s (.startup env) = some t)

include hworks hstep in
theorem step_works :
    ∃ phase sys, Advances cfg s.sys env s.startup phase sys ∧
      t = { s with startup := phase, sys := sys, pc := .health } := by
  rcases step_startup hstep with
    ⟨-, ⟨k, r, m, env', hcall, hstart, hover, -⟩ | hadv⟩
  · exfalso
    apply hworks
    rcases start_cases cfg r (s.sys.mgr r) s.kernel env' with
      ⟨-, e, hstart'⟩ | ⟨-, e, hstart'⟩ | ⟨-, hint, command, hstart'⟩
    · cases hstart'.symm.trans hstart
    · cases hstart'.symm.trans hstart
    · cases hstart'.symm.trans hstart
      have hover : (s.kernel.now + env'.spawn.took).plus
          (s.startup.patience cfg) = none := hover
      refine Or.inr (Or.inr ⟨r, ?_⟩)
      simp [deadlineFits, hcall, hover]
  · exact hadv

include hcoop hworks in
theorem started_of_call {env' : StartEnv}
    (hcall : env.call s.startup r = some env') :
    startOutcome cfg r env' = .started := by
  have hspawn : env'.spawn.outcome = .started := by
    simp only [Label.cooperates, Bool.and_eq_true, decide_eq_true_eq] at hcoop
    generalize s.startup = phase at hcall
    cases phase <;> cases r <;> cases hcall
    · exact hcoop.1.2
    · exact hcoop.2
  apply startOutcome_started hspawn
  intro hrefused
  refine hworks (Or.inr (Or.inl ⟨rfl, r, ?_⟩))
  have hdirect : directStart s (.startup env) r = some env' := hcall
  simp [hdirect, hrefused]

include hwf hworks hstep in
theorem step_bootDelay {deadline bootStart : Instant}
    (hphase : s.startup = .waitingVsock deadline bootStart false) :
    t.startup = .waitingVsock deadline bootStart
      (bootStart.elapsed s.kernel.now ≥ fromSecs cfg.vsockProbeDelaySecs) := by
  obtain ⟨phase, sys, hadv, rfl⟩ := step_works hworks hstep
  rw [hphase] at hadv
  cases hadv with
  | delay => rfl
  | vmRestart _ hdead => exact absurd hdead ((hwf .vm).not_isDead _)
  | final hfinal => cases hfinal
  | caRestart hwaiting => cases hwaiting

include hwf hcoop hworks hstep

theorem step_vmStarting (hphase : s.startup = .vmStarting) :
    ∃ deadline bootStart, t.startup = .waitingVsock deadline bootStart false := by
  have hcall : env.call s.startup .vm = some env.vmStart := by
    rw [hphase]
    rfl
  have hstarted := started_of_call hcoop hworks hcall
  obtain ⟨phase, sys, hadv, rfl⟩ := step_works hworks hstep
  rw [hphase] at hadv
  cases hadv with
  | vmStarted => exact ⟨_, _, rfl⟩
  | vmNotStarted hstart => exact absurd hstarted (start_error hstart).1
  | vmRestart _ hdead => exact absurd hdead ((hwf .vm).not_isDead _)
  | final hfinal => cases hfinal
  | caRestart hwaiting => cases hwaiting

theorem step_vsock {deadline bootStart : Instant}
    (hphase : s.startup = .waitingVsock deadline bootStart true) :
    marksReady s (.startup env) .vm = true ∧ t.vm.state = .ready ∧
      t.startup = .caStarting := by
  have hup : env.vsockUp = true := by
    simp only [Label.cooperates, Bool.and_eq_true] at hcoop
    exact hcoop.1.1.1
  have hintime : s.kernel.now ≤ deadline := by
    by_contra hlate
    apply hworks
    left
    simp [misses, hphase, Nat.lt_of_not_le hlate]
  obtain ⟨phase, sys, hadv, rfl⟩ := step_works hworks hstep
  rw [hphase] at hadv
  cases hadv with
  | vsockUp =>
      refine ⟨marksReady_iff.mpr ⟨env, rfl, Or.inl ?_⟩, rfl, rfl⟩
      exact ⟨rfl, deadline, bootStart, hphase, hintime, hup⟩
  | vsockTimeout hlate => exact absurd hintime (Nat.not_le_of_lt hlate)
  | vsockDown _ hdown => simp [hup] at hdown
  | vmRestart _ hdead => exact absurd hdead ((hwf .vm).not_isDead _)
  | final hfinal => cases hfinal
  | caRestart hwaiting => cases hwaiting

theorem step_caStarting (hphase : s.startup = .caStarting) :
    (∃ deadline, t.startup = .waitingCaPort deadline) ∧
      ∃ pid, Kernel.spawnsIn t.kernel.log .ca =
        pid :: Kernel.spawnsIn s.kernel.log .ca := by
  have hcall : env.call s.startup .ca = some env.caStart := by
    rw [hphase]
    rfl
  have hstarted := started_of_call hcoop hworks hcall
  obtain ⟨phase, sys, hadv, rfl⟩ := step_works hworks hstep
  rw [hphase] at hadv
  cases hadv with
  | caStarted hstart =>
      refine ⟨⟨_, rfl⟩, ?_⟩
      rcases start_cases cfg .ca s.ca s.kernel env.caStart with
        ⟨-, e, hstart'⟩ | ⟨-, e, hstart'⟩ | ⟨-, hint, command, hstart'⟩
      · cases hstart'.symm.trans hstart
      · cases hstart'.symm.trans hstart
      · cases hstart'.symm.trans hstart
        exact ⟨_, rfl⟩
  | caNotStarted hstart => exact absurd hstarted (start_error hstart).1
  | vmRestart _ hdead => exact absurd hdead ((hwf .vm).not_isDead _)
  | final hfinal => cases hfinal
  | caRestart hwaiting => cases hwaiting

theorem step_caPort {deadline : Instant}
    (hphase : s.startup = .waitingCaPort deadline) :
    t.startup = .complete ∧ t.ca.state = .ready := by
  have hup : env.portUp = true := by
    simp only [Label.cooperates, Bool.and_eq_true] at hcoop
    exact hcoop.1.1.2
  obtain ⟨phase, sys, hadv, rfl⟩ := step_works hworks hstep
  rw [hphase] at hadv
  cases hadv with
  | portUp => exact ⟨rfl, rfl⟩
  | portTimeout hdown => simp [hup] at hdown
  | portDown hdown => simp [hup] at hdown
  | vmRestart _ hdead => exact absurd hdead ((hwf .vm).not_isDead _)
  | caRestart _ hdead => exact absurd hdead ((hwf .ca).not_isDead _)
  | final hfinal => cases hfinal

end Calls

theorem step_not_panicked (hcoop : l.cooperates = true)
    (hworks : ¬ FailsAlone cfg s l) (hs : s.pc ≠ .panicked)
    (hstep : step cfg s l = some t) : t.pc ≠ .panicked := by
  intro hpc
  by_cases hquiet : l.isQuiet = true
  · have hsame := step_goesOn (Or.inl hquiet) hstep (Or.inr hpc)
    exact hs (hsame.symm.trans hpc)
  cases l with
  | exit pid => cases hcoop
  | waitpid raw env =>
      obtain ⟨term, client, hat, -, rfl⟩ := step_waitpid hstep
      dsimp only at hpc
      split at hpc
      next => exact hs hpc
      next => exact (afterSignals_cases _ _).2 hpc
  | request req env written =>
      rcases step_request hstep with
        ⟨-, ⟨k, hdispatch, rfl⟩ | ⟨sys, reply, -, rfl⟩⟩
      · have hstops := dispatch_error hdispatch
        simp [Label.cooperates, hstops] at hcoop
      · dsimp only at hpc
        split at hpc <;> cases hpc
  | startup env =>
      obtain ⟨phase, sys, -, rfl⟩ := step_works hworks hstep
      cases hpc
  | health env =>
      have hconnected : env.outcome = .connected := by
        simpa [Label.cooperates] using hcoop
      rcases step_health hstep with
        ⟨-, ⟨-, rfl⟩ | ⟨-, k, hcheck, -⟩ | ⟨-, health, sys, -, rfl⟩⟩
      · cases hpc
      · cases hcheck with
        | stopPanics hup hverdict hstop =>
            rw [hconnected] at hverdict
            cases hverdict
      · cases hpc
  | resetCounts =>
      obtain ⟨-, vm, k, ca, k', -, -, rfl⟩ := step_resetCounts hstep
      cases hpc
  | shutdown caKill vmKill => cases hcoop
  | _ => exact absurd rfl hquiet

/-! ## Executions -/

theorem now_mono (e : Execution (step cfg)) {i j : ℕ} (hij : i ≤ j) :
    (e.state i).kernel.now ≤ (e.state j).kernel.now := by
  induction j, hij using Nat.le_induction with
  | base => exact le_refl _
  | succ j _ ih => exact le_trans ih (step_continues (e.step_eq j)).now

/-- An execution in which the environment does its part, no call fails alone
and the calls do not end. -/
structure Works (e : Execution (step cfg)) : Prop where
  wellFormed : ∀ n r, ((e.state n).sys.mgr r).WellFormed
  cooperates : ∀ n, (e.label n).cooperates = true
  works : ∀ n, ¬ FailsAlone cfg (e.state n) (e.label n)
  calls : ∀ N, ∃ n, N ≤ n ∧ (e.label n).isStartup = true

namespace Works

variable {e : Execution (step cfg)} (hw : Works e)

include hw

theorem exists_call (i : ℕ) :
    ∃ j env, i ≤ j ∧ e.label j = .startup env ∧
      (e.state j).startup = (e.state i).startup := by
  have hkeep : ∀ n, i ≤ n → (e.state n).startup = (e.state i).startup →
      ¬ (e.label n).isStartup = true →
        (e.state (n + 1)).startup = (e.state i).startup := by
    intro n _ hn hl
    exact (step_startup_eq (Bool.eq_false_iff.mpr hl) (e.step_eq n)).trans hn
  obtain ⟨j, hij, hturn, hsame⟩ := e.exists_turn (fun l => l.isStartup = true)
    (P := fun u => u.startup = (e.state i).startup) hw.calls rfl hkeep
  cases hl : e.label j with
  | startup env => exact ⟨j, env, hij, hl, hsame⟩
  | _ =>
      rw [hl] at hturn
      cases hturn

theorem of_label {j : ℕ} {env : StartupEnv} (hl : e.label j = .startup env) :
    (Label.startup env).cooperates = true ∧
      ¬ FailsAlone cfg (e.state j) (.startup env) ∧
      step cfg (e.state j) (.startup env) = some (e.state (j + 1)) := by
  have hcoop := hw.cooperates j
  have hworks := hw.works j
  have hstep := e.step_eq j
  rw [hl] at hcoop hworks hstep
  exact ⟨hcoop, hworks, hstep⟩

theorem from_caPort {i : ℕ} {deadline : Instant}
    (hphase : (e.state i).startup = .waitingCaPort deadline) :
    ∃ k, i < k ∧ (e.state k).startup = .complete ∧
      (e.state k).ca.state = .ready := by
  obtain ⟨j, env, hij, hl, hsame⟩ := hw.exists_call i
  obtain ⟨hcoop, hworks, hstep⟩ := hw.of_label hl
  have hready := step_caPort (hw.wellFormed j) hcoop hworks hstep
    (hsame.trans hphase)
  exact ⟨j + 1, Nat.lt_succ_of_le hij, hready⟩

theorem from_caStarting {i : ℕ} (hphase : (e.state i).startup = .caStarting) :
    ∃ j k, i ≤ j ∧ j < k ∧
      ((e.label j).isStartup = true ∧
        ∃ pid, Kernel.spawnsIn (e.state (j + 1)).kernel.log .ca =
          pid :: Kernel.spawnsIn (e.state j).kernel.log .ca) ∧
      (e.state k).startup = .complete ∧ (e.state k).ca.state = .ready := by
  obtain ⟨j, env, hij, hl, hsame⟩ := hw.exists_call i
  obtain ⟨hcoop, hworks, hstep⟩ := hw.of_label hl
  obtain ⟨⟨deadline, hnext⟩, hspawns⟩ := step_caStarting (hw.wellFormed j) hcoop
    hworks hstep (hsame.trans hphase)
  obtain ⟨k, hjk, hend⟩ := hw.from_caPort hnext
  refine ⟨j, k, hij, Nat.lt_of_succ_lt hjk, ⟨?_, hspawns⟩, hend⟩
  rw [hl]
  rfl

theorem from_vsock {i : ℕ} {deadline bootStart : Instant}
    (hphase : (e.state i).startup = .waitingVsock deadline bootStart true) :
    StartsAll e := by
  obtain ⟨j, env, -, hl, hsame⟩ := hw.exists_call i
  obtain ⟨hcoop, hworks, hstep⟩ := hw.of_label hl
  obtain ⟨hmarks, hready, hnext⟩ := step_vsock (hw.wellFormed j) hcoop hworks
    hstep (hsame.trans hphase)
  obtain ⟨j', k, hjj', hjk, hspawns, hend⟩ := hw.from_caStarting hnext
  refine ⟨j, j', k, hjj', hjk, ⟨?_, hready⟩, hspawns, hend⟩
  rw [hl]
  exact hmarks

theorem from_bootDelay (htime : TimePasses e) {i : ℕ}
    {deadline bootStart : Instant}
    (hphase : (e.state i).startup = .waitingVsock deadline bootStart false) :
    ∃ j, (e.state j).startup = .waitingVsock deadline bootStart true := by
  by_contra hnever
  have hwaits : ∀ n, i ≤ n →
      (e.state n).startup = .waitingVsock deadline bootStart false := by
    intro n hin
    induction n, hin using Nat.le_induction with
    | base => exact hphase
    | succ n hin ih =>
        cases hl : e.label n with
        | startup env =>
            obtain ⟨-, hworks, hstep⟩ := hw.of_label hl
            have hnext := step_bootDelay (hw.wellFormed n) hworks hstep ih
            by_cases hover : bootStart.elapsed (e.state n).kernel.now ≥
                fromSecs cfg.vsockProbeDelaySecs
            · rw [decide_eq_true hover] at hnext
              exact absurd ⟨n + 1, hnext⟩ hnever
            · rwa [decide_eq_false hover] at hnext
        | _ =>
            rw [step_startup_eq (by rw [hl]; rfl) (e.step_eq n)]
            exact ih
  obtain ⟨m, hm⟩ := htime (fromSecs cfg.vsockProbeDelaySecs + bootStart)
  obtain ⟨j, env, hj, hl, -⟩ := hw.exists_call (max i m)
  obtain ⟨-, hworks, hstep⟩ := hw.of_label hl
  have hnow : (e.state m).kernel.now ≤ (e.state j).kernel.now :=
    now_mono e (le_trans (le_max_right i m) hj)
  have hover : bootStart.elapsed (e.state j).kernel.now ≥
      fromSecs cfg.vsockProbeDelaySecs :=
    Nat.le_sub_of_add_le (le_trans hm hnow)
  have hnext := step_bootDelay (hw.wellFormed j) hworks hstep
    (hwaits j (le_trans (le_max_left i m) hj))
  rw [decide_eq_true hover] at hnext
  exact hnever ⟨j + 1, hnext⟩

theorem startsAll (htime : TimePasses e)
    (hphase : (e.state 0).startup.isBooting = true) : StartsAll e := by
  have hdelay : ∀ {i : ℕ} {deadline bootStart : Instant},
      (e.state i).startup = .waitingVsock deadline bootStart false →
        StartsAll e := by
    intro i deadline bootStart hwaiting
    obtain ⟨j, hj⟩ := hw.from_bootDelay htime hwaiting
    exact hw.from_vsock hj
  cases hstart : (e.state 0).startup with
  | vmStarting =>
      obtain ⟨j, env, -, hl, hsame⟩ := hw.exists_call 0
      obtain ⟨hcoop, hworks, hstep⟩ := hw.of_label hl
      obtain ⟨deadline, bootStart, hnext⟩ := step_vmStarting (hw.wellFormed j)
        hcoop hworks hstep (hsame.trans hstart)
      exact hdelay hnext
  | waitingVsock deadline bootStart delayDone =>
      cases delayDone with
      | false => exact hdelay hstart
      | true => exact hw.from_vsock hstart
  | _ =>
      rw [hstart] at hphase
      cases hphase

end Works

section Execution

variable {e : Execution (step cfg)}

theorem not_complete_of_abortive {n : ℕ} (hn : Abortive (e.state n)) {k : ℕ}
    (hnk : n ≤ k) : (e.state k).startup ≠ .complete := by
  have habortive : Abortive (e.state k) := by
    induction k, hnk using Nat.le_induction with
    | base => exact hn
    | succ k _ ih => exact step_abortive ih (e.step_eq k)
  rcases habortive with ⟨reason, hfailed⟩ | ⟨-, hcomplete⟩
  · rw [hfailed]
    exact nofun
  · exact hcomplete

theorem StartsAll.isBooting
    (hwf : ∀ n r, ((e.state n).sys.mgr r).WellFormed) (h : StartsAll e) :
    (e.state 0).startup.isBooting = true := by
  obtain ⟨i, j, k, -, -, ⟨hmarks, -⟩, -, -⟩ := h
  by_contra hlater
  have hnever : ∀ n, (e.state n).startup.isBooting = false := by
    intro n
    induction n with
    | zero => exact Bool.eq_false_iff.mpr hlater
    | succ n ih => exact step_not_isBooting (hwf n) ih (e.step_eq n)
  obtain ⟨env, -, ⟨-, deadline, bootStart, hphase, -⟩ | ⟨hr, -⟩⟩ :=
    marksReady_iff.mp hmarks
  · have hbooting := hnever i
    rw [hphase] at hbooting
    cases hbooting
  · cases hr

theorem StartsAll.works
    (hwf : ∀ n r, ((e.state n).sys.mgr r).WellFormed) (h : StartsAll e) (n : ℕ) :
    ¬ FailsAlone cfg (e.state n) (e.label n) := by
  intro hfails
  obtain ⟨i, j, k, -, -, -, -, hcomplete, -⟩ := h
  rcases Nat.lt_or_ge n k with hnk | hkn
  · have habortive := step_failsAlone (hwf n) hfails (e.step_eq n)
    exact not_complete_of_abortive habortive hnk hcomplete
  · have hstays : (e.state n).startup = .complete := by
      clear hfails
      induction n, hkn using Nat.le_induction with
      | base => exact hcomplete
      | succ n _ ih =>
          exact (step_isFinal (by rw [ih]; rfl) (e.step_eq n)).trans ih
    have hfinal := hfails.not_isFinal
    rw [hstays] at hfinal
    cases hfinal

end Execution

/-- Where `start_all` is answered, the daemon goes on in the same phase. -/
theorem StartAllAnswered.goesOn (h : StartAllAnswered cfg s t) :
    t.startup = s.startup ∧ t.pc ≠ .panicked := by
  obtain ⟨req, env, written, hcmd, -, hstep⟩ := h
  refine ⟨step_startup_eq rfl hstep, ?_⟩
  have hcall : env.call (requestCmd req) .vm = some env.vmStart := by
    rw [hcmd]
    rfl
  exact (step_request_call hcall hstep).1

theorem StartAllAnswered.wellFormed {e : Execution (step cfg)}
    (h : StartAllAnswered cfg s (e.state 0)) (hreach : Reachable cfg s) (n : ℕ) :
    ∀ r, ((e.state n).sys.mgr r).WellFormed := by
  obtain ⟨req, env, written, -, -, hstep⟩ := h
  have hpath : Path (step cfg) (fun _ _ => True) (e.state 0) (e.state n) :=
    e.path (Nat.zero_le n) fun _ _ _ => trivial
  obtain ⟨now, hinit⟩ := hreach
  have hlater : Reachable cfg (e.state n) :=
    ⟨now, (hinit.tail ⟨_, trivial, hstep⟩).trans hpath⟩
  exact reach_wellFormed hlater

/-- `start_all` starts everything exactly when it is handled while the startup
machine is about to boot the VM or waits for it, and none of the machine's
later calls fails alone. -/
theorem startAll_iff {e : Execution (step cfg)} (hreach : Reachable cfg s)
    (hanswered : StartAllAnswered cfg s (e.state 0))
    (hcoop : ∀ n, (e.label n).cooperates = true) (hruns : KeepsRunning e)
    (htime : TimePasses e) :
    StartsAll e ↔ s.startup.isBooting = true ∧
      ∀ n, ¬ FailsAlone cfg (e.state n) (e.label n) := by
  obtain ⟨hsame, hgoes⟩ := hanswered.goesOn
  have hwf : ∀ n r, ((e.state n).sys.mgr r).WellFormed :=
    hanswered.wellFormed hreach
  constructor
  · intro h
    rw [← hsame]
    exact ⟨h.isBooting hwf, h.works hwf⟩
  · rintro ⟨hbooting, hworks⟩
    have halive : ∀ n, (e.state n).pc ≠ .panicked := by
      intro n
      induction n with
      | zero => exact hgoes
      | succ n ih =>
          exact step_not_panicked (hcoop n) (hworks n) ih (e.step_eq n)
    have hcalls : ∀ N, ∃ n, N ≤ n ∧ (e.label n).isStartup = true := by
      intro N
      obtain ⟨n, hNn, hcall | hpanicked⟩ := hruns N
      · exact ⟨n, hNn, hcall⟩
      · exact absurd hpanicked (halive n)
    rw [← hsame] at hbooting
    exact Works.startsAll ⟨hwf, hcoop, hworks, hcalls⟩ htime hbooting

/-! ## Runs -/

/-- A second passes, and an iteration of the main loop in which all goes
well. -/
def idleRound : List Label := .tick (fromSecs 1) :: goodRound

/-- The daemon is at the head of its loop, the startup is over and no signal
waits in the pipe; at least `m` nanoseconds have passed. -/
structure Idle (m : ℕ) (s : Daemon) : Prop where
  pc : s.pc = .poll
  pipe : s.kernel.pipe = []
  startup : s.startup.isFinal = true
  now : m ≤ s.kernel.now

theorem idle_round {m : ℕ} (h : Idle m s) :
    ∃ t, exec (step cfg) s idleRound = some t ∧ Idle (m + 1) t := by
  let s₁ : Daemon :=
    { s.withKernel (s.kernel.advance (fromSecs 1)) with pc := .startup }
  have hfront : exec (step cfg) s
      [.tick (fromSecs 1), .poll .incoming, .accept false] = some s₁ := by
    simp [exec, step, h.pc, h.pipe, s₁, Daemon.withKernel, Kernel.advance,
      Listener.isQuiet]
  let s₂ : Daemon := { s₁ with pc := .health }
  have hstartup : step cfg s₁ (.startup (.works 100 200)) = some s₂ :=
    step_startup_of_isFinal rfl h.startup
  obtain ⟨s₃, hhealth, hpc₃⟩ :
      ∃ s₃, step cfg s₂ (.health (.answers .connected 300)) = some s₃ ∧
        s₃.pc = .reset :=
    exists_health cfg rfl rfl
  obtain ⟨t, hreset, hpc⟩ := exists_resetCounts cfg hpc₃
  have hrest : exec (step cfg) s₁ [.startup (.works 100 200),
      .health (.answers .connected 300), .resetCounts] = some t := by
    simp [exec, hstartup, hhealth, hreset]
  refine ⟨t, exec_append_eq_some_iff.mpr ⟨s₁, hfront, hrest⟩, hpc, ?_, ?_, ?_⟩
  · calc
      t.kernel.pipe = s₃.kernel.pipe := (step_continues hreset).pipe rfl
      _ = s₂.kernel.pipe := (step_continues hhealth).pipe rfl
      _ = [] := h.pipe
  · rw [step_startup_eq rfl hreset, step_startup_eq rfl hhealth]
    exact h.startup
  · calc
      m + 1 ≤ s.kernel.now + fromSecs 1 := Nat.add_le_add h.now (by decide)
      _ = s₂.kernel.now := rfl
      _ ≤ s₃.kernel.now := (step_continues hhealth).now
      _ ≤ t.kernel.now := (step_continues hreset).now

theorem not_failsAlone_of_isFinal (hfinal : s.startup.isFinal = true) :
    ¬ FailsAlone cfg s l := by
  intro hfails
  rw [hfails.not_isFinal] at hfinal
  cases hfinal

/-- A run to the end of the startup can go on for ever with idle rounds. -/
theorem exists_idling {ls : List Label}
    (hrun : exec (step cfg) s ls = some t) (ht : Idle 0 t)
    (halong : Along (step cfg)
      (fun s l => l.cooperates = true ∧ ¬ FailsAlone cfg s l) s ls) :
    ∃ e : Execution (step cfg), e.state 0 = s ∧
      (∀ n, (e.label n).cooperates = true) ∧ KeepsRunning e ∧ TimePasses e ∧
      ∀ n, ¬ FailsAlone cfg (e.state n) (e.label n) := by
  obtain ⟨c, hc, hidle, hlabel⟩ := Execution.exists_cycle (c := idleRound)
    (by decide) (fun m s h => idle_round h) ht
  obtain ⟨e, he, hafter, hbefore⟩ := c.exists_append (by rwa [hc]) halong
  have hfinal : ∀ n, (c.state n).startup.isFinal = true := by
    intro n
    induction n with
    | zero =>
        rw [hc]
        exact ht.startup
    | succ n ih =>
        rw [step_isFinal ih (c.step_eq n)]
        exact ih
  have hgood : ∀ n, (e.label n).cooperates = true ∧
      ¬ FailsAlone cfg (e.state n) (e.label n) := by
    intro n
    rcases Nat.lt_or_ge n ls.length with hn | hn
    · exact hbefore n hn
    obtain ⟨m, rfl⟩ := Nat.exists_eq_add_of_le' hn
    obtain ⟨hstate, hl⟩ := hafter m
    rw [hstate, hl]
    refine ⟨?_, not_failsAlone_of_isFinal (hfinal m)⟩
    have hall : ∀ l ∈ idleRound, l.cooperates = true := by decide
    rw [hlabel]
    exact hall _ (List.get_mem _ _)
  refine ⟨e, he, fun n => (hgood n).1, ?_, ?_, fun n => (hgood n).2⟩
  · intro N
    refine ⟨6 * N + 3 + ls.length, by omega, Or.inl ?_⟩
    rw [(hafter _).2, hlabel]
    have hcall : ∀ i (hi : i < idleRound.length), i = 3 →
        (idleRound.get ⟨i, hi⟩).isStartup = true := by
      rintro i hi rfl
      rfl
    have hpos : (6 * N + 3) % 6 = 3 := by omega
    exact hcall _ _ hpos
  · intro time
    refine ⟨6 * time + ls.length, ?_⟩
    rw [(hafter _).1]
    exact (hidle time).now

/-- From the startup machine of the first iteration to the end of the
startup. -/
def restOfBoot : List Label :=
  [.startup (.works 102 202), .health (.answers .connected 302), .resetCounts] ++
    [.tick (fromSecs 15)] ++ goodRound ++ goodRound ++ goodRound ++ goodRound

/-- `start_all` in the first iteration, when the machine is still in
`VmStarting`. -/
theorem startAll_firstIteration :
    ∃ (s : Daemon) (e : Execution (step Config.default)),
      after [.poll .incoming, .accept true] = some s ∧
      StartAllAnswered Config.default s (e.state 0) ∧
      (∀ n, (e.label n).cooperates = true) ∧ KeepsRunning e ∧ TimePasses e ∧
      StartsAll e := by
  obtain ⟨s, hafter, hbooting, hok, hrun⟩ := exists_after
    [.poll .incoming, .accept true]
    (P := fun s => s.startup.isBooting = true ∧
      (handleStartAll Config.default s.sys (.works 101 201)).2.isOk = true ∧
      (step Config.default s (ask "start_all")).any (fun t =>
        Along (step Config.default) (fun s l => l.cooperates = true ∧
          ¬ FailsAlone Config.default s l) t restOfBoot ∧
        (exec (step Config.default) t restOfBoot).any (fun u =>
          u.pc = .poll ∧ u.kernel.pipe = [] ∧ u.startup.isFinal = true) =
            true) = true) (by decide)
  obtain ⟨t, hstep, hrest⟩ := (Option.any_eq_true _ _).mp hrun
  obtain ⟨halong, hrest⟩ := of_decide_eq_true hrest
  obtain ⟨u, hu, hidle⟩ := (Option.any_eq_true _ _).mp hrest
  obtain ⟨hpc, hpipe, hfinal⟩ := of_decide_eq_true hidle
  obtain ⟨e, rfl, hcoop, hruns, htime, hworks⟩ :=
    exists_idling hu ⟨hpc, hpipe, hfinal, Nat.zero_le _⟩ halong
  have hanswered : StartAllAnswered Config.default s (e.state 0) :=
    ⟨_, _, _, rfl, hok, hstep⟩
  exact ⟨s, e, hafter, hanswered, hcoop, hruns, htime,
    (startAll_iff (reach_of_after hafter (.of_forall (fun _ _ => trivial) _ _))
      hanswered hcoop hruns htime).mpr ⟨hbooting, hworks⟩⟩

/-- `stop_all` and then `start_all` on a booted daemon: the machine stays in
`Complete`, and nothing but the VM is started, however long the daemon runs. -/
theorem startAll_afterComplete :
    ∃ (s : Daemon) (e : Execution (step Config.default)),
      Reachable Config.default s ∧
      StartAllAnswered Config.default s (e.state 0) ∧
      (∀ n, (e.label n).cooperates = true) ∧ KeepsRunning e ∧ TimePasses e ∧
      ¬ StartsAll e := by
  obtain ⟨s, hafter, hok, hrun⟩ := exists_after
    (bootUp ++ requestRound "stop_all" (.works 101 201) ++
      [.poll .incoming, .accept true])
    (P := fun s =>
      (handleStartAll Config.default s.sys (.works 101 201)).2.isOk = true ∧
      (step Config.default s (ask "start_all")).any (fun t =>
        t.startup = .complete ∧
        Along (step Config.default) (fun s l => l.cooperates = true ∧
          ¬ FailsAlone Config.default s l) t
          [.startup (.works 102 202), .health (.answers .connected 302),
            .resetCounts] ∧
        (exec (step Config.default) t
          [.startup (.works 102 202), .health (.answers .connected 302),
            .resetCounts]).any (fun u =>
          u.pc = .poll ∧ u.kernel.pipe = [] ∧ u.startup.isFinal = true) =
            true) = true) (by decide)
  obtain ⟨t, hstep, hrest⟩ := (Option.any_eq_true _ _).mp hrun
  obtain ⟨hcomplete, halong, hrest⟩ := of_decide_eq_true hrest
  obtain ⟨u, hu, hidle⟩ := (Option.any_eq_true _ _).mp hrest
  obtain ⟨hpc, hpipe, hfinal⟩ := of_decide_eq_true hidle
  obtain ⟨e, rfl, hcoop, hruns, htime, -⟩ :=
    exists_idling hu ⟨hpc, hpipe, hfinal, Nat.zero_le _⟩ halong
  have hreach : Reachable Config.default s :=
    reach_of_after hafter (.of_forall (fun _ _ => trivial) _ _)
  have hanswered : StartAllAnswered Config.default s (e.state 0) :=
    ⟨_, _, _, rfl, hok, hstep⟩
  refine ⟨s, e, hreach, hanswered, hcoop, hruns, htime, fun h => ?_⟩
  have hbooting := h.isBooting (hanswered.wellFormed hreach)
  rw [hcomplete] at hbooting
  cases hbooting

end Teeproxyd
