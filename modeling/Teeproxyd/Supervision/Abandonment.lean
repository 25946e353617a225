import Teeproxyd.Supervision.Recovery

/-!
# Whether the CA is given up

After the startup the CA is started again by the reap path, which needs a
recorded child, and by the health check, which needs a CA that is reported
`Running` or `Ready`.  Both throw the result of `start` away.  When such a
start fails, the CA is neither recorded nor reported, and nobody looks after
it any more.
-/

namespace Teeproxyd

open ProcessTable TransitionSystem

variable {cfg : Config} {s t : Daemon} {l : Label}

/-! ## What it means to give the CA up -/

/-- A client has stopped the CA since it was last started. -/
def stoppedSinceStart : List (Instant × Event) → Bool
  | [] => false
  | (_, .spawned .ca _ _) :: _ => false
  | (_, .handled cmd) :: log => cmd.stops .ca || stoppedSinceStart log
  | _ :: log => stoppedSinceStart log

/-- Without a client's command, some later step can start a CA. -/
def Restartable (cfg : Config) (s : Daemon) : Prop :=
  ∃ u l v, Path (step cfg) (fun _ l => l.isOperator = false) s u ∧
    l.isOperator = false ∧ step cfg u l = some v ∧
    Kernel.spawnsIn v.kernel.log .ca ≠ Kernel.spawnsIn u.kernel.log .ca

/-- At the end of an iteration after the startup, the CA has strikes left and
nobody has stopped it, but it is not recorded, and no later step can start
it. -/
structure Abandoned (cfg : Config) (s : Daemon) : Prop where
  pc : s.pc = .poll
  startup : s.startup = .complete
  strikes : s.ca.crashCount < 5
  wanted : stoppedSinceStart s.kernel.log = false
  untracked : s.ca.childPid = none
  lost : ¬ Restartable cfg s

/-- The reap path restarts the CA. -/
def crashRestarts (s : Daemon) (l : Label) : Bool :=
  l.reaps.any fun pid =>
    s.vm.childPid ≠ some pid ∧ s.ca.childPid = some pid ∧
      s.ca.crashCount + 1 < 5

/-- The call of `advance_startup` gives up waiting for the CA port. -/
def portTimesOut (s : Daemon) (env : StartupEnv) : Bool :=
  match s.startup with
  | .waitingCaPort deadline =>
      !env.portUp && decide (deadline < s.kernel.now + env.portTook)
  | _ => false

/-- The step gives the CA up, although nobody has stopped it.  In `Complete` a
restart fails, or a client's `start_ca` fails at the spawn while a CA that is
not recorded is reported `Ready`; or the startup completes with no CA recorded,
because the port does not answer in time. -/
def GivesUp (cfg : Config) (s : Daemon) (l : Label) : Prop :=
  stoppedSinceStart s.kernel.log = false ∧
    match l with
    | .waitpid _ env =>
        s.startup = .complete ∧ crashRestarts s l = true ∧
          startOutcome cfg .ca env ≠ .started
    | .health env =>
        s.startup = .complete ∧ healthRestarts cfg s env ∧
          s.ca.crashCount < 5 ∧ startOutcome cfg .ca env.start ≠ .started
    | .request req env _ =>
        s.startup = .complete ∧ requestCmd req = .startCa ∧
          s.ca.state = .ready ∧ s.ca.childPid = none ∧
          startOutcome cfg .ca env.caStart = .failed
    | .startup env =>
        portTimesOut s env = true ∧ s.ca.childPid = none ∧ s.ca.crashCount < 5
    | _ => False

instance decidableGivesUp : (l : Label) → Decidable (GivesUp cfg s l)
  | .waitpid _ _ => inferInstanceAs (Decidable (_ ∧ _ ∧ _ ∧ _))
  | .health _ => inferInstanceAs (Decidable (_ ∧ _ ∧ _ ∧ _ ∧ _))
  | .request _ _ _ => inferInstanceAs (Decidable (_ ∧ _ ∧ _ ∧ _ ∧ _ ∧ _))
  | .startup _ => inferInstanceAs (Decidable (_ ∧ _ ∧ _ ∧ _))
  | .tick _ | .exit _ | .crosvmStart _ | .crosvmExit _ | .others _ => .isFalse (·.2)
  | .terminate | .sigchld | .deliverChld | .deliverTerm => .isFalse (·.2)
  | .poll _ | .wake _ => .isFalse (·.2)
  | .drain | .accept _ | .hangup | .resetCounts | .shutdown _ _ => .isFalse (·.2)

/-! ## What the log says of stops -/

theorem stoppedSinceStart_cons {te : Instant × Event}
    {log : List (Instant × Event)}
    (hspawned : ∀ pid command, te.2 ≠ .spawned .ca pid command)
    (hstops : ∀ cmd, te.2 = .handled cmd → cmd.stops .ca = false) :
    stoppedSinceStart (te :: log) = stoppedSinceStart log := by
  obtain ⟨time, e⟩ := te
  cases e with
  | spawned r pid command =>
      cases r with
      | vm => rfl
      | ca => exact absurd rfl (hspawned pid command)
  | handled cmd => simp [stoppedSinceStart, hstops cmd rfl]
  | _ => rfl

theorem step_stoppedSinceStart
    (hcalls : ∀ f env, CallsStart cfg s l f .ca env →
      startOutcome cfg .ca env ≠ .started)
    (hstops : l.stops .ca = false) (hstep : step cfg s l = some t) :
    stoppedSinceStart t.kernel.log = stoppedSinceStart s.kernel.log := by
  refine step_invariant (I := fun log _ =>
    stoppedSinceStart log = stoppedSinceStart s.kernel.log)
    (fun _ _ h => h) ?_ hstep rfl
  intro log f te g hcause _ hlog
  refine (stoppedSinceStart_cons ?_ ?_).trans hlog
  · intro pid command he
    obtain ⟨env, hcall, hstarted⟩ : ∃ env, CallsStart cfg s l f .ca env ∧
        startOutcome cfg .ca env = .started := by
      simpa [Cause, he] using hcause
    exact hcalls f env hcall hstarted
  · intro cmd he
    have hcmd : l.cmd = some cmd := by simpa [Cause, he] using hcause
    simpa [Label.stops, hcmd] using hstops

theorem step_stopped (hstops : l.stops .ca = true)
    (hstep : step cfg s l = some t) :
    t.pc = .panicked ∨ stoppedSinceStart t.kernel.log = true := by
  cases l with
  | request req env written =>
      rcases step_request hstep with ⟨-, ⟨k, -, rfl⟩ | ⟨sys, reply, -, rfl⟩⟩
      · exact Or.inl rfl
      · right
        have hcmd : (requestCmd req).stops .ca = true := hstops
        simp [Kernel.emit, stoppedSinceStart, hcmd]
  | _ => cases hstops

/-! ## A CA nobody looks after -/

/-- The CA is neither recorded nor reported `Ready`, although nobody has
stopped it, and it has strikes left or will get them back. -/
structure Forsaken (s : Daemon) : Prop where
  untracked : s.ca.childPid = none
  unreported : s.ca.state ≠ .ready
  wanted : stoppedSinceStart s.kernel.log = false
  strikes : s.ca.crashCount < 5 ∨ s.ca.readySince.isSome

theorem Forsaken.of_eq (h : Forsaken t) (hca : t.ca = s.ca)
    (hstopped : stoppedSinceStart t.kernel.log =
      stoppedSinceStart s.kernel.log) : Forsaken s where
  untracked := hca ▸ h.untracked
  unreported := hca ▸ h.unreported
  wanted := hstopped.symm.trans h.wanted
  strikes := hca ▸ h.strikes

theorem start_ca_fails {m : Manager} {k : Kernel} {env : StartEnv}
    (hfails : startOutcome cfg .ca env ≠ .started) :
    (CaManager.start cfg m k env).1.childPid = m.childPid ∧
      (CaManager.start cfg m k env).1.crashCount = m.crashCount ∧
      (CaManager.start cfg m k env).1.readySince = m.readySince ∧
      (startOutcome cfg .ca env = .refused →
        (CaManager.start cfg m k env).1 = m) := by
  rcases start_cases cfg .ca m k env with
    ⟨-, e, hstart⟩ | ⟨hfailed, e, hstart⟩ | ⟨hstarted, -⟩
  · have hstart : CaManager.start cfg m k env = _ := hstart
    rw [hstart]
    exact ⟨rfl, rfl, rfl, fun _ => rfl⟩
  · have hstart : CaManager.start cfg m k env = _ := hstart
    rw [hstart]
    refine ⟨rfl, rfl, rfl, fun hrefused => ?_⟩
    cases hfailed.symm.trans hrefused
  · exact absurd hstarted hfails

theorem start_ca_tracked {m : Manager} {k : Kernel} {env : StartEnv}
    (hstarted : startOutcome cfg .ca env = .started) :
    (CaManager.start cfg m k env).1.childPid ≠ none := by
  obtain ⟨pid, k', hstart, -⟩ := start_of_launches (r := .ca) (m := m) (k := k)
    hstarted
  have hstart : CaManager.start cfg m k env = _ := hstart
  rw [hstart]
  exact nofun

/-! ## Steps after the startup -/

theorem crashRestarts_of_autoRestart {raw : Option (Pid × ExitStatus)}
    {env env' : StartEnv} (h : AutoRestart cfg s (.waitpid raw env) env') :
    env' = env ∧ crashRestarts s (.waitpid raw env) = true := by
  obtain ⟨rfl, pid, hreaps, hvm, hca, hcount⟩ := h
  refine ⟨rfl, ?_⟩
  simp [crashRestarts, hreaps, hvm, hca, hcount]

/-- A reaped child leaves the CA alone, uses up its strikes, or has it
restarted. -/
theorem handleChildDeath_ca (cfg : Config) (pid : Pid) (sys : Sys)
    (env : StartEnv) :
    ((sys.vm.childPid = some pid ∨ sys.ca.childPid ≠ some pid) ∧
      (handleChildDeath cfg pid sys env).ca = sys.ca) ∨
    (¬ sys.ca.crashCount + 1 < 5 ∧
      5 ≤ (handleChildDeath cfg pid sys env).ca.crashCount ∧
      (handleChildDeath cfg pid sys env).ca.readySince = none) ∨
    (sys.vm.childPid ≠ some pid ∧ sys.ca.childPid = some pid ∧
      sys.ca.crashCount + 1 < 5 ∧
      ∃ k, (handleChildDeath cfg pid sys env).ca =
        (CaManager.start cfg sys.ca.markDead k env).1) := by
  unfold handleChildDeath
  split
  next hvm =>
    left
    refine ⟨Or.inl (by simpa [Manager.ownsPid] using hvm), ?_⟩
    dsimp only
    split <;> rfl
  next hvm =>
  have hvm : sys.vm.childPid ≠ some pid := by simpa [Manager.ownsPid] using hvm
  split
  next hca =>
    right
    have hca : sys.ca.childPid = some pid := by simpa [Manager.ownsPid] using hca
    dsimp only
    split
    next hcount => exact Or.inr ⟨hvm, hca, hcount, _, rfl⟩
    next hcount => exact Or.inl ⟨hcount, UInt32.not_lt.mp hcount, rfl⟩
  next hca =>
    exact Or.inl ⟨Or.inr (by simpa [Manager.ownsPid] using hca), rfl⟩

theorem waitpid_ca {raw : Option (Pid × ExitStatus)} {env : StartEnv}
    (hstep : step cfg s (.waitpid raw env) = some t) :
    (crashRestarts s (.waitpid raw env) = true ∧
      ∃ k, t.ca = (CaManager.start cfg s.ca.markDead k env).1) ∨
    (crashRestarts s (.waitpid raw env) = false ∧
      (t.ca = s.ca ∨ (5 ≤ t.ca.crashCount ∧ t.ca.readySince = none))) := by
  obtain ⟨term, client, -, -, rfl⟩ := step_waitpid hstep
  cases raw with
  | none => exact Or.inr ⟨rfl, Or.inl rfl⟩
  | some report =>
      obtain ⟨pid, status⟩ := report
      rcases reapIteration_some pid status env with
        ⟨hreaps, -, hiter⟩ | ⟨hreaps, -, hiter⟩
      · simp only [hiter, crashRestarts, hreaps]
        rcases handleChildDeath_ca cfg pid ⟨s.vm, s.ca, s.kernel.reap pid⟩ env with
          ⟨hother, hca⟩ | ⟨hcount, hstruck⟩ | ⟨hvm, hca, hcount, k, hstart⟩
        · refine Or.inr ⟨?_, Or.inl hca⟩
          rcases hother with hvm | hca
          · have hvm : s.vm.childPid = some pid := hvm
            simp [hvm]
          · have hca : s.ca.childPid ≠ some pid := hca
            simp [hca]
        · exact Or.inr ⟨by simp [hcount], Or.inr hstruck⟩
        · have hvm : s.vm.childPid ≠ some pid := hvm
          have hca : s.ca.childPid = some pid := hca
          exact Or.inl ⟨by simp [hvm, hca, hcount], k, hstart⟩
      · refine Or.inr ⟨by simp [crashRestarts, hreaps], Or.inl ?_⟩
        simp only [hiter]

theorem forsaken_waitpid {raw : Option (Pid × ExitStatus)} {env : StartEnv}
    (hphase : s.startup = .complete)
    (hkept : ¬ GivesUp cfg s (.waitpid raw env))
    (hstep : step cfg s (.waitpid raw env) = some t) (ht : Forsaken t) :
    Forsaken s := by
  have hstopped : (crashRestarts s (.waitpid raw env) = true →
      startOutcome cfg .ca env ≠ .started) →
        stoppedSinceStart t.kernel.log = stoppedSinceStart s.kernel.log := by
    intro hfails
    refine step_stoppedSinceStart ?_ rfl hstep
    rintro f env' (⟨-, hdirect⟩ | ⟨-, -, hauto⟩)
    · cases hdirect
    · obtain ⟨rfl, hrestarts⟩ := crashRestarts_of_autoRestart hauto
      exact hfails hrestarts
  rcases waitpid_ca hstep with ⟨hrestarts, k, hca⟩ | ⟨hrestarts, hca⟩
  · exfalso
    by_cases hstarted : startOutcome cfg .ca env = .started
    · apply start_ca_tracked hstarted
      rw [← hca]
      exact ht.untracked
    · refine hkept ⟨?_, hphase, hrestarts, hstarted⟩
      rw [← hstopped fun _ => hstarted]
      exact ht.wanted
  · have hsame := hstopped fun h => by simp [hrestarts] at h
    rcases hca with hca | ⟨hmany, hnone⟩
    · exact ht.of_eq hca hsame
    · exfalso
      rcases ht.strikes with hfew | hsince
      · exact UInt32.not_lt.mpr hmany hfew
      · simp [hnone] at hsince

theorem step_mgr_eq {r : Role} (hcalls : ∀ f env, ¬ CallsStart cfg s l f r env)
    (hstops : ¬ StopsChild cfg s l r) (hreaps : l.reaps = none)
    (hmarks : marksReady s l r = false) (hreset : l ≠ .resetCounts)
    (hstep : step cfg s l = some t) :
    t.pc = .panicked ∨ t.sys.mgr r = s.sys.mgr r := by
  refine step_untouched hstep ?_
  rintro f ⟨time, e⟩ g hcause - - hsubject
  cases e <;> cases hsubject
  · obtain ⟨env, hcall, -⟩ := hcause
    exact hcalls f env hcall
  · obtain ⟨env, hcall, -⟩ := hcause
    exact hcalls f env hcall
  · exact hstops hcause
  · cases hreaps.symm.trans hcause.1
  · obtain ⟨pid, hpid, -⟩ := hcause
    cases hreaps.symm.trans hpid
  · cases hmarks.symm.trans hcause.2
  · exact hreset hcause

/-- A client's start that fails leaves a forsaken CA only where there was one. -/
theorem forsaken_startCa {req : Value} {env : RequestEnv} {env' : StartEnv}
    {written : Bool} (hphase : s.startup = .complete)
    (hkept : ¬ GivesUp cfg s (.request req env written))
    (hstep : step cfg s (.request req env written) = some t)
    (hstops : (Label.request req env written).stops .ca = false)
    (hcall : env.call (requestCmd req) .ca = some env') (ht : Forsaken t) :
    Forsaken s := by
  have hcmd : requestCmd req = .startCa ∧ env' = env.caStart := by
    generalize requestCmd req = cmd at hcall
    cases cmd <;> cases hcall
    exact ⟨rfl, rfl⟩
  obtain ⟨hcmd, rfl⟩ := hcmd
  have hca : t.ca = (CaManager.start cfg s.ca s.kernel env.caStart).1 :=
    congrArg Sys.ca (step_request_call hcall hstep).2
  have hfails : startOutcome cfg .ca env.caStart ≠ .started := by
    intro hstarted
    apply start_ca_tracked hstarted
    rw [← hca]
    exact ht.untracked
  obtain ⟨hpid, hcount, hsince, hrefused⟩ := start_ca_fails
    (m := s.ca) (k := s.kernel) hfails
  have hstopped : stoppedSinceStart t.kernel.log =
      stoppedSinceStart s.kernel.log := by
    refine step_stoppedSinceStart ?_ hstops hstep
    rintro f env' (⟨-, hdirect⟩ | ⟨-, -, hrestart⟩)
    · cases hcall.symm.trans hdirect
      exact hfails
    · cases hrestart
  rw [← hca] at hpid hcount hsince hrefused
  by_cases houtcome : startOutcome cfg .ca env.caStart = .refused
  · exact ht.of_eq (hrefused houtcome) hstopped
  · have hnone : s.ca.childPid = none := hpid.symm.trans ht.untracked
    have hwanted : stoppedSinceStart s.kernel.log = false :=
      hstopped.symm.trans ht.wanted
    refine ⟨hnone, ?_, hwanted, ?_⟩
    · intro hready
      refine hkept ⟨hwanted, hphase, hcmd, hready, hnone, ?_⟩
      cases h : startOutcome cfg .ca env.caStart with
      | refused => exact absurd h houtcome
      | failed => rfl
      | started => exact absurd h hfails
    · rw [← hcount, ← hsince]
      exact ht.strikes

theorem forsaken_request {req : Value} {env : RequestEnv} {written : Bool}
    (hphase : s.startup = .complete)
    (hkept : ¬ GivesUp cfg s (.request req env written))
    (hstep : step cfg s (.request req env written) = some t)
    (hpc : t.pc ≠ .panicked) (ht : Forsaken t) : Forsaken s := by
  cases hstops : (Label.request req env written).stops .ca with
  | true =>
      rcases step_stopped hstops hstep with hpanicked | hstopped
      · exact absurd hpanicked hpc
      · cases hstopped.symm.trans ht.wanted
  | false =>
  cases hcall : env.call (requestCmd req) .ca with
  | none =>
      have hcalls : ∀ f env', ¬ CallsStart cfg s (.request req env written) f
          .ca env' := by
        rintro f env' (⟨-, hdirect⟩ | ⟨-, -, hrestart⟩)
        · cases hcall.symm.trans hdirect
        · cases hrestart
      have hstays : ¬ StopsChild cfg s (.request req env written) .ca := by
        intro h
        have hstop : (requestCmd req).stops .ca = true := h
        simp [Label.stops, Label.cmd, hstop] at hstops
      rcases step_mgr_eq hcalls hstays rfl rfl (by simp) hstep with h | hca
      · exact absurd h hpc
      · exact ht.of_eq hca (step_stoppedSinceStart
          (fun f env' h => absurd h (hcalls f env')) hstops hstep)
  | some env' => exact forsaken_startCa hphase hkept hstep hstops hcall ht

/-- A health restart starts the CA after it has stopped it. -/
theorem health_ca {env : HealthEnv} (hrestarts : healthRestarts cfg s env)
    (hstep : step cfg s (.health env) = some t) (hpc : t.pc ≠ .panicked) :
    ∃ k, t.ca = (CaManager.start cfg s.ca.halted k env.start).1 ∧
      t.kernel = (CaManager.start cfg s.ca.halted k env.start).2.1 ∧
      Tells cfg s (.health env) s.sys.mgr s.kernel
        (Function.update s.sys.mgr .ca s.ca.halted) k := by
  have hstops : StopsChild cfg s (.health env) .ca := ⟨rfl, hrestarts⟩
  obtain ⟨hdue, hstate, hprobe⟩ := hrestarts
  rcases step_health hstep with
    ⟨-, ⟨hnot, -⟩ | ⟨-, k, -, rfl⟩ | ⟨-, health, sys, hcheck, rfl⟩⟩
  · exact absurd hdue hnot
  · exact absurd rfl hpc
  have hprobed : Tells cfg s (.health env) s.sys.mgr s.kernel s.sys.mgr
      ((s.kernel.advance env.took).emit (.healthProbe env.outcome)) :=
    (tells_advance s.kernel env.took).trans
      (.event (.emit _ _ nofun) rfl trivial .healthProbe)
  cases hcheck with
  | idle hdown => exact absurd hstate hdown
  | probed hup hcalm => exact absurd hprobe hcalm
  | @restarted k hup hverdict hstop =>
      have hstopped : Tells cfg s (.health env) s.sys.mgr
          ((s.kernel.advance env.took).emit (.healthProbe env.outcome))
          (Function.update s.sys.mgr .ca s.ca.halted) k :=
        (tells_stop (r := .ca) _ hstops).2 _ _ hstop
      exact ⟨k, rfl, rfl, hprobed.trans hstopped⟩

theorem forsaken_health {env : HealthEnv} (hphase : s.startup = .complete)
    (hkept : ¬ GivesUp cfg s (.health env))
    (hstep : step cfg s (.health env) = some t) (hpc : t.pc ≠ .panicked)
    (ht : Forsaken t) : Forsaken s := by
  have hstopped : (healthRestarts cfg s env →
      startOutcome cfg .ca env.start ≠ .started) →
        stoppedSinceStart t.kernel.log = stoppedSinceStart s.kernel.log := by
    intro hfails
    refine step_stoppedSinceStart ?_ rfl hstep
    rintro f env' (⟨-, hdirect⟩ | ⟨-, -, rfl, hrestarts⟩)
    · cases hdirect
    · exact hfails hrestarts
  by_cases hrestarts : healthRestarts cfg s env
  · exfalso
    obtain ⟨k, hca, -⟩ := health_ca hrestarts hstep hpc
    have hfails : startOutcome cfg .ca env.start ≠ .started := by
      intro hstarted
      apply start_ca_tracked hstarted
      rw [← hca]
      exact ht.untracked
    obtain ⟨-, hcount, hsince, -⟩ := start_ca_fails (m := s.ca.halted) (k := k)
      hfails
    rw [← hca] at hcount hsince
    have hfew : t.ca.crashCount < 5 := by
      rcases ht.strikes with hfew | hsome
      · exact hfew
      · rw [hsince] at hsome
        cases hsome
    refine hkept ⟨?_, hphase, hrestarts, ?_, hfails⟩
    · rw [← hstopped fun _ => hfails]
      exact ht.wanted
    · have hsame : t.ca.crashCount = s.ca.crashCount := hcount
      rwa [← hsame]
  · have hcalls : ∀ f env', ¬ CallsStart cfg s (.health env) f .ca env' := by
      rintro f env' (⟨-, hdirect⟩ | ⟨-, -, -, hrestart⟩)
      · cases hdirect
      · exact hrestarts hrestart
    rcases step_mgr_eq hcalls (fun h => hrestarts h.2) rfl rfl nofun hstep with
      h | hca
    · exact absurd h hpc
    · exact ht.of_eq hca (hstopped fun h => absurd h hrestarts)

theorem forsaken_resetCounts (hstep : step cfg s .resetCounts = some t)
    (ht : Forsaken t) : Forsaken s := by
  have hstopped : stoppedSinceStart t.kernel.log =
      stoppedSinceStart s.kernel.log := by
    refine step_stoppedSinceStart ?_ rfl hstep
    rintro f env' (⟨-, hdirect⟩ | ⟨-, -, hauto⟩)
    · cases hdirect
    · exact hauto.elim
  obtain ⟨-, vm, k, ca, k', -, hca, rfl⟩ := step_resetCounts hstep
  unfold Manager.maybeResetCrashCount at hca
  split at hca
  next hstable =>
    cases hca
    obtain ⟨since, hsince, -⟩ := (Option.any_eq_true _ _).mp hstable
    refine ⟨ht.untracked, ht.unreported, hstopped.symm.trans ht.wanted, ?_⟩
    exact Or.inr (Option.isSome_iff_exists.mpr ⟨since, hsince⟩)
  next =>
    cases hca
    exact ht.of_eq rfl hstopped

/-- The startup completes: the CA answers the port probe, or time is up. -/
theorem forsaken_startup {env : StartupEnv}
    (hwf : ∀ r, (s.sys.mgr r).WellFormed) (hsince : s.ca.readySince = none)
    (hphase : s.startup ≠ .complete) (hkept : ¬ GivesUp cfg s (.startup env))
    (hstep : step cfg s (.startup env) = some t)
    (hcomplete : t.startup = .complete) : ¬ Forsaken t := by
  intro ht
  rcases step_startup hstep with
    ⟨-, ⟨k, r, m, env', -, -, -, rfl⟩ | ⟨phase, sys, hadv, rfl⟩⟩
  · exact hphase hcomplete
  obtain rfl : phase = .complete := hcomplete
  generalize hbefore : s.startup = before at hadv
  generalize hafter : StartupPhase.complete = after at hadv
  cases hadv with
  | final => exact hphase (hbefore.trans hafter.symm)
  | vmRestart _ hdead => exact absurd hdead ((hwf .vm).not_isDead _)
  | caRestart _ hdead => exact absurd hdead ((hwf .ca).not_isDead _)
  | portUp => exact ht.unreported rfl
  | portTimeout hdown hlate =>
      refine hkept ⟨ht.wanted, ?_, ht.untracked, ?_⟩
      · simp [portTimesOut, hbefore, hdown, hlate]
      · rcases ht.strikes with hfew | hsome
        · exact hfew
        · have hsome : s.ca.readySince.isSome = true := hsome
          rw [hsince] at hsome
          cases hsome
  | _ => cases hafter

/-! ## What holds as long as the CA is not given up -/

/-- The CA is marked `Ready` only as the startup completes. -/
theorem step_unready (hwf : ∀ r, (s.sys.mgr r).WellFormed)
    (hs : s.startup ≠ .complete → s.ca.readySince = none)
    (hstep : step cfg s l = some t) (hphase : t.startup ≠ .complete) :
    t.ca.readySince = none := by
  have hbefore : s.startup ≠ .complete := by
    intro hcomplete
    have hsame := step_isFinal (by rw [hcomplete]; rfl) hstep
    exact hphase (hsame.trans hcomplete)
  have hsince := hs hbefore
  refine step_invariant (I := fun _ f => (f.mgr .ca).readySince = none)
    (fun _ _ _ => rfl) ?_ hstep hsince
  intro log f te g hcause hte hf
  rcases hte.changes .ca with ⟨-, hsame⟩ | hchanges
  · rw [hsame]
    exact hf
  obtain ⟨time, e⟩ := te
  generalize f.mgr .ca = m at hchanges hf
  generalize g.mgr .ca = m' at hchanges
  cases hchanges with
  | ready =>
      exact absurd ((step_marksReady hwf hstep hcause.2).2 rfl) hphase
  | stopped => rfl
  | died => rfl
  | _ => exact hf

/-- What holds as long as no step gives the CA up. -/
structure Supervised (s : Daemon) : Prop where
  wellFormed : ∀ r, (s.sys.mgr r).WellFormed
  unready : s.startup ≠ .complete → s.ca.readySince = none
  kept : s.startup = .complete →
    s.pc = .exited ∨ s.pc = .panicked ∨ ¬ Forsaken s

theorem step_kept (hs : Supervised s) (hkept : ¬ GivesUp cfg s l)
    (hstep : step cfg s l = some t) (hcomplete : t.startup = .complete) :
    t.pc = .exited ∨ t.pc = .panicked ∨ ¬ Forsaken t := by
  by_cases hphase : s.startup = .complete
  · rcases hs.kept hphase with hpc | hpc | hlooked
    · left
      exact (step_ended (by rw [hpc]; rfl) hstep).1.trans hpc
    · right
      left
      exact (step_ended (by rw [hpc]; rfl) hstep).1.trans hpc
    by_cases hpanicked : t.pc = .panicked
    · exact Or.inr (Or.inl hpanicked)
    by_cases hquiet : l.isQuiet = true
    · have hframe := step_quiet hquiet hstep
      refine Or.inr (Or.inr fun ht => hlooked ?_)
      exact ht.of_eq hframe.ca (congrArg stoppedSinceStart hframe.log)
    cases l with
    | exit pid =>
        obtain ⟨-, rfl⟩ := step_exit hstep
        exact Or.inr (Or.inr fun ht => hlooked (ht.of_eq rfl rfl))
    | waitpid raw env =>
        refine Or.inr (Or.inr fun ht => hlooked ?_)
        exact forsaken_waitpid hphase hkept hstep ht
    | request req env written =>
        refine Or.inr (Or.inr fun ht => hlooked ?_)
        exact forsaken_request hphase hkept hstep hpanicked ht
    | startup env =>
        rw [step_startup_of_isFinal (step_startup hstep).1
          (by rw [hphase]; rfl)] at hstep
        cases hstep
        exact Or.inr (Or.inr fun ht => hlooked (ht.of_eq rfl rfl))
    | health env =>
        refine Or.inr (Or.inr fun ht => hlooked ?_)
        exact forsaken_health hphase hkept hstep hpanicked ht
    | resetCounts =>
        refine Or.inr (Or.inr fun ht => hlooked ?_)
        exact forsaken_resetCounts hstep ht
    | shutdown caKill vmKill =>
        exact (step_shutdown_pc hstep).imp_right Or.inl
    | _ => exact absurd rfl hquiet
  · cases l with
    | startup env =>
        refine Or.inr (Or.inr ?_)
        exact forsaken_startup hs.wellFormed (hs.unready hphase) hphase hkept
          hstep hcomplete
    | _ =>
        exact absurd ((step_startup_eq rfl hstep).symm.trans hcomplete) hphase

theorem Supervised.init (cfg : Config) (now : Instant) :
    Supervised (init cfg now) where
  wellFormed r := by cases r <;> exact Manager.wellFormed_new
  unready _ := rfl
  kept h := by
    unfold Teeproxyd.init at h
    dsimp only at h
    split at h <;> cases h

theorem Supervised.step (hs : Supervised s) (hkept : ¬ GivesUp cfg s l)
    (hstep : step cfg s l = some t) : Supervised t where
  wellFormed := step_wellFormed hs.wellFormed hstep
  unready := step_unready hs.wellFormed hs.unready hstep
  kept := step_kept hs hkept hstep

theorem reach_supervised
    (hreach : Reach cfg (fun s l => ¬ GivesUp cfg s l) s) : Supervised s := by
  obtain ⟨now, hpath⟩ := hreach
  refine hpath.preserves ?_ (Supervised.init cfg now)
  intro u l v hguard hu hstep
  exact hu.step hguard hstep

/-! ## From a reported CA to its restart -/

/-- The CA is reported `Ready` although none is recorded, at the end of an
iteration after the startup. -/
structure Phantom (s : Daemon) : Prop where
  pc : s.pc = .poll
  startup : s.startup = .complete
  untracked : s.ca.childPid = none
  reported : s.ca.state = .ready
  pipe : 'T' ∉ s.kernel.pipe

/-- What the way to the health check leaves alone. -/
structure Waits (s t : Daemon) : Prop where
  startup : t.startup = s.startup
  ca : t.ca = s.ca
  health : t.health = s.health
  lastHealth : t.lastHealth = s.lastHealth
  now : t.kernel.now = s.kernel.now
  pipe : 'T' ∉ t.kernel.pipe

theorem Waits.trans {u : Daemon} (h : Waits s t) (h' : Waits t u) :
    Waits s u where
  startup := h'.startup.trans h.startup
  ca := h'.ca.trans h.ca
  health := h'.health.trans h.health
  lastHealth := h'.lastHealth.trans h.lastHealth
  now := h'.now.trans h.now
  pipe := h'.pipe

/-- The reaping can end at once: no child is a zombie, or one ended by a signal
that is not decoded. -/
theorem exists_reaped {client : Bool} (cfg : Config)
    (hpc : s.pc = .reap false client) (hpipe : 'T' ∉ s.kernel.pipe) :
    ∃ l t, l.isOperator = false ∧ step cfg s l = some t ∧
      t.pc = .accept client ∧ Waits s t := by
  cases halive : s.kernel.table.procs.all Proc.alive with
  | true =>
      refine ⟨.waitpid none (.works 0), { s with pc := .accept client }, rfl, ?_,
        rfl, ⟨rfl, rfl, rfl, rfl, rfl, hpipe⟩⟩
      simp [step, hpc, waitpidReports, halive, reapIteration, decodeWait,
        afterSignals]
  | false =>
      obtain ⟨q, hmem, hdead⟩ := List.all_eq_false.mp halive
      have hzombie : s.kernel.table.isZombie q.pid = true := by
        simp [Table.isZombie, Table.find_of_mem hmem, hdead]
      refine ⟨.waitpid (some (q.pid, .signal 34)) (.works 0),
        { s with
          sys := { s.sys with
            kernel := (s.kernel.reap q.pid).emit (.lost q.pid) }
          pc := .accept client }, rfl, ?_, rfl,
        ⟨rfl, rfl, rfl, rfl, rfl, hpipe⟩⟩
      simp [step, hpc, waitpidReports, hzombie, reapIteration, decodeWait,
        afterSignals]

/-- With nothing but SIGCHLD in the pipe, an iteration goes on to `accept`. -/
theorem exists_accept (cfg : Config) (hpc : s.pc = .poll)
    (hpipe : 'T' ∉ s.kernel.pipe) :
    ∃ t, Path (step cfg) (fun _ l => l.isOperator = false) s t ∧
      t.pc = .accept true ∧ Waits s t := by
  by_cases hempty : s.kernel.pipe = []
  · refine ⟨{ s with pc := .accept true }, Path.one (l := .poll .incoming) rfl
      ?_, rfl, ⟨rfl, rfl, rfl, rfl, rfl, hpipe⟩⟩
    simp [step, hpc, hempty, Listener.isQuiet, Listener.isClient]
  let u : Daemon := { s with pc := .drain true }
  have hu : step cfg s (.poll .incoming) = some u := by
    simp [step, hpc, hempty, u, Listener.isClient]
  have hchunk : 'T' ∉ s.kernel.pipe.take 64 :=
    fun h => hpipe (List.mem_of_mem_take h)
  have hrest : 'T' ∉ s.kernel.pipe.drop 64 :=
    fun h => hpipe (List.mem_of_mem_drop h)
  let drained : Daemon := s.withKernel (s.kernel.readPipe 64)
  have hdrain : step cfg u .drain = some
      (if (s.kernel.pipe.take 64).contains 'C' then
        { drained with pc := .reap false true }
      else { drained with pc := .accept true }) := by
    simp only [step, u, afterSignals]
    have hnoTerm : (s.kernel.pipe.take 64).contains 'T' = false := by
      simpa using hchunk
    simp only [hnoTerm]
    split <;> rfl
  have hwaits : ∀ pc, Waits s { drained with pc := pc } :=
    fun pc => ⟨rfl, rfl, rfl, rfl, rfl, hrest⟩
  have hpath : ∀ w, step cfg u .drain = some w →
      Path (step cfg) (fun _ l => l.isOperator = false) s w := by
    intro w hw
    have hdraining : Path (step cfg) (fun _ l => l.isOperator = false) s u :=
      .single ⟨.poll .incoming, rfl, hu⟩
    exact hdraining.tail ⟨.drain, rfl, hw⟩
  cases hchld : (s.kernel.pipe.take 64).contains 'C' with
  | false =>
      rw [hchld] at hdrain
      exact ⟨_, hpath _ hdrain, rfl, hwaits _⟩
  | true =>
      rw [hchld] at hdrain
      obtain ⟨l, t, hl, hstep, hpc', ht⟩ := exists_reaped
        (s := { drained with pc := .reap false true }) cfg rfl hrest
      exact ⟨t, (hpath _ hdrain).tail ⟨l, hl, hstep⟩, hpc',
        (hwaits _).trans ht⟩

theorem exists_healthTurn (cfg : Config) (hs : Phantom s) :
    ∃ t, Path (step cfg) (fun _ l => l.isOperator = false) s t ∧
      t.pc = .health ∧ healthDue cfg t ∧ t.startup = .complete ∧
      t.ca = s.ca ∧ t.health = s.health ∧ 'T' ∉ t.kernel.pipe := by
  let d : ℕ := s.lastHealth + fromSecs cfg.healthIntervalSecs
  let s₁ : Daemon := s.withKernel (s.kernel.advance d)
  obtain ⟨t, hpath, hpc, ht⟩ := exists_accept (s := s₁) cfg hs.pc hs.pipe
  have hticked : Path (step cfg) (fun _ l => l.isOperator = false) s t :=
    (Path.one (s := s) (t := s₁) (l := .tick d) rfl rfl).trans hpath
  have haccept : step cfg t (.accept false) = some { t with pc := .startup } := by
    simp [step, hpc]
  have hfinal : t.startup.isFinal = true := by
    rw [ht.startup, show s₁.startup = _ from hs.startup]
    rfl
  have hstartup : step cfg { t with pc := .startup } (.startup (.works 0 0)) =
      some { t with pc := .health } :=
    step_startup_of_isFinal rfl hfinal
  refine ⟨{ t with pc := .health },
    (hticked.tail ⟨_, rfl, haccept⟩).tail ⟨_, rfl, hstartup⟩, rfl, ?_,
    ht.startup.trans hs.startup, ht.ca, ht.health, ht.pipe⟩
  have hnow : t.kernel.now = s.kernel.now + d := ht.now
  have hlast : t.lastHealth = s.lastHealth := ht.lastHealth
  change fromSecs cfg.healthIntervalSecs ≤ t.kernel.now - t.lastHealth
  rw [hnow, hlast]
  omega

theorem probe_refused (h : HealthMonitor) :
    (h.failThreshold ≤ h.consecutiveFailures + 1 ∧
      (h.probe .refused).2 = .restartNeeded) ∨
    (h.consecutiveFailures + 1 < h.failThreshold ∧
      (h.probe .refused).2 = .degraded (h.consecutiveFailures + 1) ∧
      (h.probe .refused).1.consecutiveFailures = h.consecutiveFailures + 1 ∧
      (h.probe .refused).1.failThreshold = h.failThreshold) := by
  unfold HealthMonitor.probe
  dsimp only
  split
  next hreached => exact Or.inl ⟨hreached, rfl⟩
  next hbelow =>
    exact Or.inr ⟨UInt32.not_le.mp hbelow, rfl, rfl, rfl⟩

/-- How many more refused probes the monitor puts up with. -/
def HealthMonitor.patience (h : HealthMonitor) : ℕ :=
  h.failThreshold.toNat - (h.consecutiveFailures + 1).toNat

theorem patience_refused {h : HealthMonitor}
    (hbelow : h.consecutiveFailures + 1 < h.failThreshold) :
    (h.probe .refused).1.patience < h.patience := by
  rcases probe_refused h with ⟨hreached, -⟩ | ⟨-, -, hcount, hthreshold⟩
  · exact absurd hreached (UInt32.not_le.mpr hbelow)
  unfold HealthMonitor.patience
  rw [hcount, hthreshold]
  generalize h.consecutiveFailures + 1 = n at hbelow
  have hlt : n.toNat < h.failThreshold.toNat := hbelow
  have hmax : h.failThreshold.toNat < 2 ^ 32 := h.failThreshold.toNat_lt
  have hnext : (n + 1).toNat = n.toNat + 1 := by
    rw [UInt32.toNat_add]
    exact Nat.mod_eq_of_lt (by simpa using Nat.lt_of_le_of_lt hlt hmax)
  omega

section HealthCheck

variable {sys : Sys} {health : HealthMonitor} {env : HealthEnv}

theorem healthCheck_restarts (cfg : Config) (env : HealthEnv)
    (hready : sys.ca.state = .ready)
    (huntracked : sys.ca.childPid = none)
    (hprobe : (health.probe env.outcome).2 = .restartNeeded) :
    ∃ k, healthCheck cfg health sys env =
        .ok ((health.probe env.outcome).1,
          sys.set .ca (CaManager.start cfg sys.ca.halted k env.start).1
            (CaManager.start cfg sys.ca.halted k env.start).2.1) ∧
      Kernel.spawnsIn k.log .ca = Kernel.spawnsIn sys.kernel.log .ca := by
  have hresult : health.probe env.outcome =
      ((health.probe env.outcome).1, .restartNeeded) := Prod.ext rfl hprobe
  refine ⟨((sys.kernel.advance env.took).emit (.healthProbe env.outcome)).emit
    (.stopped .ca), ?_, rfl⟩
  unfold healthCheck CaManager.stop Manager.stopWith
  rw [if_pos (Or.inl hready), hresult, huntracked]
  rfl

theorem healthCheck_degraded (cfg : Config) (env : HealthEnv) {n : UInt32}
    (hready : sys.ca.state = .ready)
    (hprobe : (health.probe env.outcome).2 = .degraded n) :
    healthCheck cfg health sys env =
      .ok ((health.probe env.outcome).1,
        { sys with
          kernel := (sys.kernel.advance env.took).emit
            (.healthProbe env.outcome) }) := by
  have hresult : health.probe env.outcome =
      ((health.probe env.outcome).1, .degraded n) := Prod.ext rfl hprobe
  unfold healthCheck
  rw [if_pos (Or.inl hready), hresult]

theorem step_healthCheck {sys' : Sys} {health' : HealthMonitor}
    (hpc : s.pc = .health) (hdue : healthDue cfg s)
    (hcheck : healthCheck cfg s.health s.sys env = .ok (health', sys')) :
    step cfg s (.health env) =
      some { s with
        health := health'
        sys := sys'
        lastHealth := sys'.kernel.now
        pc := .reset } := by
  have hdue : s.lastHealth.elapsed s.kernel.now ≥
    fromSecs cfg.healthIntervalSecs := hdue
  simp only [step, hpc, if_pos hdue, hcheck]

end HealthCheck

theorem spawnsIn_start (cfg : Config) (m : Manager) (k : Kernel) (pid : Pid) :
    Kernel.spawnsIn (CaManager.start cfg m k (.works pid)).2.1.log .ca ≠
      Kernel.spawnsIn k.log .ca := by
  rcases start_cases cfg .ca m k (.works pid) with
    ⟨h, -⟩ | ⟨h, -⟩ | ⟨-, hint, command, hstart⟩
  · cases h
  · cases h
  · have hstart : CaManager.start cfg m k (.works pid) = _ := hstart
    rw [hstart]
    simp [Kernel.spawn, Kernel.emit, Kernel.spawnsIn, Kernel.advance]

theorem maybeReset_frame {m m' : Manager} {k k' : Kernel} {r : Role}
    (h : m.maybeResetCrashCount k r = (m', k')) :
    m'.childPid = m.childPid ∧ m'.state = m.state ∧ k'.pipe = k.pipe := by
  unfold Manager.maybeResetCrashCount at h
  split at h <;> cases h <;> exact ⟨rfl, rfl, rfl⟩

/-- The health check restarts a CA that is reported `Ready`, recorded or not,
if its probes keep being refused. -/
theorem Phantom.restartable (n : ℕ) :
    ∀ s, Phantom s → s.health.patience = n → Restartable cfg s := by
  induction n using Nat.strongRecOn with
  | _ n ih =>
  rintro s hs rfl
  obtain ⟨t, hpath, hpc, hdue, hphase, hca, hhealth, hpipe⟩ :=
    exists_healthTurn cfg hs
  have hready : t.ca.state = .ready := by rw [hca, hs.reported]
  have hnone : t.ca.childPid = none := by rw [hca, hs.untracked]
  let env : HealthEnv := .answers .refused 0
  rcases probe_refused t.health with ⟨-, hresult⟩ | ⟨hbelow, hresult, -⟩
  · obtain ⟨k, hcheck, hlog⟩ :=
      healthCheck_restarts cfg env hready hnone hresult
    refine ⟨t, .health env, _, hpath, rfl, step_healthCheck hpc hdue hcheck, ?_⟩
    have hspawned := spawnsIn_start cfg t.ca.halted k 0
    rw [hlog] at hspawned
    exact hspawned
  · have hcheck := healthCheck_degraded cfg env hready hresult
    have hprobed := step_healthCheck hpc hdue hcheck
    generalize hu : ({ t with
      health := (t.health.probe env.outcome).1
      sys := { t.sys with
        kernel := (t.kernel.advance env.took).emit (.healthProbe env.outcome) }
      lastHealth := ((t.kernel.advance env.took).emit
        (.healthProbe env.outcome)).now
      pc := .reset } : Daemon) = u at hprobed
    obtain ⟨v, hreset, hpc'⟩ := exists_resetCounts cfg (s := u) (by rw [← hu])
    have hv : Phantom v ∧ v.health = (t.health.probe .refused).1 := by
      obtain ⟨-, vm, k, ca, k', hvm, hca', rfl⟩ := step_resetCounts hreset
      subst hu
      obtain ⟨-, -, hpipe₁⟩ := maybeReset_frame hvm
      obtain ⟨hpid, hstate, hpipe₂⟩ := maybeReset_frame hca'
      refine ⟨⟨rfl, hphase, hpid.trans hnone, hstate.trans hready, ?_⟩, rfl⟩
      have hsame : k'.pipe = t.kernel.pipe := hpipe₂.trans hpipe₁
      rw [← hsame] at hpipe
      exact hpipe
    have hfewer : v.health.patience < s.health.patience := by
      rw [hv.2, ← hhealth]
      exact patience_refused hbelow
    obtain ⟨u', l, v', hrest, hl, hstep, hspawned⟩ :=
      ih v.health.patience hfewer v hv.1 rfl
    have hround : Path (step cfg) (fun _ l => l.isOperator = false) s v :=
      (hpath.tail ⟨_, rfl, hprobed⟩).tail ⟨_, rfl, hreset⟩
    exact ⟨u', l, v', hround.trans hrest, hl, hstep, hspawned⟩

/-! ## Runs -/

/-- As long as no step gives the CA up, it is abandoned in no state in which no
shutdown is requested. -/
theorem never_abandoned
    (hreach : Reach cfg (fun s l => ¬ GivesUp cfg s l) s)
    (hterm : 'T' ∉ s.kernel.pipe) : ¬ Abandoned cfg s := by
  intro h
  have hs := reach_supervised hreach
  have hpc := h.pc
  rcases hs.kept h.startup with hexited | hpanicked | hlooked
  · cases hpc.symm.trans hexited
  · cases hpc.symm.trans hpanicked
  by_cases hreported : s.ca.state = .ready
  · exact h.lost (Phantom.restartable _ s
      ⟨hpc, h.startup, h.untracked, hreported, hterm⟩ rfl)
  · exact hlooked ⟨h.untracked, hreported, h.wanted, Or.inl h.strikes⟩

/-- A crash that is followed by a restart does not give the CA up. -/
theorem never_abandoned_caCrash :
    ∃ s, after (bootUp ++ caCrash) = some s ∧ s.startup = .complete ∧
      s.ca.crashCount = 1 ∧ ¬ Abandoned Config.default s := by
  obtain ⟨s, hafter, hphase, hcount, hterm⟩ := exists_after (bootUp ++ caCrash)
    (P := fun s => s.startup = .complete ∧ s.ca.crashCount = 1 ∧
      'T' ∉ s.kernel.pipe) (by decide)
  have halong : Along (step Config.default)
      (fun s l => ¬ GivesUp Config.default s l)
      (init Config.default 0) (bootUp ++ caCrash) := by decide
  exact ⟨s, hafter, hphase, hcount,
    never_abandoned (reach_of_after hafter halong) hterm⟩

/-- After the startup nothing but a command starts a CA at rest. -/
theorem not_restartable_of_atRest (hphase : s.startup = .complete)
    (hrest : s.ca.AtRest) : ¬ Restartable cfg s := by
  rintro ⟨u, l, v, hpath, hl, hstep, hspawned⟩
  have hcomplete : ∀ v m w, m.isOperator = false → v.startup = .complete →
      step cfg v m = some w → w.startup = .complete := by
    intro v m w _ hv hvw
    exact (step_isFinal (by rw [hv]; rfl) hvw).trans hv
  have hguard : ∀ v m, m.isOperator = false ∧ v.startup = .complete →
      m.isOperator = false ∧ ¬ MachineActs cfg v m .ca :=
    fun v m hm => ⟨hm.1, not_machineActs_of_isFinal (by rw [hm.2]; rfl)⟩
  have hu : u.startup = .complete := hpath.preserves hcomplete hphase
  have hwithin := hpath.within hcomplete hphase
  obtain ⟨-, hbefore⟩ := path_rests (r := .ca) hrest (hwithin.mono hguard)
  obtain ⟨-, hafter⟩ := path_rests (r := .ca) hrest
    (Path.mono hguard (hwithin.tail ⟨l, ⟨hl, hu⟩, hstep⟩))
  exact hspawned (hafter.trans hbefore.symm)

/-- CA 200 dies, and its binary is gone when it is reaped. -/
def caLost : List Label :=
  [.exit 200, .deliverChld, .poll .incoming, .drain,
    .waitpid (some (200, .code 1)) .missing] ++ restOfIteration

/-- The restart after a crash fails on a booted daemon, and nothing but a
command will start the CA again. -/
theorem abandoned_afterCrash :
    ∃ s, Reachable Config.default s ∧ Abandoned Config.default s := by
  obtain ⟨s, hafter, hpc, hphase, hcount, hstopped, hnone, hstate, hsince⟩ :=
    exists_after (bootUp ++ caLost)
      (P := fun s => s.pc = .poll ∧ s.startup = .complete ∧
        s.ca.crashCount < 5 ∧ stoppedSinceStart s.kernel.log = false ∧
        s.ca.childPid = none ∧ s.ca.state = .idle ∧ s.ca.readySince = none)
      (by decide)
  have hrest : s.ca.AtRest :=
    ⟨hnone, by simp [hstate], by simp [hstate], hsince⟩
  exact ⟨s, reach_of_after hafter (.of_forall (fun _ _ => trivial) _ _),
    ⟨hpc, hphase, hcount, hstopped, hnone,
      not_restartable_of_atRest hphase hrest⟩⟩

end Teeproxyd
