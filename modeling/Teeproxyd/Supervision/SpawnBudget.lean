import Teeproxyd.Supervision.Strikes

/-!
# How many children a run may start

The daemon starts children on its own in three places: the startup machine, the
reap path and the health check.  The first two are paid for out of a budget that
nothing refills.  The startup machine calls each `start` once.  A crash restart
uses up one of four strikes, and the strikes are given back only to a CA that
was marked `Ready`, which the startup machine does once, so that the reap path
restarts the CA eight times at most in the life of the daemon.
-/

namespace Teeproxyd

open ProcessTable TransitionSystem

variable {cfg : Config} {s t : Daemon} {l : Label} {r : Role}

/-! ## The strikes that are left -/

/-- The crash restarts that a CA has left until its count stands at four.  From
one that has been `Ready` the count can be taken away. -/
def Manager.strikesLeft (m : Manager) : ℕ :=
  if m.readySince.isSome then 4 else 4 - m.crashCount.toNat

/-- The strikes that the startup machine may still give back, by marking the CA
`Ready`. -/
def StartupPhase.strikes (phase : StartupPhase) : ℕ :=
  if phase.isFinal then 0 else 4

/-- The crash restarts that a daemon has left. -/
def crashBudget (s : Daemon) : ℕ :=
  if s.pc = .panicked then 0 else s.startup.strikes + s.ca.strikesLeft

/-- A CA dies while its crash count stands at the largest `u32`. -/
def CountWraps (s : Daemon) (l : Label) : Prop :=
  l.reaps.any (fun pid => s.ca.childPid = some pid) = true ∧
    s.ca.crashCount + 1 = 0

instance : Decidable (CountWraps s l) := inferInstanceAs (Decidable (_ ∧ _))

section Manager

variable {m : Manager}

theorem strikesLeft_le (m : Manager) : m.strikesLeft ≤ 4 := by
  unfold Manager.strikesLeft
  split <;> omega

theorem strikesLeft_eq {m' : Manager} (hcount : m'.crashCount = m.crashCount)
    (hsince : m'.readySince = m.readySince) :
    m'.strikesLeft = m.strikesLeft := by
  rw [Manager.strikesLeft, hcount, hsince]
  rfl

theorem strikesLeft_halted (m : Manager) :
    m.halted.strikesLeft ≤ m.strikesLeft := by
  have hleft : m.halted.strikesLeft = 4 - m.crashCount.toNat := rfl
  rw [hleft]
  unfold Manager.strikesLeft
  split
  next => exact Nat.sub_le _ _
  next => exact Nat.le_refl _

theorem strikesLeft_start (cfg : Config) (r : Role) (m : Manager) (k : Kernel)
    (env : StartEnv) : (r.start cfg m k env).1.strikesLeft = m.strikesLeft := by
  rcases start_cases cfg r m k env with
    ⟨-, e, hstart⟩ | ⟨-, e, hstart⟩ | ⟨-, hint, command, hstart⟩ <;>
    rw [hstart] <;> exact strikesLeft_eq rfl rfl

theorem toNat_add_one {n : UInt32} (hn : n + 1 ≠ 0) :
    (n + 1).toNat = n.toNat + 1 := by
  have hlt : n.toNat < 2 ^ 32 := n.toNat_lt
  have hsum : (n + 1).toNat = (n.toNat + 1) % 2 ^ 32 := UInt32.toNat_add _ _
  rcases Nat.lt_or_ge (n.toNat + 1) (2 ^ 32) with hfits | hwraps
  · rw [hsum, Nat.mod_eq_of_lt hfits]
  · exfalso
    apply hn
    have hzero : n.toNat + 1 = 2 ^ 32 := by omega
    rw [hzero, Nat.mod_self] at hsum
    exact UInt32.toNat_inj.mp hsum

theorem strikesLeft_markDead (hwraps : m.crashCount + 1 ≠ 0) :
    m.markDead.strikesLeft + (if m.crashCount + 1 < 5 then 1 else 0) ≤
      m.strikesLeft := by
  have hnext := toNat_add_one hwraps
  have hdead : m.markDead.strikesLeft = 4 - (m.crashCount + 1).toNat := rfl
  have hleft : 4 - m.crashCount.toNat ≤ m.strikesLeft := by
    unfold Manager.strikesLeft
    split <;> omega
  rw [hdead, hnext]
  split
  next hfew =>
    have hfew : (m.crashCount + 1).toNat < 5 := hfew
    omega
  next => omega

end Manager

/-! ## Steps and the strikes -/

/-- Nothing but a death takes strikes away, and nothing but the startup machine
gives any back. -/
theorem step_strikesLeft (hreaps : l.reaps = none)
    (hstartup : l.isStartup = false) (hstep : step cfg s l = some t) :
    t.pc = .panicked ∨ t.ca.strikesLeft ≤ s.ca.strikesLeft := by
  refine step_history
    (I := fun _ f => (f.mgr .ca).strikesLeft ≤ s.ca.strikesLeft) ?_ hstep
    (Or.inr (Nat.le_refl _))
  rintro log f ⟨time, e⟩ g hcause hte hf
  rcases hte.changes .ca with ⟨-, hsame⟩ | hchanges
  · rw [hsame]
    exact hf
  refine Nat.le_trans ?_ hf
  generalize f.mgr .ca = m at hchanges
  generalize g.mgr .ca = m' at hchanges
  cases hchanges with
  | spawned => exact Nat.le_of_eq (strikesLeft_eq rfl rfl)
  | spawnFailed => exact Nat.le_of_eq (strikesLeft_eq rfl rfl)
  | condemned => exact Nat.le_of_eq (strikesLeft_eq rfl rfl)
  | stopped => exact strikesLeft_halted m
  | died =>
      obtain ⟨hdied, -⟩ : l.reaps = some _ ∧ _ := hcause
      cases hreaps.symm.trans hdied
  | ready =>
      obtain ⟨-, hmarks⟩ : _ ∧ marksReady s l .ca = true := hcause
      obtain ⟨env, rfl, -⟩ := marksReady_iff.mp hmarks
      cases hstartup
  | countReset hstable =>
      obtain ⟨since, hsince, -⟩ := (Option.any_eq_true _ _).mp hstable
      simp [Manager.strikesLeft, hsince]

theorem waitpid_strikesLeft {raw : Option (Pid × ExitStatus)} {env : StartEnv}
    (hwraps : ¬ CountWraps s (.waitpid raw env))
    (hstep : step cfg s (.waitpid raw env) = some t) :
    t.ca.strikesLeft + (crashRestarts s (.waitpid raw env)).toNat ≤
      s.ca.strikesLeft := by
  rcases waitpid_ca hstep with
    ⟨hrestarts, k, hca⟩ | ⟨hno, hsame | ⟨hmany, hnone⟩⟩
  · obtain ⟨pid, hreaps, hdeath⟩ := (Option.any_eq_true _ _).mp hrestarts
    obtain ⟨-, htracked, hfew⟩ := of_decide_eq_true hdeath
    have hcount : s.ca.crashCount + 1 ≠ 0 := by
      intro hzero
      exact hwraps ⟨by simp [hreaps, htracked], hzero⟩
    have hdead := strikesLeft_markDead hcount
    have hstart : (CaManager.start cfg s.ca.markDead k env).1.strikesLeft = _ :=
      strikesLeft_start cfg .ca s.ca.markDead k env
    rw [if_pos hfew] at hdead
    rw [hrestarts, hca, hstart]
    exact hdead
  · rw [hno, hsame]
    exact Nat.le_refl _
  · have hmany : 5 ≤ t.ca.crashCount.toNat := hmany
    have hnothing : t.ca.strikesLeft = 0 := by
      simp only [Manager.strikesLeft, hnone]
      simp
      omega
    rw [hno, hnothing]
    exact Nat.zero_le _

theorem strikes_le (phase : StartupPhase) : phase.strikes ≤ 4 := by
  unfold StartupPhase.strikes
  split <;> omega

theorem strikes_of_not_isFinal {phase : StartupPhase}
    (h : phase.isFinal = false) : phase.strikes = 4 := by
  rw [StartupPhase.strikes, h]
  rfl

/-- What the call that completes the startup gives back, the machine has kept
until then. -/
theorem Advances.strikesLeft {sys sys' : Sys} {env : StartupEnv}
    {phase phase' : StartupPhase} (h : Advances cfg sys env phase phase' sys') :
    phase'.strikes + sys'.ca.strikesLeft ≤
      phase.strikes + sys.ca.strikesLeft := by
  have hkept : phase.isFinal = false →
      sys'.ca.strikesLeft = sys.ca.strikesLeft →
      phase'.strikes + sys'.ca.strikesLeft ≤
        phase.strikes + sys.ca.strikesLeft := by
    intro hphase hsame
    have hmost := strikes_le phase'
    rw [strikes_of_not_isFinal hphase, hsame]
    omega
  have hstarted : ∀ {r : Role} {m : Manager} {k : Kernel} {env' : StartEnv}
      {result : Except String Unit},
      r.start cfg (sys.mgr r) sys.kernel env' = (m, k, result) →
      (sys.set r m k).ca.strikesLeft = sys.ca.strikesLeft := by
    intro r m k env' result hstart
    have hleft := strikesLeft_start cfg r (sys.mgr r) sys.kernel env'
    rw [hstart] at hleft
    cases r with
    | vm => rfl
    | ca => exact hleft
  cases h with
  | final => exact Nat.le_refl _
  | vmRestart hphase => exact hkept hphase rfl
  | caRestart hphase =>
      refine hkept ?_ rfl
      cases phase <;> cases hphase
      rfl
  | vmStarted hstart => exact hkept rfl (hstarted hstart)
  | vmNotStarted hstart => exact hkept rfl (hstarted hstart)
  | caStarted hstart => exact hkept rfl (hstarted hstart)
  | caNotStarted hstart => exact hkept rfl (hstarted hstart)
  | portUp =>
      have hmost := strikesLeft_le
        (sys.ca.setState .ready (sys.kernel.now + env.portTook))
      exact Nat.le_trans (Nat.add_le_add_left hmost 0) (Nat.le_add_right 4 _)
  | _ => exact hkept rfl rfl

theorem not_crashRestarts (hreaps : l.reaps = none) :
    crashRestarts s l = false := by
  simp [crashRestarts, hreaps]

theorem reaps_of_panicked (hpc : s.pc = .panicked ∨ t.pc = .panicked)
    (hstep : step cfg s l = some t) : l.reaps = none := by
  cases hreaps : l.reaps with
  | none => rfl
  | some pid =>
      obtain ⟨⟨term, client, hat⟩, env, rfl⟩ := step_reaps hreaps hstep
      rcases hpc with hpc | hpc <;> cases hat.symm.trans hpc

/-- A crash restart is paid for out of the budget, and nothing refills it. -/
theorem step_crashBudget (hwraps : ¬ CountWraps s l)
    (hstep : step cfg s l = some t) :
    crashBudget t + (crashRestarts s l).toNat ≤ crashBudget s := by
  by_cases hpanics : t.pc = .panicked
  · have hno := not_crashRestarts (s := s)
      (reaps_of_panicked (Or.inr hpanics) hstep)
    rw [hno, crashBudget, if_pos hpanics]
    exact Nat.zero_le _
  have hpc : s.pc ≠ .panicked := by
    intro hpc
    exact hpanics ((step_ended (by rw [hpc]; rfl) hstep).1.trans hpc)
  simp only [crashBudget, if_neg hpc, if_neg hpanics]
  cases l with
  | waitpid raw env =>
      have hleft := waitpid_strikesLeft hwraps hstep
      rw [step_startup_eq rfl hstep]
      omega
  | startup env =>
      rcases step_startup hstep with
        ⟨-, ⟨k, r, m, env', -, -, -, rfl⟩ | ⟨phase, sys, hadv, rfl⟩⟩
      · exact absurd rfl hpanics
      · exact hadv.strikesLeft
  | _ =>
      have hkept := (step_strikesLeft rfl rfl hstep).resolve_left hpanics
      rw [step_startup_eq rfl hstep]
      exact Nat.add_le_add_left hkept _

/-- The number of crash restarts in a run. -/
def crashRestartsIn (cfg : Config) (s : Daemon) (ls : List Label) : ℕ :=
  totalCost (step cfg) (fun s l => (crashRestarts s l).toNat) s ls

theorem crashRestartsIn_le {ls : List Label}
    (hcounts : Along (step cfg) (fun s l => ¬ CountWraps s l) s ls)
    (hrun : exec (step cfg) s ls = some t) :
    crashBudget t + crashRestartsIn cfg s ls ≤ crashBudget s := by
  unfold crashRestartsIn
  refine hcounts.totalCost_le ?_ hrun
  exact fun s l t hwraps hstep => step_crashBudget hwraps hstep

theorem crashBudget_init (cfg : Config) (now : Instant) :
    crashBudget (init cfg now) = if cfg.autoStart then 8 else 4 := by
  cases hauto : cfg.autoStart <;>
    simp [crashBudget, init, hauto, StartupPhase.strikes,
      StartupPhase.isFinal, Manager.strikesLeft, Manager.new]

/-- In every run in which the crash count does not wrap, the reap path restarts
the CA eight times at most, and four times at most if the startup machine is
switched off, whatever clients ask for, however long the run is and however
stable the CA is in between. -/
theorem crash_restarts_bounded {now : Instant} {ls : List Label}
    (hcounts : Along (step cfg) (fun s l => ¬ CountWraps s l) (init cfg now) ls)
    (hrun : exec (step cfg) (init cfg now) ls = some t) :
    crashRestartsIn cfg (init cfg now) ls ≤ if cfg.autoStart then 8 else 4 := by
  have hpaid := crashRestartsIn_le hcounts hrun
  rw [crashBudget_init] at hpaid
  exact Nat.le_trans (Nat.le_add_left _ _) hpaid

/-- Four CAs from `pid` on end one after the other, and each is restarted. -/
def fourStrikes (pid : Pid) : List Label :=
  [.exit pid, .deliverChld, .poll .incoming, .drain,
    .waitpid (some (pid, .code 1)) (.works (pid + 1))] ++
  strike (pid + 1) ++ strike (pid + 2) ++ strike (pid + 3) ++ restOfIteration

/-- Four CAs die before the port answers, and four more after the last of them
has been stable for a minute. -/
def eightRestarts : List Label :=
  bootCa ++ fourStrikes 200 ++ [.tick (fromSecs 60)] ++ goodRound ++
    fourStrikes 204

/-- The bound is reached. -/
theorem crash_restarts_bounded_eight :
    ∃ t, after eightRestarts = some t ∧
      crashRestartsIn Config.default (init Config.default 0) eightRestarts =
        8 := by
  obtain ⟨t, hafter, -⟩ := exists_after eightRestarts
    (P := fun t => t.ca.childPid = some 208) (by decide)
  have hmost : crashRestartsIn Config.default (init Config.default 0)
      eightRestarts ≤ 8 := crash_restarts_bounded (by decide) hafter
  refine ⟨t, hafter, Nat.le_antisymm hmost ?_⟩
  decide

/-! ## Whose starts they are -/

/-- The startup machine calls `start` for this role. -/
def machineCalls (s : Daemon) (l : Label) (r : Role) : Bool :=
  match l with
  | .startup env => (env.call s.startup r).isSome
  | _ => false

/-- A client's command calls `start` for this role. -/
def Label.orders (l : Label) (r : Role) : Bool :=
  match l with
  | .request req env _ => (env.call (requestCmd req) r).isSome
  | _ => false

/-- The health check restarts this child. -/
def probeRestarts (cfg : Config) (s : Daemon) (l : Label) : Role → Bool
  | .vm => false
  | .ca =>
      match l with
      | .health env => decide (healthRestarts cfg s env)
      | _ => false

/-- The reap path restarts this child. -/
def reapRestarts (s : Daemon) (l : Label) : Role → Bool
  | .vm => false
  | .ca => crashRestarts s l

/-- The calls of `start` that a step makes on its own. -/
def ownStarts (cfg : Config) (r : Role) (s : Daemon) (l : Label) : ℕ :=
  (machineCalls s l r).toNat + (reapRestarts s l r).toNat +
    (probeRestarts cfg s l r).toNat

/-- How many children of this role have been spawned. -/
def spawnCount (k : Kernel) (r : Role) : ℕ := (Kernel.spawnsIn k.log r).length

theorem spawnCount_start_le (cfg : Config) (q : Role) (m : Manager) (k : Kernel)
    (env : StartEnv) (r : Role) :
    spawnCount (q.start cfg m k env).2.1 r ≤
      spawnCount k r + (if q = r then 1 else 0) := by
  rcases start_cases cfg q m k env with
    ⟨-, e, hstart⟩ | ⟨-, e, hstart⟩ | ⟨-, hint, command, hstart⟩
  · rw [hstart]
    exact Nat.le_add_right _ _
  · rw [hstart]
    exact Nat.le_add_right _ _
  · rw [hstart]
    by_cases hqr : q = r
    · simp [spawnCount, Kernel.spawn, Kernel.emit, Kernel.advance,
        Kernel.spawnsIn, hqr]
    · simp [spawnCount, Kernel.spawn, Kernel.emit, Kernel.advance,
        Kernel.spawnsIn, hqr]

theorem Tells.spawnCount_eq {mgr mgr' : Role → Manager} {k k' : Kernel}
    (h : Tells cfg s l mgr k mgr' k')
    (hcalls : ∀ f env, ¬ CallsStart cfg s l f r env) :
    spawnCount k' r = spawnCount k r := by
  obtain ⟨-, log, hlog, hstory⟩ := h
  have hsame : Kernel.spawnsIn k'.log r = Kernel.spawnsIn k.log r := by
    rw [hlog]
    refine hstory.preserves_log
      (I := fun log _ => Kernel.spawnsIn log r = Kernel.spawnsIn k.log r) ?_ rfl
    intro log f te g hcause hte hlog
    refine (spawnsIn_cons fun pid command he => ?_).trans hlog
    obtain ⟨env, hcall, -⟩ : ∃ env, CallsStart cfg s l f r env ∧ _ := by
      simpa [Cause, he] using hcause
    exact hcalls f env hcall
  rw [spawnCount, hsame, spawnCount]

theorem spawnCount_stop {q : Role} {m : Manager} {k : Kernel} {env : KillEnv} :
    (∀ k', q.stop cfg m k env = .error k' → spawnCount k' r = spawnCount k r) ∧
    (∀ m' k', q.stop cfg m k env = .ok (m', k') →
      spawnCount k' r = spawnCount k r) := by
  -- the story of a stop is the same in whatever step it is made
  have hstops : StopsChild cfg (init cfg 0) (.shutdown env env) q := trivial
  have hcalls : ∀ f env', ¬ CallsStart cfg (init cfg 0) (.shutdown env env) f r
      env' := by
    rintro f env' (⟨-, hdirect⟩ | ⟨-, -, hauto⟩)
    · cases hdirect
    · exact hauto
  obtain ⟨herror, hok⟩ :=
    @tells_stop cfg _ _ (fun _ => m) q env k hstops
  exact ⟨fun k' h => (herror k' h).spawnCount_eq hcalls,
    fun m' k' h => (hok m' k' h).spawnCount_eq hcalls⟩

theorem step_spawnCount_eq (hstep : step cfg s l = some t)
    (hcalls : ∀ f env, ¬ CallsStart cfg s l f r env) :
    spawnCount t.kernel r = spawnCount s.kernel r := by
  have hsame := step_not_spawns hstep fun f env h => absurd h (hcalls f env)
  rw [spawnCount, hsame, spawnCount]

theorem waitpid_spawnCount {raw : Option (Pid × ExitStatus)} {env : StartEnv}
    (hstep : step cfg s (.waitpid raw env) = some t) :
    spawnCount t.kernel r ≤ spawnCount s.kernel r +
      (reapRestarts s (.waitpid raw env) r).toNat := by
  cases hrestarts : reapRestarts s (.waitpid raw env) r with
  | false =>
      refine Nat.le_of_eq (step_spawnCount_eq hstep ?_)
      rintro f env' (⟨-, hdirect⟩ | ⟨rfl, -, hauto⟩)
      · cases hdirect
      · have hcrash : crashRestarts s (.waitpid raw env) = false := hrestarts
        rw [(crashRestarts_of_autoRestart hauto).2] at hcrash
        cases hcrash
  | true =>
      cases r with
      | vm => cases hrestarts
      | ca =>
          obtain ⟨pid, hreaps, hdeath⟩ := (Option.any_eq_true _ _).mp hrestarts
          obtain ⟨hvm, hca, hfew⟩ := of_decide_eq_true hdeath
          obtain ⟨-, env', rfl⟩ := step_reaps hreaps hstep
          have hstart : handleChildDeath cfg pid
              { s.sys with kernel := s.kernel.reap pid } env' = _ :=
            handleChildDeath_restart _ hvm hca hfew
          rw [Daemon.kernel, hstart, Sys.set_kernel]
          exact spawnCount_start_le cfg .ca _ _ env' .ca

theorem request_spawnCount {req : Value} {env : RequestEnv} {written : Bool}
    (hstep : step cfg s (.request req env written) = some t) :
    spawnCount t.kernel r ≤ spawnCount s.kernel r +
      ((Label.request req env written).orders r).toNat := by
  cases hcall : env.call (requestCmd req) r with
  | none =>
      refine Nat.le_trans (Nat.le_of_eq (step_spawnCount_eq hstep ?_))
        (Nat.le_add_right _ _)
      rintro f env' (⟨-, hdirect⟩ | ⟨-, -, hauto⟩)
      · cases hcall.symm.trans hdirect
      · exact hauto
  | some env' =>
      obtain ⟨-, hsys⟩ := step_request_call hcall hstep
      have horders : (Label.request req env written).orders r = true := by
        simp [Label.orders, hcall]
      have hstart := spawnCount_start_le cfg r (s.sys.mgr r) s.kernel env' r
      rw [if_pos rfl] at hstart
      rw [Daemon.kernel, hsys, Sys.set_kernel, horders]
      exact hstart

theorem Advances.spawnCount_le {sys sys' : Sys} {env : StartupEnv}
    {phase phase' : StartupPhase} (h : Advances cfg sys env phase phase' sys') :
    spawnCount sys'.kernel r ≤
      spawnCount sys.kernel r + (env.call phase r).isSome.toNat := by
  have hstarted : ∀ {q : Role} {m : Manager} {k : Kernel} {env' : StartEnv}
      {result : Except String Unit}, env.call phase q = some env' →
      q.start cfg (sys.mgr q) sys.kernel env' = (m, k, result) →
      spawnCount (sys.set q m k).kernel r ≤
        spawnCount sys.kernel r + (env.call phase r).isSome.toNat := by
    intro q m k env' result hcall hstart
    have hmore := spawnCount_start_le cfg q (sys.mgr q) sys.kernel env' r
    rw [hstart] at hmore
    rw [Sys.set_kernel]
    refine Nat.le_trans hmore (Nat.add_le_add_left ?_ _)
    split
    next hqr =>
      subst hqr
      simp [hcall]
    next => exact Nat.zero_le _
  cases h with
  | vmStarted hstart => exact hstarted (q := .vm) rfl hstart
  | vmNotStarted hstart => exact hstarted (q := .vm) rfl hstart
  | caStarted hstart => exact hstarted (q := .ca) rfl hstart
  | caNotStarted hstart => exact hstarted (q := .ca) rfl hstart
  | vsockUp => rw [Sys.set_kernel]; exact Nat.le_add_right _ _
  | portUp => rw [Sys.set_kernel]; exact Nat.le_add_right _ _
  | _ => exact Nat.le_add_right _ _

theorem startup_spawnCount {env : StartupEnv}
    (hstep : step cfg s (.startup env) = some t) :
    spawnCount t.kernel r ≤ spawnCount s.kernel r +
      (machineCalls s (.startup env) r).toNat := by
  rcases step_startup hstep with
    ⟨-, ⟨k, q, m, env', hcall, hstart, -, rfl⟩ | ⟨phase, sys, hadv, rfl⟩⟩
  · have hmore := spawnCount_start_le cfg q (s.sys.mgr q) s.kernel env' r
    rw [hstart] at hmore
    refine Nat.le_trans hmore (Nat.add_le_add_left ?_ _)
    split
    next hqr =>
      subst hqr
      simp [machineCalls, hcall]
    next => exact Nat.zero_le _
  · exact hadv.spawnCount_le

theorem health_spawnCount {env : HealthEnv}
    (hstep : step cfg s (.health env) = some t) :
    spawnCount t.kernel r ≤ spawnCount s.kernel r +
      (probeRestarts cfg s (.health env) r).toNat := by
  have hstopped := @spawnCount_stop cfg r .ca s.ca
    ((s.kernel.advance env.took).emit (.healthProbe env.outcome)) env.kill
  rcases step_health hstep with
    ⟨-, ⟨-, rfl⟩ | ⟨-, k, hcheck, rfl⟩ | ⟨hdue, health, sys, hcheck, rfl⟩⟩
  · exact Nat.le_add_right _ _
  · cases hcheck with
    | stopPanics hup hverdict hstop =>
        exact Nat.le_trans (Nat.le_of_eq (hstopped.1 k hstop))
          (Nat.le_add_right _ _)
  · cases hcheck with
    | idle => exact Nat.le_add_right _ _
    | probed => exact Nat.le_add_right _ _
    | @restarted k hup hverdict hstop =>
        have hsame : spawnCount k r = spawnCount s.kernel r :=
          hstopped.2 _ k hstop
        have hmore := spawnCount_start_le cfg .ca s.ca.halted k env.start r
        rw [hsame] at hmore
        rw [Daemon.kernel, Sys.set_kernel]
        cases r with
        | vm => exact hmore
        | ca =>
            have hrestarts : probeRestarts cfg s (.health env) .ca = true :=
              decide_eq_true ⟨hdue, hup, hverdict⟩
            rw [hrestarts]
            exact hmore

theorem step_spawnCount_le (hstep : step cfg s l = some t) :
    spawnCount t.kernel r ≤ spawnCount s.kernel r +
      (ownStarts cfg r s l + (l.orders r).toNat) := by
  cases l with
  | waitpid raw env =>
      have hmore := waitpid_spawnCount (r := r) hstep
      simp only [ownStarts]
      omega
  | request req env written =>
      have hmore := request_spawnCount (r := r) hstep
      simp only [ownStarts]
      omega
  | startup env =>
      have hmore := startup_spawnCount (r := r) hstep
      simp only [ownStarts]
      omega
  | health env =>
      have hmore := health_spawnCount (r := r) hstep
      simp only [ownStarts]
      omega
  | _ =>
      refine Nat.le_trans (Nat.le_of_eq (step_spawnCount_eq hstep ?_))
        (Nat.le_add_right _ _)
      rintro f env (⟨-, hdirect⟩ | ⟨-, -, hauto⟩)
      · cases hdirect
      · exact hauto

/-! ## The startup machine -/

/-- The calls of `start` that the machine has left in a phase. -/
def StartupPhase.callsLeft : StartupPhase → Role → ℕ
  | vmStarting, _ => 1
  | waitingVsock _ _ _, .ca => 1
  | caStarting, .ca => 1
  | _, _ => 0

theorem Advances.callsLeft {sys sys' : Sys} {env : StartupEnv}
    {phase phase' : StartupPhase} (h : Advances cfg sys env phase phase' sys')
    (hwf : ∀ r, (sys.mgr r).WellFormed) :
    phase'.callsLeft r + (env.call phase r).isSome.toNat ≤
      phase.callsLeft r := by
  cases h with
  | final hfinal =>
      cases phase <;> first | exact Nat.le_refl _ | cases hfinal
  | vmRestart _ hdead => exact absurd hdead ((hwf .vm).not_isDead _)
  | caRestart _ hdead => exact absurd hdead ((hwf .ca).not_isDead _)
  | _ => cases r <;> simp [StartupPhase.callsLeft, StartupEnv.call]

/-- The calls of `start` that the machine has left. -/
def callBudget (r : Role) (s : Daemon) : ℕ :=
  if s.pc = .panicked then 0 else s.startup.callsLeft r

theorem step_callBudget (hwf : ∀ r, (s.sys.mgr r).WellFormed)
    (hstep : step cfg s l = some t) :
    callBudget r t + (machineCalls s l r).toNat ≤ callBudget r s := by
  cases l with
  | startup env =>
      obtain ⟨hpc, hresult⟩ := step_startup hstep
      have hbudget : callBudget r s = s.startup.callsLeft r := by
        simp [callBudget, hpc]
      rw [hbudget]
      rcases hresult with
        ⟨k, q, m, env', -, -, -, rfl⟩ | ⟨phase, sys, hadv, rfl⟩
      · have hcall : (env.call s.startup r).isSome.toNat ≤
            s.startup.callsLeft r := by
          cases s.startup <;> cases r <;>
            simp [StartupPhase.callsLeft, StartupEnv.call]
        exact Nat.le_trans (Nat.le_of_eq (Nat.zero_add _)) hcall
      · exact hadv.callsLeft hwf
  | _ =>
      have hsame : t.startup = s.startup := step_startup_eq rfl hstep
      unfold callBudget
      split
      next => exact Nat.zero_le _
      next hpanics =>
        have hpc : s.pc ≠ .panicked := by
          intro hpc
          exact hpanics ((step_ended (by rw [hpc]; rfl) hstep).1.trans hpc)
        rw [if_neg hpc, hsame]
        exact Nat.le_refl _

/-! ## All the children of a run -/

/-- The calls of `start` that the startup machine makes in a run. -/
def machineCallsIn (cfg : Config) (r : Role) (s : Daemon) (ls : List Label) :
    ℕ :=
  totalCost (step cfg) (fun s l => (machineCalls s l r).toNat) s ls

/-- The restarts that the health check makes in a run. -/
def probeRestartsIn (cfg : Config) (s : Daemon) (ls : List Label) : ℕ :=
  totalCost (step cfg) (fun s l => (probeRestarts cfg s l .ca).toNat) s ls

/-- The startup machine calls each `start` once at most. -/
theorem machineCallsIn_le {now : Instant} {ls : List Label}
    (hrun : exec (step cfg) (init cfg now) ls = some t) :
    machineCallsIn cfg r (init cfg now) ls ≤
      if cfg.autoStart then 1 else 0 := by
  have hwf : Along (step cfg) (fun s _ => ∀ r, (s.sys.mgr r).WellFormed)
      (init cfg now) ls := by
    refine Along.of_invariant (I := fun s => ∀ r, (s.sys.mgr r).WellFormed)
      (fun s l t _ hs hstep => step_wellFormed hs hstep) (fun s l _ hs => hs) ?_
      (.of_forall (fun _ _ => trivial) _ _)
    rintro (_ | _) <;> exact Manager.wellFormed_new
  have hpaid : callBudget r t + machineCallsIn cfg r (init cfg now) ls ≤
      callBudget r (init cfg now) := by
    unfold machineCallsIn
    refine hwf.totalCost_le ?_ hrun
    exact fun s l t hs hstep => step_callBudget hs hstep
  have hinit : callBudget r (init cfg now) =
      if cfg.autoStart then 1 else 0 := by
    cases hauto : cfg.autoStart <;>
      simp [callBudget, init, hauto, StartupPhase.callsLeft]
  rw [hinit] at hpaid
  exact Nat.le_trans (Nat.le_add_left _ _) hpaid

/-- In every run, as many children of a role are spawned at most as the startup
machine, the reap path, the health check and the clients together call its
`start`. -/
theorem spawnCount_le {now : Instant} {ls : List Label}
    (hrun : exec (step cfg) (init cfg now) ls = some t) :
    spawnCount t.kernel r ≤
      totalCost (step cfg) (ownStarts cfg r) (init cfg now) ls +
        ls.countP fun l => l.orders r := by
  have hall : Along (step cfg) (fun _ _ => True) (init cfg now) ls :=
    .of_forall (fun _ _ => trivial) _ _
  have hcount : spawnCount t.kernel r ≤ spawnCount (init cfg now).kernel r +
      totalCost (step cfg)
        (fun s l => ownStarts cfg r s l + (l.orders r).toNat)
        (init cfg now) ls := by
    refine hall.le_add_totalCost (fun s => spawnCount s.kernel r) ?_ hrun
    exact fun s l t _ hstep => step_spawnCount_le hstep
  have hnone : spawnCount (init cfg now).kernel r = 0 := rfl
  rw [totalCost_add, totalCost_label (fun l => l.orders r) hrun, hnone,
    Nat.zero_add] at hcount
  exact hcount

theorem ownStarts_eq (cfg : Config) (r : Role) (s : Daemon) (ls : List Label) :
    totalCost (step cfg) (ownStarts cfg r) s ls =
      machineCallsIn cfg r s ls +
        totalCost (step cfg) (fun s l => (reapRestarts s l r).toNat) s ls +
        totalCost (step cfg) (fun s l => (probeRestarts cfg s l r).toNat)
          s ls := by
  unfold ownStarts
  rw [totalCost_add, totalCost_add]
  rfl

/-- In every run in which the crash count does not wrap, the daemon spawns one
VM at most beyond those that clients ask for, and nine CAs at most beyond those
that clients ask for or that replace a CA which fails its health probes. -/
theorem spawns_bounded {now : Instant} {ls : List Label}
    (hcounts : Along (step cfg) (fun s l => ¬ CountWraps s l) (init cfg now) ls)
    (hrun : exec (step cfg) (init cfg now) ls = some t) :
    spawnCount t.kernel .vm ≤
        (if cfg.autoStart then 1 else 0) + ls.countP (fun l => l.orders .vm) ∧
      spawnCount t.kernel .ca ≤
        (if cfg.autoStart then 9 else 4) + ls.countP (fun l => l.orders .ca) +
          probeRestartsIn cfg (init cfg now) ls := by
  have hvm := spawnCount_le (r := .vm) hrun
  have hca := spawnCount_le (r := .ca) hrun
  rw [ownStarts_eq] at hvm hca
  have hvmCalls := machineCallsIn_le (r := .vm) hrun
  have hcaCalls := machineCallsIn_le (r := .ca) hrun
  have hpaid := crashRestartsIn_le hcounts hrun
  rw [crashBudget_init] at hpaid
  have hnever : totalCost (step cfg) (fun _ _ => 0) (init cfg now) ls = 0 :=
    totalCost_zero _ _
  have hreaped : totalCost (step cfg) (fun s l => (reapRestarts s l .vm).toNat)
      (init cfg now) ls = 0 := hnever
  have hprobed : totalCost (step cfg)
      (fun s l => (probeRestarts cfg s l .vm).toNat) (init cfg now) ls = 0 :=
    hnever
  have hcrashed : totalCost (step cfg) (fun s l => (reapRestarts s l .ca).toNat)
      (init cfg now) ls = crashRestartsIn cfg (init cfg now) ls := rfl
  have hfailed : totalCost (step cfg)
      (fun s l => (probeRestarts cfg s l .ca).toNat) (init cfg now) ls =
        probeRestartsIn cfg (init cfg now) ls := rfl
  rw [hreaped, hprobed] at hvm
  rw [hcrashed, hfailed] at hca
  constructor
  · omega
  · have hsum : (if cfg.autoStart then 9 else 4) =
        (if cfg.autoStart then 1 else 0) + if cfg.autoStart then 8 else 4 := by
      split <;> rfl
    omega

/-- The run with eight crash restarts: one VM, and nine CAs, none of which a
client has asked for. -/
theorem spawns_bounded_eight :
    ∃ t, after eightRestarts = some t ∧ spawnCount t.kernel .vm ≤ 1 ∧
      spawnCount t.kernel .ca = 9 := by
  obtain ⟨t, hafter, hnine⟩ := exists_after eightRestarts
    (P := fun t => 9 ≤ spawnCount t.kernel .ca) (by decide)
  obtain ⟨hvm, hca⟩ := spawns_bounded (by decide) hafter
  exact ⟨t, hafter, hvm, Nat.le_antisymm hca hnine⟩

end Teeproxyd
