import Teeproxyd.Fleet.Cause

/-!
# The daemon's log is the story of its fleet

Every step of the daemon extends the log by events that lead, one after the
other, from the fleet before the step to the fleet after it, and each of them
has its cause in the step.  The proof follows the functions of the source
bottom up: the system calls, `graceful_kill`, `start` and `stop`, and then
each of the callers.
-/

namespace Teeproxyd

open ProcessTable EventLog

variable {cfg : Config} {s : Daemon} {l : Label}

theorem find_freshPid (k : Kernel) (hint : Pid) :
    k.table.find (Table.freshPid (k.table.pids ++ k.others) hint) = none := by
  rw [Table.find_eq_none_iff]
  have hfresh := Table.freshPid_notMem (k.table.pids ++ k.others) hint
  exact fun h => hfresh (List.mem_append_left _ h)

/-- What holds across the system calls of a step: the clock does not go back,
only the quiet steps touch the self-pipe and clear a pending SIGCHLD, a child
that becomes a zombie raises it, and only the startup machine probes vsock. -/
structure Continues (l : Label) (k k' : Kernel) : Prop where
  now : k.now ≤ k'.now
  pipe : l.isQuiet = false → k'.pipe = k.pipe
  pending : l.isQuiet = false → k.chldPending = true → k'.chldPending = true
  zombies : l.isQuiet = false → ∀ pid, k'.table.isZombie pid = true →
    k.table.isZombie pid = true ∨ k'.chldPending = true
  probes : l.isStartup = false →
    Kernel.vsockProbes k'.log = Kernel.vsockProbes k.log

namespace Continues

variable {k k' k'' : Kernel}

theorem trans (h : Continues l k k') (h' : Continues l k' k'') :
    Continues l k k'' where
  now := Nat.le_trans h.now h'.now
  pipe hl := (h'.pipe hl).trans (h.pipe hl)
  pending hl hk := h'.pending hl (h.pending hl hk)
  zombies hl pid hpid := by
    rcases h'.zombies hl pid hpid with hpid | hpending
    · exact (h.zombies hl pid hpid).imp_right (h'.pending hl)
    · exact Or.inr hpending
  probes hl := (h'.probes hl).trans (h.probes hl)

/-- Nothing but the clock, the crosvm processes and the log is touched, or
SIGCHLD is raised. -/
theorem of_table (hnow : k.now ≤ k'.now) (hpipe : k'.pipe = k.pipe)
    (hpending : k.chldPending = true → k'.chldPending = true)
    (htable : k'.table = k.table)
    (hprobes : l.isStartup = false →
      Kernel.vsockProbes k'.log = Kernel.vsockProbes k.log) :
    Continues l k k' where
  now := hnow
  pipe _ := hpipe
  pending _ := hpending
  zombies _ pid hpid := Or.inl (by rwa [htable] at hpid)
  probes := hprobes

theorem refl (k : Kernel) : Continues l k k :=
  of_table (Nat.le_refl _) rfl id rfl fun _ => rfl

theorem emit (k : Kernel) (e : Event)
    (he : l.isStartup = false → ∀ ok, e ≠ .vsockProbe ok) :
    Continues l k (k.emit e) := by
  refine of_table (Nat.le_refl _) rfl id rfl fun hl => ?_
  cases e with
  | vsockProbe ok => exact absurd rfl (he hl ok)
  | _ => rfl

theorem advance (k : Kernel) (d : ℕ) : Continues l k (k.advance d) :=
  of_table (Nat.le_add_right _ _) rfl id rfl fun _ => rfl

theorem runHelper (k : Kernel) (took : ℕ) : Continues l k (k.runHelper took) :=
  of_table (Nat.le_add_right _ _) rfl (fun _ => rfl) rfl fun _ => rfl

theorem probe {env : StartupEnv} (k : Kernel) (ok : Bool) (took : ℕ) :
    Continues (.startup env) k (VmManager.probeVsock k ok took) :=
  (runHelper k took).trans (emit _ _ nofun)

theorem exitProc (k : Kernel) (pid : Pid) : Continues l k (k.exitProc pid) where
  now := Nat.le_refl _
  pipe _ := rfl
  pending _ _ := rfl
  zombies _ _ _ := Or.inr rfl
  probes _ := rfl

theorem reap (k : Kernel) (pid : Pid) : Continues l k (k.reap pid) where
  now := Nat.le_refl _
  pipe _ := rfl
  pending _ := id
  zombies _ q hq := by
    left
    have hq : (k.table.reap pid).isZombie q = true := hq
    rw [Table.isZombie, Table.find_reap] at hq
    split at hq
    next => cases hq
    next => exact hq
  probes _ := rfl

theorem spawn (k : Kernel) (r : Role) (hint : Pid) (command : Command) :
    Continues l k (k.spawn r hint command).1 where
  now := Nat.le_refl _
  pipe _ := rfl
  pending _ := id
  zombies _ q hq := by
    left
    have hq : (k.table.spawn r
        (Table.freshPid (k.table.pids ++ k.others) hint)).isZombie q = true := hq
    rw [Table.isZombie, Table.find_spawn k.table (find_freshPid k hint)] at hq
    split at hq
    next => cases hq
    next => exact hq
  probes _ := rfl

end Continues

/-- Kernel `k'` continues `k`, and its log that of `k` by the story of how
managers `mgr` over `k` became `mgr'` over `k'`. -/
def Tells (cfg : Config) (s : Daemon) (l : Label)
    (mgr : Role → Manager) (k : Kernel) (mgr' : Role → Manager) (k' : Kernel) :
    Prop :=
  Continues l k k' ∧ ∃ log, k'.log = log ++ k.log ∧
    Story Happens (Cause cfg s l) ⟨mgr, k.table⟩ log ⟨mgr', k'.table⟩

namespace Tells

variable {mgr mgr' mgr'' : Role → Manager} {k k' k'' : Kernel}

theorem quiet (hk : Continues l k k') (hlog : k'.log = k.log)
    (htable : k'.table = k.table) : Tells cfg s l mgr k mgr k' := by
  refine ⟨hk, [], by simpa using hlog, ?_⟩
  rw [htable]
  exact .nil _

theorem refl : Tells cfg s l mgr k mgr k := quiet (.refl k) rfl rfl

theorem event {t : Instant} {e : Event} (hk : Continues l k k')
    (hlog : k'.log = (t, e) :: k.log)
    (why : Cause cfg s l ⟨mgr, k.table⟩ (t, e))
    (now : Happens ⟨mgr, k.table⟩ (t, e) ⟨mgr', k'.table⟩) :
    Tells cfg s l mgr k mgr' k' :=
  ⟨hk, [(t, e)], by simpa using hlog, .single why now⟩

theorem trans (h : Tells cfg s l mgr k mgr' k')
    (h' : Tells cfg s l mgr' k' mgr'' k'') :
    Tells cfg s l mgr k mgr'' k'' := by
  obtain ⟨hk, log, hlog, hstory⟩ := h
  obtain ⟨hk', log', hlog', hstory'⟩ := h'
  exact ⟨hk.trans hk', log' ++ log, by rw [hlog', hlog, List.append_assoc],
    hstory.append hstory'⟩

end Tells

/-! ## System calls -/

section Kernel

variable {mgr : Role → Manager} (k : Kernel)

theorem tells_advance (d : ℕ) : Tells cfg s l mgr k mgr (k.advance d) :=
  .quiet (.advance k d) rfl rfl

theorem tells_exitProc {pid : Pid} (h : k.table.isAlive pid = true) :
    Tells cfg s l mgr k mgr (k.exitProc pid) := by
  obtain ⟨r, hr⟩ := Table.isAlive_iff.mp h
  exact .event (.exitProc k pid) rfl trivial (.exited hr)

theorem tells_kill {r : Role} {pid : Pid} (sig : Signal)
    (htracked : (mgr r).childPid = some pid) :
    Tells cfg s l mgr k mgr (k.kill pid sig) := by
  have hsent : Tells cfg s l mgr k mgr
      (k.emit (.signalled pid sig (k.childOf pid))) :=
    .event (.emit k _ nofun) rfl trivial (.signalled htracked)
  cases sig with
  | sigterm => exact hsent
  | sigkill =>
      simp only [Kernel.kill]
      split
      next halive => exact hsent.trans (tells_exitProc _ halive)
      next => exact hsent

theorem tells_sleep (d : ℕ) (pid : Pid) (env : KillEnv) :
    Tells cfg s l mgr k mgr (sleep k d pid env) := by
  have hslept : Tells cfg s l mgr k mgr (k.advance (d + env.lag k.now)) :=
    tells_advance k _
  simp only [sleep]
  split
  next h =>
    simp only [Bool.and_eq_true] at h
    exact hslept.trans (tells_exitProc _ h.2)
  next => exact hslept

theorem tells_pkillChildren {r : Role} {pid : Pid}
    (htracked : (mgr r).childPid = some pid) :
    Tells cfg s l mgr k mgr (k.pkillChildren pid) :=
  .event (.of_table (Nat.le_refl _) rfl (fun _ => rfl) rfl fun _ => rfl) rfl
    trivial (.pkilledChildren htracked)

theorem tells_pkillCrosvm : Tells cfg s l mgr k mgr k.pkillCrosvm :=
  .event (.of_table (Nat.le_refl _) rfl (fun _ => rfl) rfl fun _ => rfl) rfl
    trivial .pkilledCrosvm

end Kernel

/-! ## No running child holds a pid -/

/-- No running child holds the pid. -/
def Ended (k : Kernel) (pid : Pid) : Prop := ∀ r, ¬ k.table.AliveOf r pid

section Ended

variable {k : Kernel} {pid : Pid}

theorem ended_exitProc (k : Kernel) (pid : Pid) : Ended (k.exitProc pid) pid := by
  intro r hr
  exact ((Table.aliveOf_exit k.table).mp hr).1 rfl

theorem ended_of_not_isAlive (h : k.table.isAlive pid = false) :
    Ended k pid := by
  intro r hr
  have halive := Table.isAlive_iff.mpr ⟨r, hr⟩
  rw [h] at halive
  contradiction

theorem ended_of_free (h : isAlive k pid = false) : Ended k pid := by
  intro r hr
  have hmem : pid ∈ k.table.pids := by
    rw [← Table.find_isSome_iff, show k.table.find pid = some _ from hr]
    rfl
  simp [isAlive, hmem] at h

theorem ended_sigkill (k : Kernel) (pid : Pid) :
    Ended (k.kill pid .sigkill) pid := by
  simp only [Kernel.kill]
  split
  next => exact ended_exitProc _ pid
  next h => exact ended_of_not_isAlive (by simpa using h)

theorem Ended.sleep (h : Ended k pid) (d : ℕ) (env : KillEnv) :
    Ended (sleep k d pid env) pid := by
  simp only [Teeproxyd.sleep]
  split
  next => exact ended_exitProc _ pid
  next => exact h

theorem Ended.pkillChildren (h : Ended k pid) :
    Ended (k.pkillChildren pid) pid := h

theorem Ended.pkillCrosvm (h : Ended k pid) : Ended k.pkillCrosvm pid := h

end Ended

/-! ## `graceful_kill`, `start` and `stop` -/

theorem tells_gracefulPoll {mgr : Role → Manager} {pid : Pid}
    {deadline : Instant} {env : KillEnv} (n : ℕ) (k : Kernel) :
    Tells cfg s l mgr k mgr (gracefulPoll pid deadline env n k).1 ∧
      ((gracefulPoll pid deadline env n k).2 = true →
        Ended (gracefulPoll pid deadline env n k).1 pid) := by
  induction n generalizing k with
  | zero => exact ⟨.refl, by simp [gracefulPoll]⟩
  | succ n ih =>
      simp only [gracefulPoll]
      split
      next =>
        split
        next hfree =>
          exact ⟨.refl, fun _ => ended_of_free (by simpa using hfree)⟩
        next =>
          obtain ⟨htells, hended⟩ := ih (sleep k (fromMillis 200) pid env)
          exact ⟨(tells_sleep k _ pid env).trans htells, hended⟩
      next => exact ⟨.refl, by simp⟩

theorem tells_awaitDeadline {mgr : Role → Manager} {r : Role} {pid : Pid}
    {deadline : Instant} {env : KillEnv} (k : Kernel)
    (htracked : (mgr r).childPid = some pid) :
    Tells cfg s l mgr k mgr (awaitDeadline k pid deadline env).1 ∧
      Ended (awaitDeadline k pid deadline env).1 pid := by
  unfold awaitDeadline
  generalize pollBound k.now deadline = n
  obtain ⟨hpoll, hended⟩ :
      Tells cfg s l mgr k mgr (gracefulPoll pid deadline env n k).1 ∧ _ :=
    tells_gracefulPoll n k
  generalize gracefulPoll pid deadline env n k = result at hpoll hended ⊢
  obtain ⟨k', early⟩ := result
  cases early with
  | true => exact ⟨hpoll, hended rfl⟩
  | false =>
      refine ⟨hpoll.trans ((tells_kill k' .sigkill htracked).trans
        (tells_sleep _ _ pid env)), ?_⟩
      exact (ended_sigkill k' pid).sleep _ env

/-- What `graceful_kill` does, whether it returns or panics, it does to the
pid it is given, and that process has ended when it returns. -/
theorem tells_gracefulKill {mgr : Role → Manager} {r : Role} {pid : Pid}
    {graceSecs : UInt64} {env : KillEnv} (k : Kernel)
    (htracked : (mgr r).childPid = some pid) :
    (∀ k', gracefulKill k pid graceSecs env = .error k' →
      Tells cfg s l mgr k mgr k') ∧
    (∀ k' b, gracefulKill k pid graceSecs env = .ok (k', b) →
      Tells cfg s l mgr k mgr k' ∧ Ended k' pid) := by
  unfold gracefulKill
  have hterm : Tells cfg s l mgr k mgr (k.kill pid .sigterm) :=
    tells_kill k .sigterm htracked
  generalize k.kill pid .sigterm = k₁ at hterm
  by_cases hfree : isAlive k pid
  · rw [if_neg (by simp [hfree])]
    dsimp only
    cases Instant.plus k₁.now (fromSecs graceSecs) with
    | none =>
        refine ⟨fun k' h => ?_, fun k' b h => by simp at h⟩
        obtain rfl : k₁ = k' := Except.error.inj h
        exact hterm
    | some deadline =>
        refine ⟨fun k' h => by simp at h, fun k' b h => ?_⟩
        obtain ⟨hawait, hended⟩ :
            Tells cfg s l mgr k₁ mgr (awaitDeadline k₁ pid deadline env).1 ∧
              _ :=
          tells_awaitDeadline k₁ htracked
        rw [Except.ok.inj h] at hawait hended
        exact ⟨hterm.trans hawait, hended⟩
  · rw [if_pos (by simp [hfree])]
    refine ⟨fun k' h => by simp at h, fun k' b h => ?_⟩
    obtain ⟨rfl, -⟩ := Prod.mk.inj (Except.ok.inj h)
    exact ⟨.refl, ended_of_free (by simpa using hfree)⟩

theorem tells_start {mgr : Role → Manager} {r : Role} {env : StartEnv}
    (k : Kernel) (hcalls : CallsStart cfg s l ⟨mgr, k.table⟩ r env) :
    Tells cfg s l mgr k
      (Function.update mgr r (r.start cfg (mgr r) k env).1)
      (r.start cfg (mgr r) k env).2.1 := by
  rcases start_cases cfg r (mgr r) k env with
    ⟨-, e, hstart⟩ | ⟨hfailed, e, hstart⟩ | ⟨hstarted, hint, command, hstart⟩
  · rw [hstart, Function.update_eq_self]
    exact .refl
  · rw [hstart]
    exact .event (.emit k _ nofun) rfl ⟨env, hcalls, hfailed⟩ .spawnFailed
  · rw [hstart]
    exact .event ((Continues.advance k _).trans (.spawn _ r hint command)) rfl
      ⟨env, hcalls, hstarted⟩
      (.spawned (find_freshPid (k.advance env.spawn.took) hint))

theorem tells_stopWith {mgr : Role → Manager} {r : Role} {graceSecs : UInt64}
    {sweep : Kernel → Pid → Kernel} {env : KillEnv} (k : Kernel)
    (hstops : StopsChild cfg s l r)
    (hsweep : ∀ pid k, (mgr r).childPid = some pid → Ended k pid →
      Tells cfg s l mgr k mgr (sweep k pid) ∧ Ended (sweep k pid) pid) :
    (∀ k', (mgr r).stopWith k r graceSecs sweep env = .error k' →
      Tells cfg s l mgr k mgr k') ∧
    (∀ m k', (mgr r).stopWith k r graceSecs sweep env = .ok (m, k') →
      Tells cfg s l mgr k (Function.update mgr r m) k') := by
  have hrelease : ∀ k : Kernel,
      (∀ pid, (mgr r).childPid = some pid → Ended k pid) →
      Tells cfg s l mgr k (Function.update mgr r (mgr r).halted)
        (k.emit (.stopped r)) :=
    fun k hended => .event (.emit k _ nofun) rfl hstops (.stopped hended)
  rcases stopWith_cases (mgr r) k r graceSecs sweep env with
    ⟨hnone, hstop⟩ | ⟨pid, htracked, ⟨k₁, hkill, hstop⟩ |
      ⟨k₁, gone, hkill, hstop⟩⟩
  · refine ⟨fun k' h => ?_, fun m k' h => ?_⟩
    · cases hstop.symm.trans h
    · cases hstop.symm.trans h
      exact hrelease k (by simp [hnone])
  · refine ⟨fun k' h => ?_, fun m k' h => ?_⟩
    · cases hstop.symm.trans h
      exact (tells_gracefulKill k htracked).1 _ hkill
    · cases hstop.symm.trans h
  · refine ⟨fun k' h => ?_, fun m k' h => ?_⟩
    · cases hstop.symm.trans h
    · cases hstop.symm.trans h
      obtain ⟨hkilled, hended⟩ := (tells_gracefulKill k htracked).2 _ _ hkill
      obtain ⟨hswept, hended⟩ := hsweep pid k₁ htracked hended
      refine hkilled.trans (hswept.trans (hrelease _ ?_))
      intro q hq
      obtain rfl : pid = q := Option.some.inj (htracked.symm.trans hq)
      exact hended

theorem tells_stop {mgr : Role → Manager} {r : Role} {env : KillEnv}
    (k : Kernel) (hstops : StopsChild cfg s l r) :
    (∀ k', r.stop cfg (mgr r) k env = .error k' →
      Tells cfg s l mgr k mgr k') ∧
    (∀ m k', r.stop cfg (mgr r) k env = .ok (m, k') →
      Tells cfg s l mgr k (Function.update mgr r m) k') := by
  cases r with
  | vm =>
      refine tells_stopWith k hstops fun pid k htracked hended => ⟨?_, ?_⟩
      · exact (tells_kill k .sigkill htracked).trans
          ((tells_pkillChildren _ htracked).trans (tells_pkillCrosvm _))
      · exact (ended_sigkill k pid).pkillChildren.pkillCrosvm
  | ca => exact tells_stopWith k hstops fun pid k _ hended => ⟨.refl, hended⟩

/-! ## The callers -/

/-- `Tells` between two systems. -/
def SysTells (cfg : Config) (s : Daemon) (l : Label) (sys sys' : Sys) : Prop :=
  Tells cfg s l sys.mgr sys.kernel sys'.mgr sys'.kernel

namespace SysTells

variable {sys sys' sys'' : Sys}

theorem refl : SysTells cfg s l sys sys := Tells.refl

theorem trans (h : SysTells cfg s l sys sys')
    (h' : SysTells cfg s l sys' sys'') : SysTells cfg s l sys sys'' :=
  Tells.trans h h'

/-- The managers are left alone. -/
theorem ofKernel {k : Kernel}
    (h : Tells cfg s l sys.mgr sys.kernel sys.mgr k) :
    SysTells cfg s l sys { sys with kernel := k } := h

theorem ofSet {r : Role} {m : Manager} {k : Kernel}
    (h : Tells cfg s l sys.mgr sys.kernel (Function.update sys.mgr r m) k) :
    SysTells cfg s l sys (sys.set r m k) := by
  unfold SysTells
  rwa [Sys.set_mgr, Sys.set_kernel]

end SysTells

theorem sysTells_start {sys : Sys} {r : Role} {env : StartEnv} {m : Manager}
    {k : Kernel} {result : Except String Unit}
    (hcalls : CallsStart cfg s l sys.fleet r env)
    (hstart : r.start cfg (sys.mgr r) sys.kernel env = (m, k, result)) :
    SysTells cfg s l sys (sys.set r m k) := by
  have htells := tells_start sys.kernel hcalls
  rw [hstart] at htells
  exact .ofSet htells

theorem sysTells_stop {sys : Sys} {r : Role} {env : KillEnv} {m : Manager}
    {k : Kernel} (hstops : StopsChild cfg s l r)
    (hstop : r.stop cfg (sys.mgr r) sys.kernel env = .ok (m, k)) :
    SysTells cfg s l sys (sys.set r m k) :=
  .ofSet ((tells_stop sys.kernel hstops).2 m k hstop)

theorem sysTells_stop_error {sys : Sys} {r : Role} {env : KillEnv}
    {k : Kernel} (hstops : StopsChild cfg s l r)
    (hstop : r.stop cfg (sys.mgr r) sys.kernel env = .error k) :
    SysTells cfg s l sys { sys with kernel := k } :=
  .ofKernel ((tells_stop sys.kernel hstops).1 k hstop)

theorem sysTells_ready {r : Role} {k : Kernel} {t : Instant}
    (htells : Tells cfg s l s.sys.mgr s.kernel s.sys.mgr k)
    (htable : k.table = s.kernel.table) (hmarks : marksReady s l r = true)
    (ht : t = k.now) :
    SysTells cfg s l s.sys
      (s.sys.set r ((s.sys.mgr r).setState .ready t) (k.emit (.ready r))) := by
  subst ht
  refine .ofSet (htells.trans (.event (.emit k _ nofun) rfl ⟨?_, hmarks⟩ .ready))
  rw [htable]
  rfl

/-- `advance_startup`. -/
theorem sysTells_advances {env : StartupEnv} {phase : StartupPhase} {sys : Sys}
    (h : Advances cfg s.sys env s.startup phase sys) :
    SysTells cfg s (.startup env) s.sys sys := by
  have hcalls : ∀ r env', env.call s.startup r = some env' →
      CallsStart cfg s (.startup env) s.sys.fleet r env' :=
    fun r env' h => Or.inl ⟨rfl, h⟩
  generalize hphase : s.startup = before at h hcalls
  cases h with
  | final => exact .refl
  | vmRestart => exact .refl
  | caRestart => exact .refl
  | vmStarted hstart => exact sysTells_start (hcalls .vm _ rfl) hstart
  | vmNotStarted hstart => exact sysTells_start (hcalls .vm _ rfl) hstart
  | delay => exact .refl
  | vsockTimeout => exact .refl
  | vsockUp hintime hup =>
      refine sysTells_ready (r := .vm)
        (.event (.probe s.kernel true env.vsockTook) rfl trivial .vsockProbe)
        rfl ?_ rfl
      exact marksReady_iff.mpr
        ⟨env, rfl, Or.inl ⟨rfl, _, _, hphase, hintime, hup⟩⟩
  | vsockDown =>
      exact .ofKernel (.event (.probe s.kernel false env.vsockTook) rfl trivial
        .vsockProbe)
  | caStarted hstart => exact sysTells_start (hcalls .ca _ rfl) hstart
  | caNotStarted hstart => exact sysTells_start (hcalls .ca _ rfl) hstart
  | portUp hup =>
      refine sysTells_ready (r := .ca)
        (.event ((Continues.advance _ _).trans (.emit _ _ nofun)) rfl trivial
          .portProbe)
        rfl ?_ rfl
      exact marksReady_iff.mpr ⟨env, rfl, Or.inr ⟨rfl, _, hphase, hup⟩⟩
  | portTimeout =>
      exact .ofKernel (.event ((Continues.advance _ _).trans (.emit _ _ nofun))
        rfl trivial .portProbe)
  | portDown =>
      exact .ofKernel (.event ((Continues.advance _ _).trans (.emit _ _ nofun))
        rfl trivial .portProbe)

theorem ended_of_isZombie {k : Kernel} {pid : Pid}
    (h : k.table.isZombie pid = true) : Ended k pid := by
  intro q hq
  obtain ⟨r, hr⟩ := Table.isZombie_iff.mp h
  have hsame : some (⟨pid, q, true⟩ : Proc Role) = some ⟨pid, r, false⟩ :=
    hq.symm.trans hr
  simp at hsame

/-- The tracked child of a manager is reaped. -/
theorem sysTells_died {sys : Sys} {r : Role} {pid : Pid}
    (hreaps : l.reaps = some pid)
    (hcause : (s.sys.mgr r).childPid = some pid)
    (htracked : (sys.mgr r).childPid = some pid) (hended : Ended sys.kernel pid) :
    SysTells cfg s l sys
      (sys.set r (sys.mgr r).markDead
        ((sys.kernel.reap pid).emit (.died r pid))) :=
  .ofSet (.event ((Continues.reap _ pid).trans (.emit _ _ nofun)) rfl
    ⟨hreaps, hcause⟩ (.died htracked hended))

/-- Five strikes. -/
theorem sysTells_condemned {sys : Sys} {r : Role} {pid : Pid} {t : Instant}
    (hreaps : l.reaps = some pid)
    (hcause : (s.sys.mgr r).childPid = some pid)
    (hstrikes : 5 ≤ (sys.mgr r).crashCount)
    (hnone : (sys.mgr r).childPid = none)
    (hsince : (sys.mgr r).readySince = none) :
    SysTells cfg s l sys
      (sys.set r ((sys.mgr r).setState .error t)
        (sys.kernel.emit (.condemned r))) :=
  .ofSet (.event (.emit _ _ nofun) rfl ⟨pid, hreaps, hcause⟩
    (.condemned hstrikes hnone hsince))

/-- `handle_child_death`. -/
theorem sysTells_handleChildDeath {raw : Option (Pid × ExitStatus)}
    {env : StartEnv} {pid : Pid}
    (hreaps : (Label.waitpid raw env).reaps = some pid)
    (hended : Ended s.kernel pid) :
    SysTells cfg s (.waitpid raw env) s.sys
      (handleChildDeath cfg pid { s.sys with kernel := s.kernel.reap pid }
        env) := by
  unfold handleChildDeath
  split
  next hvm =>
    have hvm : s.vm.childPid = some pid := by simpa [Manager.ownsPid] using hvm
    have hdied : SysTells cfg s (.waitpid raw env) s.sys
        (s.sys.set .vm s.vm.markDead
          ((s.kernel.reap pid).emit (.died .vm pid))) :=
      sysTells_died hreaps hvm hvm hended
    dsimp only
    split
    next hstrikes =>
      exact hdied.trans
        (sysTells_condemned (r := .vm) hreaps hvm hstrikes rfl rfl)
    next => exact hdied
  next hvm =>
  have hvm : s.vm.childPid ≠ some pid := by simpa [Manager.ownsPid] using hvm
  split
  next hca =>
    have hca : s.ca.childPid = some pid := by simpa [Manager.ownsPid] using hca
    have hdied : SysTells cfg s (.waitpid raw env) s.sys
        (s.sys.set .ca s.ca.markDead
          ((s.kernel.reap pid).emit (.died .ca pid))) :=
      sysTells_died hreaps hca hca hended
    dsimp only
    split
    next hcount =>
      have hcalls : CallsStart cfg s (.waitpid raw env)
          (s.sys.set .ca s.ca.markDead
            ((s.kernel.reap pid).emit (.died .ca pid))).fleet .ca env :=
        Or.inr ⟨rfl, rfl, rfl, pid, hreaps, hvm, hca, hcount⟩
      exact hdied.trans (sysTells_start hcalls rfl)
    next hcount =>
      exact hdied.trans (sysTells_condemned (r := .ca) hreaps hca
        (UInt32.not_lt.mp hcount) rfl rfl)
  next hca =>
  have hca : s.ca.childPid ≠ some pid := by simpa [Manager.ownsPid] using hca
  refine .ofKernel (.event ((Continues.reap _ pid).trans (.emit _ _ nofun)) rfl
    hreaps (.discarded ?_ hended))
  rintro (_ | _)
  · exact hvm
  · exact hca

/-- One iteration of `reap_children`. -/
theorem sysTells_reapIteration {raw : Option (Pid × ExitStatus)}
    {env : StartEnv} (hreports : waitpidReports s.kernel raw = true) :
    SysTells cfg s (.waitpid raw env) s.sys
      (reapIteration cfg raw s.sys env).1 := by
  cases raw with
  | none => exact .refl
  | some report =>
      obtain ⟨pid, status⟩ := report
      have hended : Ended s.kernel pid := ended_of_isZombie hreports
      rcases reapIteration_some pid status env with
        ⟨hreaps, -, hiter⟩ | ⟨-, hloses, hiter⟩
      · rw [hiter]
        exact sysTells_handleChildDeath hreaps hended
      · rw [hiter]
        exact .ofKernel (.event
          ((Continues.reap _ pid).trans (.emit _ _ nofun)) rfl ⟨rfl, hloses⟩ (.lost hended))

/-- The probe of `healthCheck`. -/
theorem sysTells_probed (sys : Sys) (env : HealthEnv) :
    SysTells cfg s l sys
      { sys with
        kernel := (sys.kernel.advance env.took).emit
          (.healthProbe env.outcome) } :=
  .ofKernel (.event ((Continues.advance _ _).trans (.emit _ _ nofun)) rfl
    trivial .healthProbe)

/-- `healthCheck`, when the interval has passed. -/
theorem sysTells_healthCheck {env : HealthEnv} {health : HealthMonitor}
    {sys : Sys} (hdue : healthDue cfg s)
    (hcheck : Checks cfg s.health s.sys env (.ok (health, sys))) :
    SysTells cfg s (.health env) s.sys sys := by
  cases hcheck with
  | idle => exact .refl
  | probed => exact sysTells_probed s.sys env
  | @restarted k hup hverdict hstop =>
      have hrestarts : healthRestarts cfg s env := ⟨hdue, hup, hverdict⟩
      have hstops : StopsChild cfg s (.health env) .ca := ⟨rfl, hrestarts⟩
      have hstopped := (sysTells_probed s.sys env).trans
        (sysTells_stop (r := .ca) hstops hstop)
      have hcalls : CallsStart cfg s (.health env)
          (s.sys.set .ca s.ca.halted k).fleet .ca env.start := by
        refine Or.inr ⟨rfl, ?_, rfl, hrestarts⟩
        simp [Sys.fleet, Sys.set, Manager.halted]
      exact hstopped.trans (sysTells_start hcalls rfl)

theorem sysTells_healthCheck_error {env : HealthEnv} {k : Kernel}
    (hdue : healthDue cfg s)
    (hcheck : Checks cfg s.health s.sys env (.error k)) :
    SysTells cfg s (.health env) s.sys { s.sys with kernel := k } := by
  cases hcheck with
  | stopPanics hup hverdict hstop =>
      have hstops : StopsChild cfg s (.health env) .ca :=
        ⟨rfl, hdue, hup, hverdict⟩
      exact (sysTells_probed s.sys env).trans
        (sysTells_stop_error (r := .ca) hstops hstop)

/-- `ca.stop` followed by `vm.stop`, in `stop_all` and at the shutdown. -/
theorem sysTells_stopBoth {caKill vmKill : KillEnv}
    (hstops : ∀ r, StopsChild cfg s l r) {ca vm : Manager} {k k' : Kernel}
    (hca : CaManager.stop cfg s.ca s.kernel caKill = .ok (ca, k))
    (hvm : VmManager.stop cfg s.vm k vmKill = .ok (vm, k')) :
    SysTells cfg s l s.sys ⟨vm, ca, k'⟩ := by
  have hca : SysTells cfg s l s.sys (s.sys.set .ca ca k) :=
    sysTells_stop (hstops .ca) hca
  exact hca.trans (sysTells_stop (r := .vm) (hstops .vm) hvm)

theorem sysTells_stopBoth_error {caKill vmKill : KillEnv}
    (hstops : ∀ r, StopsChild cfg s l r) {ca : Manager} {k k' : Kernel}
    (hca : CaManager.stop cfg s.ca s.kernel caKill = .ok (ca, k))
    (hvm : VmManager.stop cfg s.vm k vmKill = .error k') :
    SysTells cfg s l s.sys ⟨s.vm, ca, k'⟩ := by
  have hca : SysTells cfg s l s.sys (s.sys.set .ca ca k) :=
    sysTells_stop (hstops .ca) hca
  exact hca.trans (sysTells_stop_error (r := .vm) (hstops .vm) hvm)

/-- One request. -/
theorem sysTells_dispatch (cfg : Config) (s : Daemon) (req : Value)
    (env : RequestEnv) (written : Bool) :
    (∀ k, dispatch cfg s.startup s.startedAt req s.sys env = .error k →
      ∃ sys, sys.kernel = k ∧
        SysTells cfg s (.request req env written) s.sys sys) ∧
    (∀ sys reply,
      dispatch cfg s.startup s.startedAt req s.sys env = .ok (sys, reply) →
      SysTells cfg s (.request req env written) s.sys sys) := by
  by_cases hstart : ∃ r env', env.call (requestCmd req) r = some env'
  · obtain ⟨r, env', hcall⟩ := hstart
    obtain ⟨reply', hdispatch⟩ :=
      dispatch_call cfg s.startup s.startedAt s.sys hcall
    rw [hdispatch]
    refine ⟨(fun k h => nomatch h), fun sys reply h => ?_⟩
    cases h
    exact sysTells_start (Or.inl ⟨rfl, hcall⟩) rfl
  have hcall : ∀ r, env.call (requestCmd req) r = none := by
    intro r
    by_contra hsome
    obtain ⟨env', h⟩ := Option.ne_none_iff_exists'.mp hsome
    exact hstart ⟨r, env', h⟩
  have hserves := dispatch_serves cfg s.startup s.startedAt s.sys hcall
  constructor
  · intro k h
    rw [h] at hserves
    generalize hcmd : requestCmd req = cmd at hserves
    cases hserves with
    | @stopPanics _ r _ hstops hstop =>
        have hstops : StopsChild cfg s (.request req env written) r := by
          simp [StopsChild, hcmd, hstops]
        exact ⟨_, rfl, sysTells_stop_error hstops hstop⟩
    | secondPanics hca hvm =>
        have hstops : ∀ r, StopsChild cfg s (.request req env written) r := by
          simp [StopsChild, hcmd, Cmd.stops]
        exact ⟨_, rfl, sysTells_stopBoth_error hstops hca hvm⟩
  · intro sys reply h
    rw [h] at hserves
    generalize hcmd : requestCmd req = cmd at hserves
    cases hserves with
    | asks => exact .refl
    | @stops _ r _ _ honly hstop =>
        have hstops : StopsChild cfg s (.request req env written) r := by
          simp [StopsChild, hcmd, (honly r).mpr rfl]
        exact sysTells_stop hstops hstop
    | stopsBoth hca hvm =>
        have hstops : ∀ r, StopsChild cfg s (.request req env written) r := by
          simp [StopsChild, hcmd, Cmd.stops]
        exact sysTells_stopBoth hstops hca hvm

theorem sysTells_maybeReset {sys : Sys} {r : Role} {m : Manager} {k : Kernel}
    (hl : l = .resetCounts)
    (h : (sys.mgr r).maybeResetCrashCount sys.kernel r = (m, k)) :
    SysTells cfg s l sys (sys.set r m k) := by
  unfold Manager.maybeResetCrashCount at h
  split at h
  next hstable =>
    cases h
    exact .ofSet (.event (.emit _ _ nofun) rfl hl (.countReset hstable))
  next =>
    cases h
    refine .ofSet ?_
    rw [Function.update_eq_self]
    exact .refl

/-! ## A step of the daemon -/

/-- The system a step leads to, as the log tells it; a panic forgets the
managers. -/
def Settles (t : Daemon) (sys : Sys) : Prop :=
  t.sys = sys ∨
    (t.pc = .panicked ∧ t.sys = ⟨Manager.new, Manager.new, sys.kernel⟩)

theorem Settles.crash {sys : Sys} {k : Kernel} (hk : sys.kernel = k) :
    Settles (s.crash k) sys := by
  subst hk
  exact Or.inr ⟨rfl, rfl⟩

/-- Every step of the daemon is told by what it adds to the log. -/
theorem step_story {t : Daemon} (hstep : step cfg s l = some t) :
    ∃ sys, SysTells cfg s l s.sys sys ∧ Settles t sys := by
  by_cases hquiet : l.isQuiet = true
  · have hframe := step_quiet hquiet hstep
    refine ⟨t.sys, ?_, Or.inl rfl⟩
    unfold SysTells
    rw [hframe.mgr]
    have hloud : l.isQuiet ≠ false := by simp [hquiet]
    have hcontinues : Continues l s.kernel t.kernel :=
      ⟨hframe.now, fun hl => absurd hl hloud, fun hl => absurd hl hloud,
        fun hl => absurd hl hloud,
        fun _ => congrArg Kernel.vsockProbes hframe.log⟩
    exact .quiet hcontinues hframe.log hframe.table
  cases l with
  | exit pid =>
      obtain ⟨halive, rfl⟩ := step_exit hstep
      exact ⟨_, .ofKernel (tells_exitProc _ halive), Or.inl rfl⟩
  | waitpid raw env =>
      obtain ⟨term, client, -, hreports, rfl⟩ := step_waitpid hstep
      exact ⟨_, sysTells_reapIteration hreports, Or.inl rfl⟩
  | request req env written =>
      obtain ⟨herror, hok⟩ := sysTells_dispatch cfg s req env written
      rcases step_request hstep with
        ⟨-, ⟨k, hdispatch, rfl⟩ | ⟨sys, reply, hdispatch, rfl⟩⟩
      · obtain ⟨sys, rfl, htells⟩ := herror _ hdispatch
        exact ⟨sys, htells, .crash rfl⟩
      · refine ⟨_, (hok _ _ hdispatch).trans (.ofKernel ?_), Or.inl rfl⟩
        exact .event (.emit _ _ nofun) rfl rfl .handled
  | startup env =>
      rcases step_startup hstep with
        ⟨-, ⟨k, r, m, env', hcall, hstart, -, rfl⟩ |
          ⟨phase, sys, hadv, rfl⟩⟩
      · exact ⟨s.sys.set r m k, sysTells_start (Or.inl ⟨rfl, hcall⟩) hstart,
          .crash (Sys.set_kernel _ _ _ _)⟩
      · exact ⟨sys, sysTells_advances hadv, Or.inl rfl⟩
  | health env =>
      rcases step_health hstep with
        ⟨-, ⟨-, rfl⟩ | ⟨hdue, k, hcheck, rfl⟩ | ⟨hdue, health, sys, hcheck, rfl⟩⟩
      · exact ⟨s.sys, .refl, Or.inl rfl⟩
      · exact ⟨_, sysTells_healthCheck_error hdue hcheck, .crash rfl⟩
      · exact ⟨sys, sysTells_healthCheck hdue hcheck, Or.inl rfl⟩
  | resetCounts =>
      obtain ⟨-, vm, k, ca, k', hvm, hca, rfl⟩ := step_resetCounts hstep
      have hvm : SysTells cfg s .resetCounts s.sys (s.sys.set .vm vm k) :=
        sysTells_maybeReset rfl hvm
      exact ⟨_, hvm.trans (sysTells_maybeReset (r := .ca) rfl hca), Or.inl rfl⟩
  | shutdown caKill vmKill =>
      have hstops : ∀ r, StopsChild cfg s (.shutdown caKill vmKill) r :=
        fun r => trivial
      rcases step_shutdown hstep with ⟨-, ⟨k, hca, rfl⟩ |
        ⟨ca, k, hca, ⟨k', hvm, rfl⟩ | ⟨vm, k', hvm, rfl⟩⟩⟩
      · have hca : SysTells cfg s (.shutdown caKill vmKill) s.sys
            { s.sys with kernel := k } :=
          sysTells_stop_error (hstops .ca) hca
        exact ⟨_, hca, .crash rfl⟩
      · exact ⟨_, sysTells_stopBoth_error hstops hca hvm, .crash rfl⟩
      · exact ⟨_, sysTells_stopBoth hstops hca hvm, Or.inl rfl⟩
  | _ => exact absurd rfl hquiet

theorem step_continues {t : Daemon} (hstep : step cfg s l = some t) :
    Continues l s.kernel t.kernel := by
  obtain ⟨sys, ⟨hcontinues, -⟩, hsettled | ⟨-, hgone⟩⟩ := step_story hstep
  · rw [← hsettled] at hcontinues
    exact hcontinues
  · have hkernel : t.kernel = sys.kernel := by rw [Daemon.kernel, hgone]
    rw [hkernel]
    exact hcontinues

/-! ## Invariants of the log and the fleet -/

/-- The invariant rule for one step: a property of the log and the fleet that
a panic keeps, and every event that has its cause in the step, survives the
step. -/
theorem step_invariant {I : List (Instant × Event) → Fleet → Prop}
    (hcrash : ∀ log f, I log f → I log ⟨fun _ => Manager.new, f.table⟩)
    (hevent : ∀ log f te g, Cause cfg s l f te → Happens f te g →
      I log f → I (te :: log) g)
    {t : Daemon} (hstep : step cfg s l = some t)
    (hs : I s.kernel.log s.sys.fleet) : I t.kernel.log t.sys.fleet := by
  obtain ⟨sys, ⟨-, log, hlog, hstory⟩, hsettles⟩ := step_story hstep
  have hsys : I sys.kernel.log sys.fleet := by
    rw [hlog]
    exact hstory.preserves_log hevent hs
  rcases hsettles with hsettled | ⟨-, hgone⟩
  · rw [Daemon.kernel, hsettled]
    exact hsys
  · have hnew : (⟨Manager.new, Manager.new, sys.kernel⟩ : Sys).fleet =
        ⟨fun _ => Manager.new, sys.fleet.table⟩ := by
      ext r <;> [cases r <;> rfl; rfl]
    rw [Daemon.kernel, hgone, hnew]
    exact hcrash _ _ hsys

theorem spawnsIn_cons {r : Role} {te : Instant × Event}
    {log : List (Instant × Event)}
    (h : ∀ pid command, te.2 ≠ .spawned r pid command) :
    Kernel.spawnsIn (te :: log) r = Kernel.spawnsIn log r := by
  obtain ⟨time, e⟩ := te
  cases e with
  | spawned q pid command =>
      have hqr : q ≠ r := by
        rintro rfl
        exact h pid command rfl
      simp [Kernel.spawnsIn, hqr]
  | _ => rfl

/-- A step that calls no `start` successfully spawns no child. -/
theorem step_not_spawns {r : Role} {t : Daemon} (hstep : step cfg s l = some t)
    (h : ∀ f env, CallsStart cfg s l f r env →
      startOutcome cfg r env ≠ .started) :
    Kernel.spawnsIn t.kernel.log r = Kernel.spawnsIn s.kernel.log r := by
  refine step_invariant (I := fun log _ =>
    Kernel.spawnsIn log r = Kernel.spawnsIn s.kernel.log r)
    (fun _ _ h => h) ?_ hstep rfl
  intro log f te g hcause hte hlog
  refine (spawnsIn_cons fun pid command he => ?_).trans hlog
  obtain ⟨env, hcalls, hstarted⟩ : ∃ env, CallsStart cfg s l f r env ∧
      startOutcome cfg r env = .started := by
    simpa [Cause, he] using hcause
  exact h f env hcalls hstarted

/-- A step none of whose events is about a role leaves its manager alone. -/
theorem step_untouched {r : Role} {t : Daemon} (hstep : step cfg s l = some t)
    (h : ∀ f te g, Cause cfg s l f te → Happens f te g →
      f.mgr r = s.sys.mgr r → te.2.subject ≠ some r) :
    t.pc = .panicked ∨ t.sys.mgr r = s.sys.mgr r := by
  obtain ⟨sys, ⟨-, log, hlog, hstory⟩, hsettled | ⟨hpanicked, -⟩⟩ :=
    step_story hstep
  · right
    rw [hsettled]
    refine hstory.preserves (I := fun f => f.mgr r = s.sys.mgr r) ?_ rfl
    intro f te g hcause hte hmgr
    rcases hte.changes r with ⟨-, hsame⟩ | hchanges
    · exact hsame.trans hmgr
    · exact absurd hchanges.subject (h f te g hcause hte hmgr)
  · exact Or.inl hpanicked

/-- The invariant rule for runs. -/
theorem reach_invariant {guard : Daemon → Label → Prop}
    {I : List (Instant × Event) → Fleet → Prop} (hnew : I [] Fleet.new)
    (hcrash : ∀ log f, I log f → I log ⟨fun _ => Manager.new, f.table⟩)
    (hevent : ∀ s l, guard s l → ∀ log f te g, Cause cfg s l f te →
      Happens f te g → I log f → I (te :: log) g)
    {s : Daemon} (hreach : Reach cfg guard s) :
    I s.kernel.log s.sys.fleet := by
  obtain ⟨now, hpath⟩ := hreach
  have hinit : (init cfg now).sys.fleet = Fleet.new := by
    ext r <;> [cases r <;> rfl; rfl]
  refine hpath.preserves (I := fun u => I u.kernel.log u.sys.fleet) ?_ ?_
  · intro u l t hguard hu hstep
    exact step_invariant hcrash (hevent u l hguard) hstep hu
  · rw [hinit]
    exact hnew

/-- The invariant rule for properties of a program that is still there, which a
panic need not keep. -/
theorem step_history {I : List (Instant × Event) → Fleet → Prop}
    (hevent : ∀ log f te g, Cause cfg s l f te → Happens f te g →
      I log f → I (te :: log) g)
    {t : Daemon} (hstep : step cfg s l = some t)
    (hs : s.pc = .panicked ∨ I s.kernel.log s.sys.fleet) :
    t.pc = .panicked ∨ I t.kernel.log t.sys.fleet := by
  rcases hs with hpanicked | hs
  · left
    exact (step_ended (by rw [hpanicked]; rfl) hstep).1.trans hpanicked
  obtain ⟨sys, ⟨-, log, hlog, hstory⟩, hsettled | ⟨hpanicked, -⟩⟩ :=
    step_story hstep
  · right
    rw [Daemon.kernel, hsettled, hlog]
    exact hstory.preserves_log hevent hs
  · exact Or.inl hpanicked

theorem reach_history {guard : Daemon → Label → Prop}
    {I : List (Instant × Event) → Fleet → Prop} (hnew : I [] Fleet.new)
    (hevent : ∀ s l, guard s l → ∀ log f te g, Cause cfg s l f te →
      Happens f te g → I log f → I (te :: log) g)
    {s : Daemon} (hreach : Reach cfg guard s) :
    s.pc = .panicked ∨ I s.kernel.log s.sys.fleet := by
  obtain ⟨now, hpath⟩ := hreach
  have hinit : (init cfg now).sys.fleet = Fleet.new := by
    ext r <;> [cases r <;> rfl; rfl]
  refine hpath.preserves
    (I := fun u => u.pc = .panicked ∨ I u.kernel.log u.sys.fleet) ?_ ?_
  · intro u l t hguard hu hstep
    exact step_history (hevent u l hguard) hstep hu
  · rw [hinit]
    exact Or.inr hnew

/-- `ready_since` is the log's record of when the manager became `Ready`. -/
theorem reach_readySince {guard : Daemon → Label → Prop} {s : Daemon}
    (hreach : Reach cfg guard s) : s.pc = .panicked ∨
      ∀ r, (s.sys.mgr r).readySince = readyMark s.kernel.log r :=
  reach_history (I := fun log f => ∀ r, (f.mgr r).readySince = readyMark log r)
    (fun _ => rfl) (fun _ _ _ _ _ _ _ _ hte hf => hte.readySince hf) hreach

/-! ## The managers are well formed -/

theorem step_wellFormed {t : Daemon} (hs : ∀ r, (s.sys.mgr r).WellFormed)
    (hstep : step cfg s l = some t) : ∀ r, (t.sys.mgr r).WellFormed :=
  step_invariant (I := fun _ f => ∀ r, (f.mgr r).WellFormed)
    (fun _ _ _ _ => Manager.wellFormed_new)
    (fun _ _ _ _ _ hte hf => hte.wellFormed hf) hstep hs

theorem reach_wellFormed {guard : Daemon → Label → Prop} {s : Daemon}
    (hreach : Reach cfg guard s) : ∀ r, (s.sys.mgr r).WellFormed :=
  reach_invariant (I := fun _ f => ∀ r, (f.mgr r).WellFormed)
    (fun _ => Manager.wellFormed_new) (fun _ _ _ _ => Manager.wellFormed_new)
    (fun _ _ _ _ _ _ _ _ hte hf => hte.wellFormed hf) hreach

end Teeproxyd
