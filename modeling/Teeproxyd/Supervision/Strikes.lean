import Teeproxyd.Supervision.Abandonment

/-!
# What counts as a strike

The crash count of a manager is kept by `mark_dead`, read by
`handle_child_death` and cleared by `maybe_reset_crash_count`.  It counts the
deaths of the manager's own children, each of them once, and no death of a
child that was stopped on purpose: a stopped child is recorded nowhere, and its
pid is not given to another child before it is reaped.

Both break when `waitpid` takes a recorded child from the kernel and fails to
decode how it ended.  That death is not counted, the pid stays recorded, and
the child that gets the pid next may be taken for it.
-/

namespace Teeproxyd

open ProcessTable TransitionSystem

variable {cfg : Config} {s t : Daemon} {l : Label} {r : Role}

/-! ## The deaths in the log -/

/-- The pid that a manager records, by the log. -/
def recordedPid : List (Instant × Event) → Role → Option Pid
  | [], _ => none
  | (_, .spawned q pid _) :: log, r =>
      if q = r then some pid else recordedPid log r
  | (_, .stopped q) :: log, r => if q = r then none else recordedPid log r
  | (_, .died q _) :: log, r => if q = r then none else recordedPid log r
  | _ :: log, r => recordedPid log r

/-- How many recorded children of a manager have been reaped since its crash
count was last cleared, or since the daemon's start.  A child whose wait status
could not be decoded has been reaped, too. -/
def deathsSinceReset : List (Instant × Event) → Role → ℕ
  | [], _ => 0
  | (_, .died q _) :: log, r =>
      if q = r then deathsSinceReset log r + 1 else deathsSinceReset log r
  | (_, .lost pid) :: log, r =>
      if recordedPid log r = some pid then deathsSinceReset log r + 1
      else deathsSinceReset log r
  | (_, .countReset q) :: log, r =>
      if q = r then 0 else deathsSinceReset log r
  | _ :: log, r => deathsSinceReset log r

theorem recordedPid_cons {te : Instant × Event} {log : List (Instant × Event)}
    (h : te.2.subject ≠ some r) :
    recordedPid (te :: log) r = recordedPid log r := by
  obtain ⟨time, e⟩ := te
  cases e with
  | spawned q pid command => exact if_neg fun hqr => h (congrArg some hqr)
  | stopped q => exact if_neg fun hqr => h (congrArg some hqr)
  | died q pid => exact if_neg fun hqr => h (congrArg some hqr)
  | _ => rfl

theorem deathsSinceReset_cons {te : Instant × Event}
    {log : List (Instant × Event)} (h : te.2.subject ≠ some r)
    (hkept : ∀ pid, te.2 = .lost pid → recordedPid log r ≠ some pid) :
    deathsSinceReset (te :: log) r = deathsSinceReset log r := by
  obtain ⟨time, e⟩ := te
  cases e with
  | died q pid => exact if_neg fun hqr => h (congrArg some hqr)
  | countReset q => exact if_neg fun hqr => h (congrArg some hqr)
  | lost pid => exact if_neg (hkept pid rfl)
  | _ => rfl

/-! ## The count and the deaths -/

/-- The manager's pid and count are what the log says, the count modulo
`2 ^ 32`. -/
structure Accounts (log : List (Instant × Event)) (r : Role) (m : Manager) :
    Prop where
  pid : m.childPid = recordedPid log r
  count : m.crashCount.toNat = deathsSinceReset log r % 2 ^ 32

theorem Accounts.new (r : Role) : Accounts [] r Manager.new := ⟨rfl, rfl⟩

theorem Changes.accounts {time : Instant} {e : Event} {m m' : Manager}
    {log : List (Instant × Event)} (h : Changes time r m e m')
    (hm : Accounts log r m) : Accounts ((time, e) :: log) r m' := by
  cases h with
  | spawned => exact ⟨(if_pos rfl).symm, hm.count⟩
  | spawnFailed => exact ⟨hm.pid, hm.count⟩
  | stopped => exact ⟨(if_pos rfl).symm, hm.count⟩
  | condemned => exact ⟨hm.pid, hm.count⟩
  | ready => exact ⟨hm.pid, hm.count⟩
  | @died pid htracked =>
      refine ⟨(if_pos rfl).symm, ?_⟩
      have hdeaths : deathsSinceReset ((time, .died r pid) :: log) r =
          deathsSinceReset log r + 1 := if_pos rfl
      have hcount : (m.crashCount + 1).toNat =
          (m.crashCount.toNat + 1) % 2 ^ 32 := UInt32.toNat_add _ _
      rw [hdeaths]
      have hmark : m.markDead.crashCount.toNat = _ := hcount
      rw [hmark, hm.count]
      omega
  | countReset =>
      refine ⟨hm.pid, ?_⟩
      have hdeaths : deathsSinceReset ((time, .countReset r) :: log) r = 0 :=
        if_pos rfl
      rw [hdeaths]
      rfl

/-- In a run that loses no recorded child, the managers of a program that is
still there keep count of the deaths. -/
theorem reach_accounts (hreach : Reach cfg (fun s l => ¬ LosesTracked s l) s) :
    s.pc = .panicked ∨ ∀ r, Accounts s.kernel.log r (s.sys.mgr r) := by
  refine reach_history (I := fun log f => ∀ r, Accounts log r (f.mgr r))
    Accounts.new ?_ hreach
  intro u l hkept log f te g hcause hte hf r
  rcases hte.changes r with ⟨hsubject, hsame⟩ | hchanges
  · have hlost : ∀ pid, te.2 = .lost pid → recordedPid log r ≠ some pid := by
      intro pid he hrecorded
      exact not_tracked_of_lost hkept hcause pid he r
        ((hf r).pid.trans hrecorded)
    refine ⟨?_, ?_⟩
    · rw [hsame, recordedPid_cons hsubject]
      exact (hf r).pid
    · rw [hsame, deathsSinceReset_cons hsubject hlost]
      exact (hf r).count
  · exact hchanges.accounts (hf r)

/-! ## What `handle_child_death` does about a death -/

/-- `handle_child_death` calls `ca.start`: whatever the system answers, it leaves
behind what that start leaves behind. -/
def RestartsCa (cfg : Config) (pid : Pid) (sys : Sys) : Prop :=
  ∃ ca k, ∀ env, handleChildDeath cfg pid sys env =
    sys.set .ca (CaManager.start cfg ca k env).1
      (CaManager.start cfg ca k env).2.1

theorem handleChildDeath_restart (sys : Sys) {pid : Pid} {env : StartEnv}
    (hvm : sys.vm.childPid ≠ some pid) (hca : sys.ca.childPid = some pid)
    (hcount : sys.ca.crashCount + 1 < 5) :
    handleChildDeath cfg pid sys env =
      sys.set .ca
        (CaManager.start cfg sys.ca.markDead (sys.kernel.emit (.died .ca pid))
          env).1
        (CaManager.start cfg sys.ca.markDead (sys.kernel.emit (.died .ca pid))
          env).2.1 := by
  have hcount : (Manager.markDead sys.ca).crashCount < 5 := hcount
  simp [handleChildDeath, Manager.ownsPid, hvm, hca, hcount, Sys.set]

theorem handleChildDeath_condemn (sys : Sys) {pid : Pid} {env : StartEnv}
    (hvm : sys.vm.childPid ≠ some pid) (hca : sys.ca.childPid = some pid)
    (hcount : ¬ sys.ca.crashCount + 1 < 5) :
    handleChildDeath cfg pid sys env =
      sys.set .ca (sys.ca.markDead.setState .error sys.kernel.now)
        ((sys.kernel.emit (.died .ca pid)).emit (.condemned .ca)) := by
  have hcount : ¬ (Manager.markDead sys.ca).crashCount < 5 := hcount
  unfold handleChildDeath
  rw [if_neg (by simp [Manager.ownsPid, hvm]),
    if_pos (by simp [Manager.ownsPid, hca])]
  dsimp only
  rw [if_neg hcount]
  rfl

theorem restartsCa_iff (cfg : Config) (pid : Pid) (sys : Sys) :
    RestartsCa cfg pid sys ↔ sys.vm.childPid ≠ some pid ∧
      sys.ca.childPid = some pid ∧ sys.ca.crashCount + 1 < 5 := by
  have hquiet : (∀ env env', handleChildDeath cfg pid sys env =
      handleChildDeath cfg pid sys env') → ¬ RestartsCa cfg pid sys := by
    rintro hsame ⟨ca, k, hstart⟩
    have hboth := congrArg Sys.kernel
      ((hstart (.works 0)).symm.trans ((hsame _ _).trans (hstart .missing)))
    rw [Sys.set_kernel, Sys.set_kernel] at hboth
    apply spawnsIn_start cfg ca k 0
    rw [hboth]
    rfl
  by_cases hvm : sys.vm.childPid = some pid
  · refine iff_of_false (hquiet fun env env' => ?_) fun h => h.1 hvm
    simp [handleChildDeath, Manager.ownsPid, hvm]
  by_cases hca : sys.ca.childPid = some pid
  · by_cases hcount : sys.ca.crashCount + 1 < 5
    · exact iff_of_true ⟨sys.ca.markDead, sys.kernel.emit (.died .ca pid),
        fun env => handleChildDeath_restart sys hvm hca hcount⟩ ⟨hvm, hca, hcount⟩
    · refine iff_of_false (hquiet fun env env' => ?_) fun h => hcount h.2.2
      have hcount : ¬ (Manager.markDead sys.ca).crashCount < 5 := hcount
      simp only [handleChildDeath, if_neg hcount]
  · refine iff_of_false (hquiet fun env env' => ?_) fun h => hca h.2.1
    simp [handleChildDeath, Manager.ownsPid, hvm, hca]

/-- The fifth strike puts a manager into `Error`. -/
theorem handleChildDeath_error {pid : Pid} {sys : Sys} {env : StartEnv}
    (htracked : (sys.mgr r).childPid = some pid)
    (hother : r = .ca → sys.vm.childPid ≠ some pid)
    (hcount : ¬ (sys.mgr r).crashCount + 1 < 5) :
    ((handleChildDeath cfg pid sys env).mgr r).state = .error := by
  cases r with
  | vm =>
      obtain ⟨-, -, hstate⟩ : _ ∧ _ ∧ (handleChildDeath cfg pid sys env).vm.state =
          if sys.vm.crashCount + 1 < 5 then .idle else .error :=
        handleChildDeath_vm sys htracked
      exact hstate.trans (if_neg hcount)
  | ca =>
      have hvm : sys.vm.childPid ≠ some pid := hother rfl
      have htracked : sys.ca.childPid = some pid := htracked
      rw [handleChildDeath_condemn sys hvm htracked hcount]
      rfl

theorem handleChildDeath_deaths {pid : Pid} {sys : Sys} {env : StartEnv}
    (htracked : (sys.mgr r).childPid = some pid)
    (hother : r = .ca → sys.vm.childPid ≠ some pid) :
    deathsSinceReset (handleChildDeath cfg pid sys env).kernel.log r =
      deathsSinceReset sys.kernel.log r + 1 := by
  cases r with
  | vm =>
      have htracked : sys.vm.childPid = some pid := htracked
      unfold handleChildDeath
      rw [if_pos (by simp [Manager.ownsPid, htracked])]
      dsimp only
      split <;> simp [Kernel.emit, deathsSinceReset]
  | ca =>
      have hvm : sys.vm.childPid ≠ some pid := hother rfl
      have htracked : sys.ca.childPid = some pid := htracked
      have hdied : deathsSinceReset (sys.kernel.emit (.died .ca pid)).log .ca =
          deathsSinceReset sys.kernel.log .ca + 1 := if_pos rfl
      unfold handleChildDeath
      rw [if_neg (by simp [Manager.ownsPid, hvm]),
        if_pos (by simp [Manager.ownsPid, htracked])]
      dsimp only
      split
      next =>
        rw [← hdied]
        rcases start_cases cfg .ca (Manager.markDead sys.ca)
          (sys.kernel.emit (.died .ca pid)) env with
          ⟨-, e, hstart⟩ | ⟨-, e, hstart⟩ | ⟨-, hint, command, hstart⟩
        · have hstart : CaManager.start cfg _ _ env = _ := hstart
          rw [hstart]
        · have hstart : CaManager.start cfg _ _ env = _ := hstart
          rw [hstart]
          rfl
        · have hstart : CaManager.start cfg _ _ env = _ := hstart
          rw [hstart]
          rfl
      next => exact hdied

/-! ## Five strikes -/

/-- In a run that loses no recorded child, a manager's crash count is the
number of its children that have been reaped since the count was cleared.  The
reaping of a CA is followed by `ca.start` if it is one of the first four of
them, and nothing else that is reaped is; from the fifth on, the manager is in
`Error`. -/
theorem strikes_accounted
    (hreach : Reach cfg (fun s l => ¬ LosesTracked s l) t)
    (hfew : ∀ r, deathsSinceReset t.kernel.log r < 2 ^ 32) :
    (t.pc = .panicked ∨ ∀ r, (t.sys.mgr r).crashCount.toNat =
      deathsSinceReset t.kernel.log r) ∧
    ∀ s l pid, Reach cfg (fun s l => ¬ LosesTracked s l) s →
      l.reaps = some pid → step cfg s l = some t →
      (RestartsCa cfg pid { s.sys with kernel := s.kernel.reap pid } ↔
        s.ca.childPid = some pid ∧ deathsSinceReset t.kernel.log .ca ≤ 4) ∧
      ∀ r, (s.sys.mgr r).childPid = some pid →
        deathsSinceReset t.kernel.log r =
          deathsSinceReset s.kernel.log r + 1 ∧
        (5 ≤ deathsSinceReset t.kernel.log r →
          (t.sys.mgr r).state = .error) := by
  refine ⟨(reach_accounts hreach).imp_right fun h r => ?_, ?_⟩
  · rw [(h r).count]
    exact Nat.mod_eq_of_lt (hfew r)
  intro s l pid hs hreaps hstep
  obtain ⟨⟨term, client, hpc⟩, env, ht⟩ := step_reaps hreaps hstep
  have hsys : t.sys = _ := congrArg Daemon.sys ht
  have haccounts : ∀ r, Accounts s.kernel.log r (s.sys.mgr r) := by
    rcases reach_accounts hs with hpanicked | h
    · cases hpc.symm.trans hpanicked
    · exact h
  have hdistinct : s.ca.childPid = some pid → s.vm.childPid ≠ some pid :=
    fun hca hvm => (trackingSound hs).2.1 pid hvm hca
  have hdeaths : ∀ r, (s.sys.mgr r).childPid = some pid →
      deathsSinceReset t.kernel.log r =
        deathsSinceReset s.kernel.log r + 1 := by
    intro r htracked
    rw [Daemon.kernel, hsys]
    refine handleChildDeath_deaths htracked ?_
    rintro rfl
    exact hdistinct htracked
  -- the reaped death is among the counted ones, so the count does not wrap
  have hcount : ∀ r, (s.sys.mgr r).childPid = some pid →
      ((s.sys.mgr r).crashCount + 1 < 5 ↔
        deathsSinceReset t.kernel.log r ≤ 4) := by
    intro r htracked
    have hlt := hfew r
    have hc := (haccounts r).count
    rw [hdeaths r htracked] at hlt ⊢
    rw [Nat.mod_eq_of_lt (by omega)] at hc
    have hnext : ((s.sys.mgr r).crashCount + 1).toNat =
        deathsSinceReset s.kernel.log r + 1 := by
      rw [UInt32.toNat_add, hc]
      exact Nat.mod_eq_of_lt hlt
    rw [UInt32.lt_iff_toNat_lt, hnext]
    exact Nat.lt_succ_iff
  refine ⟨?_, fun r htracked => ⟨hdeaths r htracked, fun hmany => ?_⟩⟩
  · rw [restartsCa_iff]
    constructor
    · rintro ⟨-, hca, hfew⟩
      exact ⟨hca, (hcount .ca hca).mp hfew⟩
    · rintro ⟨hca, hfew⟩
      exact ⟨hdistinct hca, hca, (hcount .ca hca).mpr hfew⟩
  · rw [hsys]
    refine handleChildDeath_error htracked ?_ ?_
    · rintro rfl
      exact hdistinct htracked
    · intro hlt
      have hle := (hcount r htracked).mp hlt
      omega

/-- The first CA that dies on a booted daemon. -/
theorem strikes_accounted_bootUp :
    ∃ s t, after (bootUp ++ caExit) = some s ∧
      step Config.default s (.waitpid (some (200, .code 1)) (.works 201)) =
        some t ∧
      t.ca.crashCount.toNat = deathsSinceReset t.kernel.log .ca ∧
      RestartsCa Config.default 200
        { s.sys with kernel := s.kernel.reap 200 } := by
  obtain ⟨t, hafter, hpc, hfew, hone⟩ := exists_after
    ((bootUp ++ caExit) ++ [.waitpid (some (200, .code 1)) (.works 201)])
    (P := fun t => t.pc ≠ .panicked ∧
      (∀ r, deathsSinceReset t.kernel.log r < 2 ^ 32) ∧
      deathsSinceReset t.kernel.log .ca ≤ 4) (by decide)
  obtain ⟨s, hs, hstep⟩ := exec_append_eq_some_iff.mp hafter
  rw [exec_singleton] at hstep
  obtain ⟨u, hu, hpid⟩ := exists_after (bootUp ++ caExit)
    (P := fun s => s.ca.childPid = some 200) (by decide)
  obtain rfl : s = u := Option.some.inj (hs.symm.trans hu)
  obtain ⟨hcount, hdeath⟩ := strikes_accounted
    (reach_of_after hafter (along_not_losesTracked (by decide) _)) hfew
  refine ⟨s, t, hs, hstep, (hcount.resolve_left hpc) .ca, ?_⟩
  exact (hdeath s _ 200
    (reach_of_after hs (along_not_losesTracked (by decide) _)) rfl hstep).1.mpr
    ⟨hpid, hone⟩

/-- A CA ended by a real-time signal is reaped and not counted. -/
theorem strike_lost :
    ∃ t, Reachable Config.default t ∧ t.pc ≠ .panicked ∧
      deathsSinceReset t.kernel.log .ca = 1 ∧ t.ca.crashCount.toNat = 0 := by
  obtain ⟨t, hafter, ht⟩ := exists_after
    (bootUp ++ caExit ++ [.waitpid (some (200, .signal 34)) (.works 201)])
    (P := fun t => t.pc ≠ .panicked ∧
      deathsSinceReset t.kernel.log .ca = 1 ∧ t.ca.crashCount.toNat = 0)
    (by decide)
  exact ⟨t, reach_of_after hafter (.of_forall (fun _ _ => trivial) _ _), ht⟩

/-! ## A stopped child -/

/-- An un-reaped child that no manager records. -/
structure Orphan (f : Fleet) (pid : Pid) : Prop where
  held : f.table.find pid ≠ none
  unrecorded : ∀ r, (f.mgr r).childPid ≠ some pid

theorem Happens.held {f g : Fleet} {te : Instant × Event} {pid : Pid}
    (h : Happens f te g) (hdied : ∀ r, te.2 ≠ .died r pid)
    (hdiscarded : te.2 ≠ .discarded pid) (hlost : te.2 ≠ .lost pid)
    (hf : f.table.find pid ≠ none) : g.table.find pid ≠ none := by
  cases h with
  | exited => simpa [Table.find_exit] using hf
  | @spawned time r q command hfresh =>
      dsimp only
      rw [Table.find_spawn f.table hfresh]
      split <;> simp [hf]
  | @died time r q =>
      have hne : pid ≠ q := fun h => hdied r (by rw [h])
      simpa [Table.find_reap, hne] using hf
  | @discarded time q =>
      have hne : pid ≠ q := fun h => hdiscarded (by rw [h])
      simpa [Table.find_reap, hne] using hf
  | @lost time q =>
      have hne : pid ≠ q := fun h => hlost (by rw [h])
      simpa [Table.find_reap, hne] using hf
  | _ => exact hf

/-- A manager does not come to record a pid that is taken. -/
theorem Happens.unrecorded {f g : Fleet} {te : Instant × Event} {pid : Pid}
    (h : Happens f te g) (hf : f.table.find pid ≠ none)
    (hr : (f.mgr r).childPid ≠ some pid) : (g.mgr r).childPid ≠ some pid := by
  rcases h.changes r with ⟨-, hsame⟩ | hchanges
  · rw [hsame]
    exact hr
  obtain ⟨time, e⟩ := te
  generalize hm : f.mgr r = m at hchanges hr
  generalize g.mgr r = m' at hchanges
  cases hchanges with
  | @spawned q command =>
      intro hpid
      obtain rfl : q = pid := Option.some.inj hpid
      cases h with
      | spawned hfresh => exact hf hfresh
  | stopped => exact nofun
  | died => exact nofun
  | _ => exact hr

/-- The label takes no child with this pid from the kernel. -/
def Label.leaves (l : Label) (pid : Pid) : Prop :=
  l.reaps ≠ some pid ∧ l.loses ≠ some pid

theorem held_of_cause {f g : Fleet} {te : Instant × Event} {pid : Pid}
    (hleaves : l.leaves pid) (hcause : Cause cfg s l f te)
    (hte : Happens f te g) (hf : f.table.find pid ≠ none) :
    g.table.find pid ≠ none := by
  refine hte.held (fun r he => ?_) (fun he => ?_) (fun he => ?_) hf
  · exact hleaves.1 (by simp_all [Cause])
  · exact hleaves.1 (by simp_all [Cause])
  · exact hleaves.2 (by simp_all [Cause])

theorem step_orphan {pid : Pid} (hleaves : l.leaves pid)
    (hstep : step cfg s l = some t) (hs : Orphan s.sys.fleet pid) :
    Orphan t.sys.fleet pid := by
  refine step_invariant (I := fun _ f => Orphan f pid) ?_ ?_ hstep hs
  · exact fun _ f hf => ⟨hf.held, fun _ => nofun⟩
  · intro log f te g hcause hte hf
    exact ⟨held_of_cause hleaves hcause hte hf.held,
      fun r => hte.unrecorded hf.held (hf.unrecorded r)⟩

/-- The restarted CA does not get the pid of the one that was stopped. -/
theorem health_ca_childPid {env : HealthEnv} {pid : Pid}
    (hrestarts : healthRestarts cfg s env)
    (hstep : step cfg s (.health env) = some t) (hpc : t.pc ≠ .panicked)
    (hheld : s.kernel.table.find pid ≠ none) : t.ca.childPid ≠ some pid := by
  obtain ⟨k, hca, -, -, log, -, hstory⟩ := health_ca hrestarts hstep hpc
  have hleaves : (Label.health env).leaves pid := ⟨nofun, nofun⟩
  have hk : k.table.find pid ≠ none :=
    hstory.preserves (I := fun f => f.table.find pid ≠ none)
      (fun _ _ _ hcause hte hf => held_of_cause hleaves hcause hte hf) hheld
  rw [hca]
  rcases start_cases cfg .ca s.ca.halted k env.start with
    ⟨-, e, hstart⟩ | ⟨-, e, hstart⟩ | ⟨-, hint, command, hstart⟩
  · have hstart : CaManager.start cfg _ k env.start = _ := hstart
    rw [hstart]
    exact nofun
  · have hstart : CaManager.start cfg _ k env.start = _ := hstart
    rw [hstart]
    exact nofun
  · have hstart : CaManager.start cfg _ k env.start = _ := hstart
    rw [hstart]
    intro hpid
    apply hk
    rw [← Option.some.inj hpid]
    exact find_freshPid (k.advance env.start.spawn.took) hint

/-- A child that is stopped on purpose is recorded nowhere from then on, unless
the step ends the program. -/
theorem step_stop_orphan {pid : Pid}
    (hs : Tracked s.kernel.log s.sys.fleet) (hstops : StopsChild cfg s l r)
    (htracked : (s.sys.mgr r).childPid = some pid)
    (hstep : step cfg s l = some t) :
    t.pc.isRunning = false ∨ Orphan t.sys.fleet pid := by
  have howned := hs.sound r pid htracked
  have hleaves : l.leaves pid := by
    cases l with
    | waitpid raw env => cases hstops
    | _ => exact ⟨nofun, nofun⟩
  obtain ⟨hheld, hothers⟩ : t.kernel.table.find pid ≠ none ∧
      ∀ q, q ≠ r → (t.sys.mgr q).childPid ≠ some pid := by
    refine step_invariant (I := fun _ f => f.table.find pid ≠ none ∧
      ∀ q, q ≠ r → (f.mgr q).childPid ≠ some pid) ?_ ?_ hstep
      ⟨howned.find_ne_none, fun q hq h => ?_⟩
    · exact fun _ f hf => ⟨hf.1, fun _ _ => nofun⟩
    · intro log f te g hcause hte hf
      exact ⟨held_of_cause hleaves hcause hte hf.1,
        fun q hq => hte.unrecorded hf.1 (hf.2 q hq)⟩
    · exact hq (hs.sound.tracked_injective h htracked)
  have hclear : t.pc.isRunning = false ∨
      (t.sys.mgr r).childPid ≠ some pid := by
    cases l with
    | request req env written =>
        rcases step_request_stops hstops hstep with ⟨k, rfl⟩ | hhalted
        · exact Or.inl rfl
        · right
          rw [hhalted]
          exact nofun
    | health env =>
        obtain ⟨rfl, hrestarts⟩ := hstops
        by_cases hpc : t.pc = .panicked
        · left
          rw [hpc]
          rfl
        · exact Or.inr
            (health_ca_childPid hrestarts hstep hpc howned.find_ne_none)
    | shutdown caKill vmKill =>
        exact Or.inl (step_shutdown_isRunning hstep)
    | _ => cases hstops
  refine hclear.imp_right fun hclear => ⟨hheld, fun q => ?_⟩
  by_cases hq : q = r
  · subst hq
    exact hclear
  · exact hothers q hq

theorem step_discards {pid : Pid}
    (hreaped : l.reaps = some pid ∨ l.loses = some pid)
    (hs : Orphan s.sys.fleet pid) (hstep : step cfg s l = some t) :
    t.sys.mgr = s.sys.mgr ∧
      ∀ r, Kernel.spawnsIn t.kernel.log r = Kernel.spawnsIn s.kernel.log r := by
  rcases hreaped with hreaps | hloses
  · obtain ⟨-, env, rfl⟩ := step_reaps hreaps hstep
    have hvm : s.vm.childPid ≠ some pid := hs.unrecorded .vm
    have hca : s.ca.childPid ≠ some pid := hs.unrecorded .ca
    simp only [handleChildDeath, Manager.ownsPid, hvm, hca]
    exact ⟨rfl, fun _ => rfl⟩
  · obtain ⟨term, client, -, rfl⟩ := step_loses hloses hstep
    exact ⟨rfl, fun _ => rfl⟩

/-- A deliberate stop is never taken for a crash, in runs that lose no recorded
child: when the stopped process is reaped at last, the managers stay as they
are and nothing is spawned. -/
theorem stop_is_no_crash {pid : Pid} {u v : Daemon} {m : Label}
    (hreach : Reach cfg (fun s l => ¬ LosesTracked s l) s)
    (hstops : StopsChild cfg s l r)
    (htracked : (s.sys.mgr r).childPid = some pid)
    (hstop : step cfg s l = some t)
    (hpath : Path (step cfg) (fun _ l => l.leaves pid) t u)
    (hreaped : m.reaps = some pid ∨ m.loses = some pid)
    (hreap : step cfg u m = some v) :
    v.sys.mgr = u.sys.mgr ∧
      ∀ r, Kernel.spawnsIn v.kernel.log r = Kernel.spawnsIn u.kernel.log r := by
  have horphan : u.pc.isRunning = false ∨ Orphan u.sys.fleet pid := by
    refine hpath.preserves (I := fun u =>
      u.pc.isRunning = false ∨ Orphan u.sys.fleet pid) ?_
      (step_stop_orphan (reach_tracked hreach) hstops htracked hstop)
    intro w n x hleaves hw hstep
    rcases hw with hended | hw
    · left
      rw [(step_ended hended hstep).1]
      exact hended
    · exact Or.inr (step_orphan hleaves hstep hw)
  rcases horphan with hended | horphan
  · obtain ⟨-, -, hquiet | ⟨q, rfl⟩⟩ := step_ended hended hreap
    · cases m <;> cases hquiet <;> rcases hreaped with h | h <;> cases h
    · rcases hreaped with h | h <;> cases h
  · exact step_discards hreaped horphan hreap

/-- From a request to the reaping of a child that it has stopped. -/
def untilReaped : List Label :=
  restOfRound ++ [.deliverChld, .poll .incoming, .drain]

instance (l : Label) (pid : Pid) : Decidable (l.leaves pid) :=
  inferInstanceAs (Decidable (_ ∧ _))

/-- `stop_ca` on a booted daemon. -/
theorem stop_is_no_crash_bootUp :
    ∃ s t u v, after (bootUp ++ [.poll .incoming, .accept true]) = some s ∧
      step Config.default s (ask "stop_ca") = some t ∧
      exec (step Config.default) t untilReaped = some u ∧
      step Config.default u (.waitpid (some (200, .signal 15)) (.works 201)) =
        some v ∧
      v.sys.mgr = u.sys.mgr := by
  obtain ⟨s, hafter, htracked, hrun⟩ := exists_after
    (bootUp ++ [.poll .incoming, .accept true])
    (P := fun s => s.ca.childPid = some 200 ∧
      (step Config.default s (ask "stop_ca")).any (fun t =>
        (exec (step Config.default) t untilReaped).any fun u =>
          (step Config.default u
            (.waitpid (some (200, .signal 15)) (.works 201))).isSome) = true)
    (by decide)
  obtain ⟨t, hstop, hrun⟩ := (Option.any_eq_true _ _).mp hrun
  obtain ⟨u, hu, hrun⟩ := (Option.any_eq_true _ _).mp hrun
  obtain ⟨v, hreap⟩ := Option.isSome_iff_exists.mp hrun
  have hstops : StopsChild Config.default s (ask "stop_ca") .ca := rfl
  exact ⟨s, t, u, v, hafter, hstop, hu, hreap, (stop_is_no_crash
    (reach_of_after hafter (along_not_losesTracked (by decide) _)) hstops
    htracked hstop (path_of_exec hu (.of_labels (by decide) _)) (Or.inl rfl)
    hreap).1⟩

/-- CA 200 is ended by a real-time signal and stays recorded; VM 200 is started
after it. -/
def pidReused : List Label :=
  caExit ++ [.waitpid (some (200, .signal 34)) (.works 201), .accept true,
    .request (.command "start_vm") (.works 200 201) true]

/-- `stop_vm` stops VM 200, and its reaping counts as a crash of the CA. -/
theorem stop_taken_for_crash :
    ∃ s t u v, Reachable Config.default s ∧ s.vm.childPid = some 200 ∧
      StopsChild Config.default s (ask "stop_vm") .vm ∧
      step Config.default s (ask "stop_vm") = some t ∧
      Path (step Config.default) (fun _ l => l.leaves 200) t u ∧
      step Config.default u (.waitpid (some (200, .code 0)) (.works 202)) =
        some v ∧
      u.ca.crashCount = 0 ∧ v.ca.crashCount = 1 ∧ v.ca.childPid = some 202 := by
  obtain ⟨s, hafter, htracked, hrun⟩ := exists_after (bootUp ++ pidReused)
    (P := fun s => s.vm.childPid = some 200 ∧
      (step Config.default s (ask "stop_vm")).any (fun t =>
        (exec (step Config.default) t untilReaped).any fun u =>
          u.ca.crashCount = 0 && (step Config.default u
            (.waitpid (some (200, .code 0)) (.works 202))).any fun v =>
              v.ca.crashCount = 1 ∧ v.ca.childPid = some 202) = true)
    (by decide)
  obtain ⟨t, hstop, hrun⟩ := (Option.any_eq_true _ _).mp hrun
  obtain ⟨u, hu, hrun⟩ := (Option.any_eq_true _ _).mp hrun
  obtain ⟨hzero, hrun⟩ := Bool.and_eq_true_iff.mp hrun
  obtain ⟨v, hreap, hv⟩ := (Option.any_eq_true _ _).mp hrun
  obtain ⟨hone, hnew⟩ := of_decide_eq_true hv
  exact ⟨s, t, u, v, reach_of_after hafter (.of_forall (fun _ _ => trivial) _ _),
    htracked, rfl, hstop, path_of_exec hu (.of_labels (by decide) _), hreap,
    of_decide_eq_true hzero, hone, hnew⟩

end Teeproxyd
