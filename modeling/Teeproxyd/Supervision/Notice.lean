import Teeproxyd.Fleet.StepRule
import Teeproxyd.Supervision.GracefulKill
import Teeproxyd.Supervision.NoLeak

/-!
# No child is killed without notice

A stop sends SIGTERM, waits for the grace period and only then uses force.
Since a child that ends meanwhile stays a zombie, no other process can hold its
pid when SIGKILL is sent: every use of force in a run was announced to the same
process, a grace period or more before.
-/

namespace Teeproxyd

open ProcessTable TransitionSystem EventLog

variable {cfg : Config} {s t : Daemon} {l : Label} {grace : ℕ}
  {k k' k'' : Kernel} {pid : Pid}

/-! ## Notice in a log -/

/-- The process that an event ends by force, or whose children it does. -/
def Event.forced : Event → Option Pid
  | signalled pid .sigkill _ => some pid
  | pkilledChildren parent _ => some parent
  | _ => none

def usesForce (te : Instant × Event) : Prop := te.2.forced.isSome

/-- The first event is the notice that the second one needs. -/
def notifies (grace : ℕ) (notice force : Instant × Event) : Prop :=
  ∃ pid child, force.2.forced = some pid ∧
    notice.2 = .signalled pid .sigterm child ∧ notice.1 + grace ≤ force.1

/-- The first event gives the pid of the second one to a new process. -/
def reuses (spawn force : Instant × Event) : Prop :=
  ∃ r pid command, spawn.2 = .spawned r pid command ∧
    force.2.forced = some pid

/-- Every use of force was announced, a grace period or more before, to the
process that holds the pid since then. -/
abbrev Forewarned (grace : ℕ) : List (Instant × Event) → Prop :=
  Heralded usesForce (notifies grace) reuses

/-- What the log gains from `k` to `k'` announces the force in it. -/
def KeepsNotice (grace : ℕ) (k k' : Kernel) : Prop :=
  ∃ log, k'.log = log ++ k.log ∧ Forewarned grace log

namespace KeepsNotice

/-- Without force there is nothing to announce. -/
theorem of_forall (log : List (Instant × Event)) (hlog : k'.log = log ++ k.log)
    (h : ∀ te ∈ log, te.2.forced = none) : KeepsNotice grace k k' := by
  refine ⟨log, hlog, heralded_of_forall_not fun te hte => ?_⟩
  simp [usesForce, h te hte]

theorem of_log (h : k'.log = k.log) : KeepsNotice grace k k' :=
  ⟨[], h, trivial⟩

theorem refl (k : Kernel) : KeepsNotice grace k k := of_log rfl

theorem trans (h : KeepsNotice grace k k') (h' : KeepsNotice grace k' k'') :
    KeepsNotice grace k k'' := by
  obtain ⟨log, hlog, hforewarned⟩ := h
  obtain ⟨log', hlog', hforewarned'⟩ := h'
  refine ⟨log' ++ log, ?_, hforewarned'.append hforewarned⟩
  rw [hlog', hlog, List.append_assoc]

theorem emit (k : Kernel) {e : Event} (he : e.forced = none) :
    KeepsNotice grace k (k.emit e) :=
  of_forall [(k.now, e)] rfl (by simpa using he)

theorem forewarned (h : KeepsNotice grace k k') (hk : Forewarned grace k.log) :
    Forewarned grace k'.log := by
  obtain ⟨log, hlog, hforewarned⟩ := h
  rw [hlog]
  exact hforewarned.append hk

end KeepsNotice

/-! ## Starts -/

theorem keepsNotice_start {r : Role} {m m' : Manager} {env : StartEnv}
    {result : Except String Unit}
    (h : r.start cfg m k env = (m', k', result)) : KeepsNotice grace k k' := by
  rcases start_cases cfg r m k env with
    ⟨-, e, hstart⟩ | ⟨-, e, hstart⟩ | ⟨-, hint, command, hstart⟩
  · cases hstart.symm.trans h
    exact .refl k
  · cases hstart.symm.trans h
    exact .emit k rfl
  · cases hstart.symm.trans h
    exact .of_forall [_] rfl (by simp [Event.forced])

/-! ## Stops -/

/-- From `k` to `k'` the log gains nothing but the ends of processes. -/
def OnlyExits (k k' : Kernel) : Prop :=
  ∃ log, k'.log = log ++ k.log ∧ ∀ te ∈ log, ∃ pid, te.2 = .exited pid

theorem OnlyExits.trans (h : OnlyExits k k') (h' : OnlyExits k' k'') :
    OnlyExits k k'' := by
  obtain ⟨log, hlog, hexits⟩ := h
  obtain ⟨log', hlog', hexits'⟩ := h'
  refine ⟨log' ++ log, ?_, fun te hte => ?_⟩
  · rw [hlog', hlog, List.append_assoc]
  · exact (List.mem_append.mp hte).elim (hexits' te) (hexits te)

theorem onlyExits_sleep (k : Kernel) (d : ℕ) (pid : Pid) (env : KillEnv) :
    OnlyExits k (sleep k d pid env) := by
  unfold sleep
  dsimp only
  split
  · exact ⟨[_], rfl, fun te hte => ⟨pid, by rw [List.mem_singleton.mp hte]⟩⟩
  · exact ⟨[], rfl, fun te hte => by cases hte⟩

theorem onlyExits_gracefulPoll (pid : Pid) (deadline : Instant) (env : KillEnv)
    (n : ℕ) (k : Kernel) :
    OnlyExits k (gracefulPoll pid deadline env n k).1 := by
  have hrefl : ∀ k, OnlyExits k k :=
    fun k => ⟨[], rfl, fun te hte => by cases hte⟩
  induction n generalizing k with
  | zero => exact hrefl k
  | succ n ih =>
      unfold gracefulPoll
      split
      · split
        · exact hrefl k
        · exact (onlyExits_sleep k _ pid env).trans (ih _)
      · exact hrefl k

theorem OnlyExits.keepsNotice (h : OnlyExits k k') :
    KeepsNotice grace k k' := by
  obtain ⟨log, hlog, hexits⟩ := h
  refine .of_forall log hlog fun te hte => ?_
  obtain ⟨pid, hexited⟩ := hexits te hte
  rw [hexited]
  rfl

theorem pkillChildren_table (k : Kernel) (pid : Pid) :
    (k.pkillChildren pid).table = k.table := rfl

theorem pkillCrosvm_table (k : Kernel) : k.pkillCrosvm.table = k.table := rfl

theorem sweep_pids (r : Role) (k : Kernel) (pid : Pid) :
    (r.sweep k pid).table.pids = k.table.pids := by
  cases r with
  | vm =>
      simp only [Role.sweep, killTree, pkillCrosvm_table, pkillChildren_table]
      exact (Handles.sigkill k pid).pids
  | ca => rfl

/-- SIGTERM has gone to the process that holds the pid, so that it may be ended
by force from time `T` on. -/
def Announced (grace : ℕ) (pid : Pid) (T : ℕ) (k k' : Kernel) : Prop :=
  ∃ log, k'.log = log ++ k.log ∧ Forewarned grace log ∧
    ∀ te, te.2.forced = some pid → T ≤ te.1 →
      HasHerald (notifies grace) reuses te log

/-- The event spawns nobody, and if it uses force, then on this process and from
time `T` on. -/
def Event.allowed (pid : Pid) (T : ℕ) (at' : ℕ) (e : Event) : Prop :=
  (∀ r pid command, e ≠ .spawned r pid command) ∧
    (e.forced = none ∨ (e.forced = some pid ∧ T ≤ at'))

theorem announced_sigterm (k : Kernel) (pid : Pid) :
    Announced grace pid (k.now + grace) k (k.kill pid .sigterm) := by
  refine ⟨[(k.now, .signalled pid .sigterm (k.childOf pid))], rfl, ?_, ?_⟩
  · exact heralded_of_forall_not (by simp [usesForce, Event.forced])
  · intro te hforced htime
    refine ⟨[], _, [], rfl, ⟨pid, _, hforced, rfl, htime⟩, ?_⟩
    exact fun te' hte' => by cases hte'

namespace Announced

variable {T : ℕ}

theorem keepsNotice (h : Announced grace pid T k k') :
    KeepsNotice grace k k' := by
  obtain ⟨log, hlog, hforewarned, -⟩ := h
  exact ⟨log, hlog, hforewarned⟩

theorem extend (h : Announced grace pid T k k') (log : List (Instant × Event))
    (hlog : k''.log = log ++ k'.log)
    (hallowed : ∀ te ∈ log, te.2.allowed pid T te.1) :
    Announced grace pid T k k'' := by
  obtain ⟨log', hlog', hforewarned, hherald⟩ := h
  have hlater : ∀ log, (∀ te ∈ log, te.2.allowed pid T te.1) →
      ∀ te, te.2.forced = some pid → T ≤ te.1 →
        HasHerald (notifies grace) reuses te (log ++ log') := by
    intro log hlog te hforced htime
    refine (hherald te hforced htime).later ?_
    rintro te' hte' ⟨r, p, command, hspawned, -⟩
    exact (hlog te' hte').1 r p command hspawned
  refine ⟨log ++ log', ?_, ?_, hlater log hallowed⟩
  · rw [hlog, hlog', List.append_assoc]
  clear hlog
  induction log with
  | nil => exact hforewarned
  | cons te log ih =>
      have hrest : ∀ te ∈ log, te.2.allowed pid T te.1 :=
        fun te' hte' => hallowed te' (List.mem_cons_of_mem te hte')
      refine ⟨fun hforced => ?_, ih hrest⟩
      rcases (hallowed te List.mem_cons_self).2 with hnone | ⟨hpid, htime⟩
      · simp [usesForce, hnone] at hforced
      · exact hlater log hrest te hpid htime

theorem onlyExits (h : Announced grace pid T k k') (h' : OnlyExits k' k'') :
    Announced grace pid T k k'' := by
  obtain ⟨log, hlog, hexits⟩ := h'
  refine h.extend log hlog fun te hte => ?_
  obtain ⟨pid, hexited⟩ := hexits te hte
  rw [hexited]
  exact ⟨fun _ _ _ => Event.noConfusion, Or.inl rfl⟩

theorem emit {e : Event} (h : Announced grace pid T k k')
    (he : e.allowed pid T k'.now) : Announced grace pid T k (k'.emit e) :=
  h.extend [(k'.now, e)] rfl (by simpa using he)

theorem sigkill (h : Announced grace pid T k k') (htime : T ≤ k'.now) :
    Announced grace pid T k (k'.kill pid .sigkill) := by
  have hsent : Announced grace pid T k
      (k'.emit (.signalled pid .sigkill (k'.childOf pid))) :=
    h.emit ⟨fun _ _ _ => Event.noConfusion, Or.inr ⟨rfl, htime⟩⟩
  simp only [Kernel.kill]
  split
  · exact hsent.emit ⟨fun _ _ _ => Event.noConfusion, Or.inl rfl⟩
  · exact hsent

theorem sweep (h : Announced grace pid T k k') (htime : T ≤ k'.now) (r : Role) :
    Announced grace pid T k (r.sweep k' pid) := by
  cases r with
  | ca => exact h
  | vm =>
      have hkilled := h.sigkill htime
      have hlater : T ≤ (k'.kill pid .sigkill).now := by
        rw [kill_now]
        exact htime
      have hpkilled : Announced grace pid T k (killTree k' pid) :=
        hkilled.extend
          [(_, .pkilledChildren pid ((k'.kill pid .sigkill).childOf pid))] rfl
          (by
            simp only [List.mem_singleton, forall_eq]
            exact ⟨fun _ _ _ => Event.noConfusion, Or.inr ⟨rfl, hlater⟩⟩)
      exact hpkilled.extend [(_, .pkilledCrosvm)] rfl
        (by simp [Event.allowed, Event.forced])

end Announced

variable {graceSecs : UInt64} {env : KillEnv}

/-- `graceful_kill` on a child. -/
theorem announced_gracefulKill {gone : Bool} (hchild : pid ∈ k.table.pids)
    (h : gracefulKill k pid graceSecs env = .ok (k', gone)) :
    Announced (fromSecs graceSecs) pid (k.now + fromSecs graceSecs) k k' ∧
      k.now + fromSecs graceSecs ≤ k'.now := by
  simp only [gracefulKill, isAlive_of_mem hchild, Bool.not_true,
    Bool.false_eq_true, if_false] at h
  cases hplus : Instant.plus (k.kill pid .sigterm).now (fromSecs graceSecs) with
  | none =>
      rw [hplus] at h
      cases h
  | some deadline =>
      rw [hplus] at h
      have hdeadline : k.now + fromSecs graceSecs = deadline := by
        unfold Instant.plus at hplus
        split at hplus
        · exact Option.some.inj hplus
        · cases hplus
      rw [hdeadline]
      have hheld : pid ∈ (k.kill pid .sigterm).table.pids := hchild
      let bound := pollBound (k.kill pid .sigterm).now deadline
      obtain ⟨k₂, hpoll, hnow, -⟩ := gracefulPoll_child deadline env bound hheld
      have hexits := onlyExits_gracefulPoll pid deadline env bound
        (k.kill pid .sigterm)
      rw [hpoll] at hexits
      have hlate : deadline ≤ k₂.now := by
        rw [hnow]
        exact deadline_le_lastPoll _ deadline env.lag
      have hpolled : Announced (fromSecs graceSecs) pid deadline k k₂ :=
        hdeadline ▸ (announced_sigterm k pid).onlyExits hexits
      have hkilled := (hpolled.sigkill hlate).onlyExits
        (onlyExits_sleep _ (fromMillis 100) pid env)
      have hresult : forceKill k₂ pid env = (k', gone) := by
        have hawait := Except.ok.inj h
        unfold awaitDeadline at hawait
        rw [hpoll] at hawait
        exact hawait
      have hk' : sleep (k₂.kill pid .sigkill) (fromMillis 100) pid env = k' :=
        congrArg Prod.fst hresult
      rw [hk'] at hkilled
      refine ⟨hkilled, ?_⟩
      rw [← hk', sleep_now, kill_now]
      exact Nat.le_add_right_of_le hlate

theorem keepsNotice_kill_error
    (h : gracefulKill k pid graceSecs env = .error k') :
    KeepsNotice grace k k' := by
  unfold gracefulKill at h
  split at h
  · cases h
  · dsimp only at h
    split at h
    · cases h
      exact .emit k rfl
    · cases h

/-- A stop gives notice, if the tracked process is a child. -/
theorem keepsNotice_stop {r : Role} {m m' : Manager}
    (hchild : ∀ pid, m.childPid = some pid → pid ∈ k.table.pids)
    (h : r.stop cfg m k env = .ok (m', k')) :
    KeepsNotice (fromSecs cfg.shutdownGraceSecs) k k' := by
  rw [stop_eq] at h
  rcases stopWith_cases m k r cfg.shutdownGraceSecs r.sweep env with
    ⟨-, hstop⟩ | ⟨pid, hpid, ⟨k₁, -, hstop⟩ | ⟨k₁, gone, hkill, hstop⟩⟩
  · cases hstop.symm.trans h
    exact .emit k rfl
  · cases hstop.symm.trans h
  · cases hstop.symm.trans h
    obtain ⟨hannounced, htime⟩ := announced_gracefulKill (hchild pid hpid) hkill
    exact (hannounced.sweep htime r).keepsNotice.trans (.emit _ rfl)

theorem gracefulKill_pids {gone : Bool} (hchild : pid ∈ k.table.pids)
    (h : gracefulKill k pid graceSecs env = .ok (k', gone)) :
    k'.table.pids = k.table.pids := by
  cases hfits : k.now.plus (fromSecs graceSecs) with
  | none =>
      have hover : (k.kill pid .sigterm).now.plus (fromSecs graceSecs) = none :=
        hfits
      simp [gracefulKill, isAlive_of_mem hchild, hover] at h
  | some deadline =>
      obtain ⟨k'', hkill, -, hhandles⟩ := gracefulKill_child env hchild hfits
      cases hkill.symm.trans h
      exact hhandles.pids

/-- A stop leaves the un-reaped children in the table. -/
theorem stop_pids {r : Role} {m m' : Manager}
    (hchild : ∀ pid, m.childPid = some pid → pid ∈ k.table.pids)
    (h : r.stop cfg m k env = .ok (m', k')) :
    k'.table.pids = k.table.pids := by
  rw [stop_eq] at h
  rcases stopWith_cases m k r cfg.shutdownGraceSecs r.sweep env with
    ⟨-, hstop⟩ | ⟨pid, hpid, ⟨k₁, -, hstop⟩ | ⟨k₁, gone, hkill, hstop⟩⟩
  · cases hstop.symm.trans h
    rfl
  · cases hstop.symm.trans h
  · cases hstop.symm.trans h
    exact (sweep_pids r k₁ pid).trans (gracefulKill_pids (hchild pid hpid) hkill)

theorem keepsNotice_stop_error {r : Role} {m : Manager}
    (h : r.stop cfg m k env = .error k') : KeepsNotice grace k k' := by
  rcases stop_cases cfg r m k env with
    ⟨-, hstop⟩ | ⟨pid, -, ⟨k₁, hkill, hstop⟩ | ⟨k₁, gone, k₂, -, hstop⟩⟩
  · cases hstop.symm.trans h
  · cases hstop.symm.trans h
    exact keepsNotice_kill_error hkill
  · cases hstop.symm.trans h

/-! ## Steps -/

/-- Every recorded process is a child that is not reaped. -/
def RecordsChildren (s : Daemon) : Prop :=
  ∀ r pid, (s.sys.mgr r).childPid = some pid → pid ∈ s.kernel.table.pids

/-- Every call that a step makes announces the force that it uses. -/
theorem noticeRule (cfg : Config) (l : Label) :
    StepRule cfg l
      (fun m table => ∀ pid, m.childPid = some pid → pid ∈ table.pids)
      (KeepsNotice (fromSecs cfg.shutdownGraceSecs)) where
  trans h h' := h.trans h'
  unseen _ hlog := .of_log hlog
  note k e he := .emit k (by cases e <;> first | rfl | cases he)
  exit k _ _ := .of_forall [_] rfl (by simp [Event.forced])
  reap _ _ _ := .of_log rfl
  start hstart := keepsNotice_start hstart
  stop hchild hstop := by
    refine ⟨keepsNotice_stop hchild hstop, fun m hm => ?_⟩
    rwa [stop_pids hchild hstop]
  stopPanics _ hstop := keepsNotice_stop_error hstop

theorem step_keepsNotice (hs : RecordsChildren s)
    (hstep : step cfg s l = some t) :
    KeepsNotice (fromSecs cfg.shutdownGraceSecs) s.kernel t.kernel :=
  (noticeRule cfg l).step hs hstep

/-! ## Runs -/

theorem Tracked.recordsChildren {log : List (Instant × Event)}
    (h : Tracked log s.sys.fleet) : RecordsChildren s := by
  intro r pid htracked
  have howned := h.sound r pid htracked
  exact Table.find_isSome_iff.mp
    (Option.isSome_iff_ne_none.mpr howned.find_ne_none)

/-- In every run whose calls of `waitpid` name every recorded child that they
reap, whatever is ended by force, by SIGKILL or as the child of a process that
is stopped, was announced by a SIGTERM to the same process, the grace period or
more before.  The `pkill` of all crosvm processes gives no notice. -/
theorem kills_give_notice {now : Instant} {ls : List Label}
    (hkept : Along (step cfg) (fun s l => ¬ LosesTracked s l) (init cfg now) ls)
    (hrun : exec (step cfg) (init cfg now) ls = some s) :
    ∀ newer t force older pid, s.kernel.log = newer ++ (t, force) :: older →
      force.forced = some pid →
      ∃ since t' child earlier,
        older = since ++ (t', .signalled pid .sigterm child) :: earlier ∧
        t' + fromSecs cfg.shutdownGraceSecs ≤ t ∧
        ∀ te ∈ since, ∀ r command, te.2 ≠ .spawned r pid command := by
  have hpath := path_of_exec hrun hkept
  have hinvariant : Forewarned (fromSecs cfg.shutdownGraceSecs) s.kernel.log ∧
      Tracked s.kernel.log s.sys.fleet := by
    refine hpath.preserves (I := fun s =>
      Forewarned (fromSecs cfg.shutdownGraceSecs) s.kernel.log ∧
        Tracked s.kernel.log s.sys.fleet) ?_ ?_
    · rintro u l v hl ⟨hforewarned, htracked⟩ hstep
      have hkeeps := step_keepsNotice htracked.recordsChildren hstep
      exact ⟨hkeeps.forewarned hforewarned, step_tracked hl htracked hstep⟩
    · have hempty : Forewarned (fromSecs cfg.shutdownGraceSecs) [] := trivial
      exact ⟨hempty, reach_tracked ⟨now, .refl⟩⟩
  intro newer t force older pid hlog hforced
  obtain ⟨since, ⟨t', notice⟩, earlier, hsplit,
      ⟨p, child, hp, hsigterm, htime⟩, hsince⟩ :=
    heralded_iff.mp hinvariant.1 newer (t, force) older hlog
      (by simp [usesForce, hforced])
  cases hforced.symm.trans hp
  cases hsigterm
  refine ⟨since, t', child, earlier, hsplit, htime, ?_⟩
  intro te hte r command hspawned
  exact hsince te hte ⟨r, pid, command, hspawned, hforced⟩

/-- `stop_vm` on a booted daemon. -/
theorem kills_give_notice_bootUp :
    ∃ s t t' child, after (bootUp ++ requestRound "stop_vm" (.works 101 201)) =
        some s ∧
      (t, .pkilledChildren 100 (some .vm)) ∈ s.kernel.log ∧
      (t', .signalled 100 .sigterm child) ∈ s.kernel.log ∧
      t' + fromSecs 3 ≤ t := by
  obtain ⟨s, hafter, hforced⟩ := exists_after
    (bootUp ++ requestRound "stop_vm" (.works 101 201))
    (P := fun s => (s.kernel.now, Event.pkilledChildren 100 (some .vm)) ∈
      s.kernel.log) (by decide)
  obtain ⟨newer, older, hlog⟩ := List.append_of_mem hforced
  obtain ⟨since, t', child, earlier, hsplit, htime, -⟩ :=
    kills_give_notice (along_not_losesTracked (by decide) _) hafter newer _ _
      older 100 hlog rfl
  refine ⟨s, _, t', child, hafter, hforced, ?_, htime⟩
  rw [hlog, hsplit]
  simp

end Teeproxyd
