import Teeproxyd.Fleet.StepRule
import Teeproxyd.Supervision.Settling
import Teeproxyd.Supervision.Strikes

/-!
# Children that nobody records

A start beside a running child leaves that child to itself.  Each such start
leaves one child, nothing else does, and what is left behind stays out of the
daemon's reach: no stop, no restart and no shutdown signals it again.
-/

namespace Teeproxyd

open ProcessTable TransitionSystem Supervision

variable {cfg : Config} {s t : Daemon} {l : Label} {r : Role}
  {k k' k'' : Kernel} {pid : Pid}

/-! ## How many there are -/

theorem eq_spawned_of_move {e : Event} (h : e.move = some (.launch r pid)) :
    ∃ command, e = .spawned r pid command := by
  cases e <;> simp [Event.move] at h
  obtain ⟨rfl, rfl⟩ := h
  exact ⟨_, rfl⟩

/-- One step leaves one more child of a role to itself if it starts another
beside it, and otherwise none. -/
theorem step_orphans (hwf : ∀ r, (s.sys.mgr r).WellFormed)
    (hstep : step cfg s l = some t) :
    t.pc = .panicked ∨
      (t.sys.fleet.slots.orphans r).card ≤
        (s.sys.fleet.slots.orphans r).card +
          (decide (LaunchesBeside cfg s l r)).toNat := by
  by_cases hover : launches cfg s l r = true ∧ deadlineFits cfg s l r = false
  · exact Or.inl (step_overflows hwf hstep hover.1 hover.2)
  obtain ⟨sys, ⟨-, log, -, hstory⟩, hsettled | ⟨hpanicked, -⟩⟩ :=
    step_story hstep
  · right
    rw [hsettled]
    refine hstory.preserves (I := fun f => (f.slots.orphans r).card ≤
      (s.sys.fleet.slots.orphans r).card +
        (decide (LaunchesBeside cfg s l r)).toNat) ?_ (Nat.le_add_right _ _)
    intro f ⟨time, e⟩ g hcause hte hf
    rcases hte.simulates with ⟨m, hm, hmove⟩ | ⟨-, hslots⟩
    · by_cases hlaunch : ∃ q, m = .launch r q
      · obtain ⟨q, rfl⟩ := hlaunch
        obtain ⟨command, rfl⟩ := eq_spawned_of_move hm
        obtain ⟨env, ⟨rfl, hcall⟩ | ⟨rfl, hnone, -⟩, houtcome⟩ := hcause
        · by_cases hrunning : s.kernel.table.running r = true
          · have hlaunches : launches cfg s l r = true := by
              simp [launches, hcall, houtcome]
            have hfits : deadlineFits cfg s l r = true := by
              by_contra hfits
              exact hover ⟨hlaunches, by simpa using hfits⟩
            have hbeside : LaunchesBeside cfg s l r :=
              ⟨hlaunches, hfits, hrunning⟩
            simpa [hbeside] using hmove.card_orphans_le_succ
          · refine (hmove.card_orphans_le fun _ p _ halive => ?_).trans hf
            exact hrunning (Table.running_iff.mpr ⟨p, halive⟩)
        · refine (hmove.card_orphans_le fun _ p hp => ?_).trans hf
          cases hnone.symm.trans hp
      · exact (hmove.card_orphans_le fun h => absurd h hlaunch).trans hf
    · rwa [hslots]
  · exact Or.inl hpanicked

/-- How often the steps of a run start a child of this role beside a running
one. -/
def launchesBesideIn (cfg : Config) (r : Role) (s : Daemon) (ls : List Label) :
    ℕ :=
  totalCost (step cfg)
    (fun s l => (decide (LaunchesBeside cfg s l r)).toNat) s ls

theorem card_orphans_le_launchesBesideIn {now : Instant} {ls : List Label}
    (hrun : exec (step cfg) (init cfg now) ls = some s)
    (hpc : s.pc ≠ .panicked) :
    (s.sys.fleet.slots.orphans r).card ≤
      launchesBesideIn cfg r (init cfg now) ls := by
  let orphaned : Daemon → ℕ := fun s =>
    if s.pc = .panicked then 0 else (s.sys.fleet.slots.orphans r).card
  have hstep : ∀ s l t, (∀ r, (s.sys.mgr r).WellFormed) →
      step cfg s l = some t → orphaned t ≤ orphaned s +
        (decide (LaunchesBeside cfg s l r)).toNat := by
    intro s l t hwf hstep
    by_cases ht : t.pc = .panicked
    · simp [orphaned, ht]
    by_cases hs : s.pc = .panicked
    · have hsame := (step_ended (by rw [hs]; rfl) hstep).1
      exact absurd (hsame.trans hs) ht
    · simpa [orphaned, hs, ht] using (step_orphans hwf hstep).resolve_left ht
  have hrise := (along_wellFormed cfg now ls).le_add_totalCost orphaned hstep
    hrun
  have hnone : (init cfg now).sys.fleet.slots.orphans r = ∅ := rfl
  simpa [orphaned, launchesBesideIn, hpc, hnone] using hrise

/-- As long as the daemon does not panic, the running children of a role are at
most one more than the starts that were made beside a running child, and when
it has shut down no more than these are left. -/
theorem orphans_bounded {now : Instant} {ls : List Label}
    (hrun : exec (step cfg) (init cfg now) ls = some s)
    (hpc : s.pc ≠ .panicked) {children : Finset Pid}
    (hchildren : ∀ pid ∈ children, s.kernel.table.AliveOf r pid) :
    children.card ≤ launchesBesideIn cfg r (init cfg now) ls + 1 ∧
      (s.pc = .exited →
        children.card ≤ launchesBesideIn cfg r (init cfg now) ls) := by
  have hbound := card_orphans_le_launchesBesideIn (r := r) hrun hpc
  have hregular : Regular s := by
    refine (reachable_of_exec hrun).preserves (I := Regular) ?_
      (Regular.init cfg now)
    exact fun s l t _ hs hstep => hs.step hstep
  have hnone : (s.sys.mgr r).childPid = none →
      children.card ≤ launchesBesideIn cfg r (init cfg now) ls := by
    intro hnone
    refine (Finset.card_le_card fun pid hpid => ?_).trans hbound
    refine Slots.mem_orphans.mpr ⟨hchildren pid hpid, fun htracked => ?_⟩
    cases hnone.symm.trans htracked
  refine ⟨?_, fun hexited => hnone (hregular.exited hexited r)⟩
  cases htracked : (s.sys.mgr r).childPid with
  | none => exact Nat.le_succ_of_le (hnone htracked)
  | some q =>
      have hsubset : children ⊆ insert q (s.sys.fleet.slots.orphans r) := by
        intro pid hpid
        by_cases hq : pid = q
        · exact Finset.mem_insert.mpr (Or.inl hq)
        · refine Finset.mem_insert_of_mem (Slots.mem_orphans.mpr
            ⟨hchildren pid hpid, fun hrecorded => hq ?_⟩)
          exact Option.some.inj (hrecorded.symm.trans htracked)
      calc
        children.card ≤ (insert q (s.sys.fleet.slots.orphans r)).card :=
          Finset.card_le_card hsubset
        _ ≤ (s.sys.fleet.slots.orphans r).card + 1 := Finset.card_insert_le _ _
        _ ≤ launchesBesideIn cfg r (init cfg now) ls + 1 :=
          Nat.succ_le_succ hbound

/-- `start_vm` on a booted daemon is one such start, and two VMs run. -/
theorem orphans_bounded_startVm :
    ∃ s ls, after ls = some s ∧
      (∀ pid ∈ ({100, 101} : Finset Pid), s.kernel.table.AliveOf .vm pid) ∧
      launchesBesideIn Config.default .vm (init Config.default 0) ls = 1 := by
  obtain ⟨s, hafter, hpc, hold, hnew⟩ := exists_after
    (bootUp ++ requestRound "start_vm" (.works 101 201))
    (P := fun s => s.pc ≠ .panicked ∧ s.kernel.table.AliveOf .vm 100 ∧
      s.kernel.table.AliveOf .vm 101) (by decide)
  have hchildren : ∀ pid ∈ ({100, 101} : Finset Pid),
      s.kernel.table.AliveOf .vm pid := by
    intro pid hpid
    rcases Finset.mem_insert.mp hpid with rfl | hpid
    · exact hold
    · rw [Finset.mem_singleton.mp hpid]
      exact hnew
  have hbound := (orphans_bounded hafter hpc hchildren).1
  refine ⟨s, _, hafter, hchildren, ?_⟩
  exact Nat.le_antisymm (by decide) (Nat.le_of_succ_le_succ hbound)

/-! ## What the daemon spares -/

/-- The event ends the process, or it is a signal to its pid or to the children
of its pid. -/
def Event.harms (pid : Pid) : Event → Bool
  | exited p | signalled p _ _ | pkilledChildren p _ => p = pid
  | _ => false

/-- If the child is running in `k`, it is in `k'`, and nothing in between
harms it. -/
def Spares (r : Role) (pid : Pid) (k k' : Kernel) : Prop :=
  k.table.AliveOf r pid →
    k'.table.AliveOf r pid ∧
      ∃ log, k'.log = log ++ k.log ∧ ∀ te ∈ log, te.2.harms pid = false

namespace Spares

theorem unseen (htable : k'.table = k.table) (hlog : k'.log = k.log) :
    Spares r pid k k' :=
  fun halive => ⟨htable ▸ halive, [], hlog, List.forall_mem_nil _⟩

theorem refl (k : Kernel) : Spares r pid k k := unseen rfl rfl

theorem trans (h : Spares r pid k k') (h' : Spares r pid k' k'') :
    Spares r pid k k'' := by
  intro halive
  obtain ⟨halive', log, hlog, hspared⟩ := h halive
  obtain ⟨halive'', log', hlog', hspared'⟩ := h' halive'
  refine ⟨halive'', log' ++ log, ?_, fun te hte => ?_⟩
  · rw [hlog', hlog, List.append_assoc]
  · exact (List.mem_append.mp hte).elim (hspared' te) (hspared te)

theorem event {t : Instant} (e : Event) (hlog : k'.log = (t, e) :: k.log)
    (hspared : e.harms pid = false)
    (halive : k.table.AliveOf r pid → k'.table.AliveOf r pid) :
    Spares r pid k k' := by
  refine fun h => ⟨halive h, [(t, e)], hlog, fun te hte => ?_⟩
  rwa [List.mem_singleton.mp hte]

theorem emit (k : Kernel) {e : Event} (he : e.harms pid = false) :
    Spares r pid k (k.emit e) :=
  event e rfl he id

end Spares

section Stop

variable {target : Pid} (hother : target ≠ pid)

include hother

theorem spares_exitProc (k : Kernel) :
    Spares r pid k (k.exitProc target) :=
  .event (.exited target) rfl (by simpa [Event.harms])
    fun halive => (Table.aliveOf_exit k.table).mpr ⟨hother.symm, halive⟩

theorem spares_kill (k : Kernel) (sig : Signal) :
    Spares r pid k (k.kill target sig) := by
  have hsent : Spares r pid k
      (k.emit (.signalled target sig (k.childOf target))) :=
    .emit k (by simpa [Event.harms])
  cases sig with
  | sigterm => exact hsent
  | sigkill =>
      unfold Kernel.kill
      dsimp only
      split
      · exact hsent.trans (spares_exitProc hother _)
      · exact hsent

theorem spares_sleep (k : Kernel) (d : ℕ) (env : KillEnv) :
    Spares r pid k (sleep k d target env) := by
  have hslept : Spares r pid k (k.advance (d + env.lag k.now)) :=
    .unseen rfl rfl
  unfold sleep
  dsimp only
  split
  · exact hslept.trans (spares_exitProc hother _)
  · exact hslept

theorem spares_gracefulPoll (deadline : Instant) (env : KillEnv) (n : ℕ)
    (k : Kernel) :
    Spares r pid k (gracefulPoll target deadline env n k).1 := by
  induction n generalizing k with
  | zero => exact .refl k
  | succ n ih =>
      unfold gracefulPoll
      split
      · split
        · exact .refl k
        · exact (spares_sleep hother _ _ _).trans (ih _)
      · exact .refl k

theorem spares_awaitDeadline (k : Kernel) (deadline : Instant)
    (env : KillEnv) :
    Spares r pid k (awaitDeadline k target deadline env).1 := by
  have hpolled := spares_gracefulPoll (r := r) hother deadline env
    (pollBound k.now deadline) k
  unfold awaitDeadline
  split
  next k' hpoll =>
    rwa [hpoll] at hpolled
  next k' hpoll =>
    rw [hpoll] at hpolled
    exact (hpolled.trans (spares_kill hother _ _)).trans
      (spares_sleep hother _ _ _)

theorem spares_gracefulKill (k : Kernel) (graceSecs : UInt64) (env : KillEnv) :
    (∀ k', gracefulKill k target graceSecs env = .error k' →
      Spares r pid k k') ∧
    ∀ k' gone, gracefulKill k target graceSecs env = .ok (k', gone) →
      Spares r pid k k' := by
  have hsent := spares_kill (r := r) hother k .sigterm
  unfold gracefulKill
  dsimp only
  split
  · refine ⟨(fun k' h => by cases h), fun k' gone h => ?_⟩
    cases h
    exact .refl k
  · split
    next =>
      refine ⟨fun k' h => ?_, fun k' gone h => by cases h⟩
      cases h
      exact hsent
    next deadline _ =>
      refine ⟨(fun k' h => by cases h), fun k' gone h => ?_⟩
      have hawaited := spares_awaitDeadline (r := r) hother
        (k.kill target .sigterm) deadline env
      rw [Except.ok.inj h] at hawaited
      exact hsent.trans hawaited

theorem spares_sweep (q : Role) (k : Kernel) :
    Spares r pid k (q.sweep k target) := by
  cases q with
  | vm =>
      have hpkilled : ∀ k : Kernel, Spares r pid k (k.pkillChildren target) :=
        fun k => .event (.pkilledChildren target _) rfl
          (by simpa [Event.harms]) id
      have hcrosvm : ∀ k : Kernel, Spares r pid k k.pkillCrosvm :=
        fun k => .event .pkilledCrosvm rfl rfl id
      exact ((spares_kill hother k .sigkill).trans (hpkilled _)).trans
        (hcrosvm _)
  | ca => exact .refl k

end Stop

theorem spares_stop {q : Role} {m : Manager} {env : KillEnv}
    (hother : m.childPid ≠ some pid) :
    (∀ k', q.stop cfg m k env = .error k' → Spares r pid k k') ∧
      ∀ m' k', q.stop cfg m k env = .ok (m', k') → Spares r pid k k' := by
  rw [stop_eq]
  rcases stopWith_cases m k q cfg.shutdownGraceSecs q.sweep env with
    ⟨-, hstop⟩ | ⟨target, htarget, ⟨k₁, hkill, hstop⟩ |
      ⟨k₁, gone, hkill, hstop⟩⟩
  · rw [hstop]
    refine ⟨(fun k' h => by cases h), fun m' k' h => ?_⟩
    cases h
    exact .emit k rfl
  all_goals
    have hne : target ≠ pid := fun h => hother (htarget.trans (by rw [h]))
    obtain ⟨herror, hok⟩ :=
      spares_gracefulKill (r := r) hne k cfg.shutdownGraceSecs env
    rw [hstop]
  · refine ⟨fun k' h => ?_, fun m' k' h => by cases h⟩
    cases h
    exact herror _ hkill
  · refine ⟨(fun k' h => by cases h), fun m' k' h => ?_⟩
    cases h
    exact ((hok _ _ hkill).trans (spares_sweep hne q k₁)).trans (.emit _ rfl)

theorem spares_start {q : Role} {m m' : Manager} {env : StartEnv}
    {result : Except String Unit}
    (h : q.start cfg m k env = (m', k', result)) : Spares r pid k k' := by
  rcases start_cases cfg q m k env with
    ⟨-, e, hstart⟩ | ⟨-, e, hstart⟩ | ⟨-, hint, command, hstart⟩
  · cases hstart.symm.trans h
    exact .refl k
  · cases hstart.symm.trans h
    exact .emit k rfl
  · cases hstart.symm.trans h
    refine .event (.spawned q _ command) rfl rfl fun halive => ?_
    have hfresh := find_freshPid (k.advance env.spawn.took) hint
    exact (Table.aliveOf_spawn k.table hfresh).mpr (Or.inr halive)

/-- Every call that a step makes spares a child that no manager records. -/
theorem sparesRule (cfg : Config) (r : Role) (hl : l ≠ .exit pid) :
    StepRule cfg l (fun m _ => m.childPid ≠ some pid) (Spares r pid) where
  trans h h' := h.trans h'
  unseen htable hlog := .unseen htable hlog
  note k e he := .emit k (by cases e <;> first | rfl | cases he)
  exit k p hexit :=
    spares_exitProc (fun h => hl (hexit.trans (by rw [h]))) k
  reap k p hzombie halive := by
    have hne : pid ≠ p := by
      rintro rfl
      exact ended_of_isZombie hzombie r halive
    exact ⟨(Table.aliveOf_reap k.table).mpr ⟨hne, halive⟩, [], rfl,
      List.forall_mem_nil _⟩
  start hstart := spares_start hstart
  stop hother hstop := ⟨(spares_stop hother).2 _ _ hstop, fun m hm => hm⟩
  stopPanics hother hstop := (spares_stop hother).1 _ hstop

/-- No call of `waitpid` reports a running child. -/
theorem leaves_of_alive (halive : s.kernel.table.AliveOf r pid)
    (hstep : step cfg s l = some t) : l.leaves pid := by
  constructor
  · intro hreaps
    obtain ⟨status, env, rfl, -, -⟩ := exists_reaps hreaps
    obtain ⟨term, client, -, hreports, -⟩ := step_waitpid hstep
    exact ended_of_isZombie hreports r halive
  · intro hloses
    obtain ⟨status, env, rfl, -⟩ := exists_loses hloses
    obtain ⟨term, client, -, hreports, -⟩ := step_waitpid hstep
    exact ended_of_isZombie hreports r halive

/-- A running child that no manager records runs on, whatever the daemon is
made to do, until it ends by itself.  No manager records it again, and no signal
is sent to its pid or by `pkill -P` to its children; only the `pkill` of all
crosvm processes may reach what it has started, or the child itself if it has
`crosvm` in its command line, which the model leaves out. -/
theorem orphans_run_on {ls : List Label}
    (halive : s.kernel.table.AliveOf r pid)
    (huntracked : ∀ q, (s.sys.mgr q).childPid ≠ some pid)
    (hrun : exec (step cfg) s ls = some t) (hends : .exit pid ∉ ls) :
    t.kernel.table.AliveOf r pid ∧
      (∀ q, (t.sys.mgr q).childPid ≠ some pid) ∧
      ∃ log, t.kernel.log = log ++ s.kernel.log ∧
        ∀ te ∈ log, te.2.harms pid = false := by
  have hlabels : ∀ l ∈ ls, l ≠ .exit pid := by
    rintro l hl rfl
    exact hends hl
  have hpath := path_of_exec hrun (.of_labels hlabels s)
  obtain ⟨hspares, hunrecorded⟩ : Spares r pid s.kernel t.kernel ∧
      ∀ q, (t.sys.mgr q).childPid ≠ some pid := by
    refine hpath.preserves (I := fun t => Spares r pid s.kernel t.kernel ∧
      ∀ q, (t.sys.mgr q).childPid ≠ some pid) ?_ ⟨.refl _, huntracked⟩
    rintro u l v hl ⟨hspares, hu⟩ hstep
    have hrunning := (hspares halive).1
    refine ⟨hspares.trans ((sparesRule cfg r hl).step hu hstep), ?_⟩
    have horphan : Orphan u.sys.fleet pid :=
      ⟨hrunning.ownedBy.find_ne_none, hu⟩
    exact (step_orphan (leaves_of_alive hrunning hstep) hstep horphan).unrecorded
  obtain ⟨halive', hlog⟩ := hspares halive
  exact ⟨halive', hunrecorded, hlog⟩

/-- A client stops everything, and then `init` stops the daemon. -/
def lastOrders : List Label :=
  requestRound "stop_all" (.works 102 202) ++
    [.terminate, .deliverTerm, .poll .quiet, .drain, .shutdown .obeys .obeys]

/-- The first VM of two survives `stop_all` and the daemon itself. -/
theorem orphans_run_on_startVm :
    ∃ s t, after (bootUp ++ requestRound "start_vm" (.works 101 201)) =
        some s ∧
      exec (step Config.default) s lastOrders = some t ∧ t.pc = .exited ∧
      t.kernel.table.AliveOf .vm 100 := by
  obtain ⟨s, hafter, halive, hvm, hca, hends⟩ := exists_after
    (bootUp ++ requestRound "start_vm" (.works 101 201))
    (P := fun s => s.kernel.table.AliveOf .vm 100 ∧
      s.vm.childPid ≠ some 100 ∧ s.ca.childPid ≠ some 100 ∧
      (exec (step Config.default) s lastOrders).any
        (fun t => t.pc = .exited) = true) (by decide)
  obtain ⟨t, hrun, hexited⟩ := (Option.any_eq_true _ _).mp hends
  refine ⟨s, t, hafter, hrun, of_decide_eq_true hexited, ?_⟩
  refine (orphans_run_on halive ?_ hrun ?_).1
  · rintro (_ | _)
    · exact hvm
    · exact hca
  · simp [lastOrders, requestRound]

end Teeproxyd
