import Teeproxyd.Supervision.Tracking

/-!
# No leaked and no duplicated child

Four callers start a CA and three start a VM.  The health restart stops the old
child first and the crash restart follows its death, but a client's command
and the startup machine start a child without looking at the recorded pid.  A
run leaves no child untracked exactly when none of these direct starts is made
while a child of the same role is running.
-/

namespace Teeproxyd

open ProcessTable TransitionSystem Supervision

variable {cfg : Config} {s t : Daemon} {l : Label} {r : Role}

/-! ## The condition -/

/-- The step makes a direct start for this role, and the start succeeds. -/
def launches (cfg : Config) (s : Daemon) (l : Label) (r : Role) : Bool :=
  (directStart s l r).any fun env => startOutcome cfg r env = .started

/-- The deadline that the startup machine sets after a start fits the clock.
If it does not the daemon panics. -/
def deadlineFits (cfg : Config) (s : Daemon) (l : Label) (r : Role) : Bool :=
  match l with
  | .startup env =>
      (env.call s.startup r).all fun env' =>
        ((s.kernel.now + env'.spawn.took).plus (s.startup.patience cfg)).isSome
  | _ => true

/-- A child is started beside a running child of the same role. -/
def LaunchesBeside (cfg : Config) (s : Daemon) (l : Label) (r : Role) : Prop :=
  launches cfg s l r = true ∧ deadlineFits cfg s l r = true ∧
    s.kernel.table.running r = true

instance : Decidable (LaunchesBeside cfg s l r) :=
  inferInstanceAs (Decidable (_ ∧ _ ∧ _))

instance decidableForallRole (p : Role → Prop) [DecidablePred p] :
    Decidable (∀ r, p r) :=
  decidable_of_iff (p .vm ∧ p .ca)
    ⟨fun h r => by cases r <;> [exact h.1; exact h.2], fun h => ⟨h _, h _⟩⟩

instance decidableExistsRole (p : Role → Prop) [DecidablePred p] :
    Decidable (∃ r, p r) :=
  decidable_of_iff (p .vm ∨ p .ca)
    ⟨fun h => h.elim (fun h => ⟨_, h⟩) fun h => ⟨_, h⟩,
      fun ⟨r, h⟩ => by cases r <;> [exact .inl h; exact .inr h]⟩

/-! ## What a direct start does -/

theorem start_of_launches {env : StartEnv} {m : Manager} {k : Kernel}
    (houtcome : startOutcome cfg r env = .started) :
    ∃ pid k', r.start cfg m k env =
        ({ m with state := .launched, childPid := some pid }, k', .ok ()) ∧
      k'.table = k.table.spawn r pid ∧ k.table.find pid = none ∧
      k'.now = k.now + env.spawn.took := by
  rcases start_cases cfg r m k env with
    ⟨h, -⟩ | ⟨h, -⟩ | ⟨-, hint, command, hstart⟩
  · rw [houtcome] at h
    cases h
  · rw [houtcome] at h
    cases h
  · exact ⟨_, _, hstart, rfl, find_freshPid (k.advance env.spawn.took) hint, rfl⟩

/-- The fleet after a child is launched for this role. -/
theorem moves_launch {sys : Sys} {m : Manager} {k : Kernel} {pid : Pid}
    (hpid : m.childPid = some pid)
    (htable : k.table = sys.kernel.table.spawn r pid)
    (hfresh : sys.kernel.table.find pid = none) :
    Moves sys.fleet.slots (.launch r pid) (sys.set r m k).fleet.slots := by
  have hslots : (sys.set r m k).fleet.slots =
      { tracked := Function.update (fun q => (sys.mgr q).childPid) r (some pid)
        table := sys.kernel.table.spawn r pid } := by
    rw [Sys.fleet, Sys.set_mgr, Sys.set_kernel, Fleet.slots_update, hpid, htable]
  rw [hslots]
  exact .launch hfresh

theorem call_role {env : StartupEnv} {phase : StartupPhase} {q : Role}
    {e e' : StartEnv} (hq : env.call phase q = some e)
    (hr : env.call phase r = some e') : q = r := by
  cases phase <;> cases q <;> cases r <;>
    simp_all [StartupEnv.call]

/-- A direct start that succeeds launches a child. -/
theorem step_launches (hwf : ∀ r, (s.sys.mgr r).WellFormed)
    (hstep : step cfg s l = some t) (hlaunches : launches cfg s l r = true)
    (hfits : deadlineFits cfg s l r = true) :
    t.pc ≠ .panicked ∧
      ∃ pid, Moves s.sys.fleet.slots (.launch r pid) t.sys.fleet.slots := by
  obtain ⟨env', hcall, houtcome⟩ := (Option.any_eq_true _ _).mp hlaunches
  obtain ⟨pid, k, hstart, htable, hfresh, hnow⟩ :=
    start_of_launches (k := s.kernel) (m := s.sys.mgr r)
      (of_decide_eq_true houtcome)
  have hmoves : Moves s.sys.fleet.slots (.launch r pid)
      (s.sys.set r { s.sys.mgr r with
        state := .launched, childPid := some pid } k).fleet.slots :=
    moves_launch rfl htable hfresh
  cases l with
  | request req env written =>
      obtain ⟨hgoes, hsys⟩ := step_request_call hcall hstep
      refine ⟨hgoes, pid, ?_⟩
      rw [hstart] at hsys
      rw [hsys]
      cases r <;> exact hmoves
  | startup env =>
      rcases step_startup hstep with
        ⟨-, ⟨k', q, m, env'', hcall', hstart', hover, rfl⟩ |
          ⟨phase, sys, hadv, rfl⟩⟩
      · obtain rfl : q = r := call_role hcall' hcall
        obtain rfl : env' = env'' :=
          Option.some.inj (Eq.trans (Eq.symm hcall) hcall')
        rw [hstart] at hstart'
        cases hstart'
        rw [hnow] at hover
        simp [deadlineFits, hcall', hover] at hfits
      · rw [(hadv.of_call ((hwf .vm).not_isDead s.kernel) hcall hstart).1]
        exact ⟨by simp, pid, hmoves⟩
  | _ => cases hcall

/-- A start whose deadline does not fit is the daemon's last. -/
theorem step_overflows (hwf : ∀ r, (s.sys.mgr r).WellFormed)
    (hstep : step cfg s l = some t) (hlaunches : launches cfg s l r = true)
    (hover : deadlineFits cfg s l r = false) : t.pc = .panicked := by
  obtain ⟨env', hcall, houtcome⟩ := (Option.any_eq_true _ _).mp hlaunches
  obtain ⟨pid, k, hstart, -, -, hnow⟩ :=
    start_of_launches (k := s.kernel) (m := s.sys.mgr r)
      (of_decide_eq_true houtcome)
  cases l with
  | startup env =>
      rcases step_startup hstep with
        ⟨-, ⟨k', q, m, env'', hcall', hstart', hover, rfl⟩ |
          ⟨phase, sys, hadv, rfl⟩⟩
      · rfl
      · have hfits :=
          (hadv.of_call ((hwf .vm).not_isDead s.kernel) hcall hstart).2.1 rfl
        have hcall : env.call s.startup r = some env' := hcall
        rw [hnow] at hfits
        simp [deadlineFits, hcall, hfits] at hover
  | request req env written => cases hover
  | _ => cases hcall

/-! ## Exclusive slots -/

theorem step_exclusive (hwf : ∀ r, (s.sys.mgr r).WellFormed)
    (hstep : step cfg s l = some t)
    (hguard : ∀ r, ¬ LaunchesBeside cfg s l r)
    (hs : s.sys.fleet.slots.Exclusive) :
    t.pc = .panicked ∨ t.sys.fleet.slots.Exclusive := by
  by_cases hover : ∃ r, launches cfg s l r = true ∧ deadlineFits cfg s l r = false
  · obtain ⟨r, hlaunches, hover⟩ := hover
    exact Or.inl (step_overflows hwf hstep hlaunches hover)
  obtain ⟨sys, ⟨-, log, -, hstory⟩, hsettled | ⟨hpanicked, -⟩⟩ :=
    step_story hstep
  · right
    rw [hsettled]
    refine hstory.preserves (I := fun f => f.slots.Exclusive) ?_ hs
    intro f ⟨time, e⟩ g hcause hte hf
    refine hte.exclusive ?_ hf
    rintro r pid command rfl q hq
    obtain ⟨env, ⟨rfl, hcall⟩ | ⟨rfl, hnone, -⟩, houtcome⟩ := hcause
    · have hlaunches : launches cfg s l r = true := by
        simp [launches, hcall, houtcome]
      have hfits : deadlineFits cfg s l r = true := by
        by_contra hfits
        exact hover ⟨r, hlaunches, by simpa using hfits⟩
      exact hguard r ⟨hlaunches, hfits, Table.running_iff.mpr ⟨q, hq⟩⟩
    · exact hf.not_alive_of_untracked hnone q hq
  · exact Or.inl hpanicked

theorem step_not_exclusive (hwf : ∀ r, (s.sys.mgr r).WellFormed)
    (hstep : step cfg s l = some t) (hs : s.sys.fleet.slots.Exclusive)
    (hbeside : LaunchesBeside cfg s l r) :
    t.pc ≠ .panicked ∧ ¬ t.sys.fleet.slots.Exclusive := by
  obtain ⟨hlaunches, hfits, hrunning⟩ := hbeside
  obtain ⟨hpc, pid, hmoves⟩ := step_launches hwf hstep hlaunches hfits
  refine ⟨hpc, fun hexcl => ?_⟩
  obtain ⟨q, hq⟩ := Table.running_iff.mp hrunning
  exact (Moves.exclusive_launch_iff hmoves hs).mp hexcl q hq

/-! ## Runs -/

/-- Every running child is the one its manager records, so that a role has
one running child at most, and none runs on when the program has shut down. -/
def NoLeak (s : Daemon) : Prop :=
  s.pc = .panicked ∨
    ((∀ r pid, s.kernel.table.AliveOf r pid →
        (s.sys.mgr r).childPid = some pid) ∧
      (∀ r p q, s.kernel.table.AliveOf r p → s.kernel.table.AliveOf r q →
        p = q) ∧
      (s.pc = .exited → ∀ r pid, ¬ s.kernel.table.AliveOf r pid))

/-- What holds in every reachable state. -/
structure Regular (s : Daemon) : Prop where
  wellFormed : ∀ r, (s.sys.mgr r).WellFormed
  exited : s.pc = .exited → ∀ r, (s.sys.mgr r).childPid = none

theorem Regular.init (cfg : Config) (now : Instant) : Regular (init cfg now) where
  wellFormed r := by cases r <;> exact Manager.wellFormed_new
  exited h := by cases h

theorem Regular.step (hs : Regular s) (hstep : step cfg s l = some t) :
    Regular t where
  wellFormed := step_wellFormed hs.wellFormed hstep
  exited hpc := by
    rcases step_exited hstep hpc with hexited | ⟨caKill, vmKill, rfl⟩
    · rw [(step_ended (by rw [hexited]; rfl) hstep).2.1]
      exact hs.exited hexited
    · rcases step_shutdown hstep with ⟨-, ⟨k, -, rfl⟩ |
        ⟨ca, k, hca, ⟨k', -, rfl⟩ | ⟨vm, k', hvm, rfl⟩⟩⟩
      · cases hpc
      · cases hpc
      · have hca : ca = s.ca.halted := stop_ok (r := .ca) hca
        have hvm : vm = s.vm.halted := stop_ok (r := .vm) hvm
        rintro (_ | _)
        · exact congrArg Manager.childPid hvm
        · exact congrArg Manager.childPid hca

theorem noLeak_iff_exclusive (hs : Regular s) :
    NoLeak s ↔ s.pc = .panicked ∨ s.sys.fleet.slots.Exclusive := by
  refine or_congr_right ⟨fun h => h.1, fun h => ⟨h, ?_, ?_⟩⟩
  · exact fun r p q hp hq => h.unique hp hq
  · exact fun hpc r pid => h.not_alive_of_untracked (hs.exited hpc r) pid

/-- The daemon leaks no child in a run exactly when no step of the run starts a
child beside a running child of the same role. -/
theorem noLeak_throughout_iff {now : Instant} {ls : List Label}
    (hrun : exec (step cfg) (init cfg now) ls = some t) :
    Throughout (step cfg) NoLeak (init cfg now) ls ↔
      Along (step cfg) (fun s l => ∀ r, ¬ LaunchesBeside cfg s l r)
        (init cfg now) ls := by
  refine throughout_iff_along (I := Regular) (A := fun _ _ => True)
    ?_ ?_ (Regular.init cfg now) ?_ (.of_forall (fun _ _ => trivial) _ _) hrun
  · exact fun s l t _ hs hstep => hs.step hstep
  · intro s l t _ hs hP hstep
    rw [noLeak_iff_exclusive (hs.step hstep)]
    rcases (noLeak_iff_exclusive hs).mp hP with hpanicked | hexcl
    · obtain ⟨hpc, -, hl⟩ := step_ended (by rw [hpanicked]; rfl) hstep
      refine iff_of_true (Or.inl (hpc.trans hpanicked)) fun r hbeside => ?_
      have hnone : directStart s l r = none := by
        rcases hl with hquiet | ⟨pid, rfl⟩
        · cases l <;> first | rfl | cases hquiet
        · rfl
      have hlaunches := hbeside.1
      simp [launches, hnone] at hlaunches
    · constructor
      · intro ht r hbeside
        obtain ⟨hpc, hleak⟩ :=
          step_not_exclusive hs.wellFormed hstep hexcl hbeside
        exact ht.elim hpc hleak
      · intro hguard
        exact step_exclusive hs.wellFormed hstep hguard hexcl
  · rw [noLeak_iff_exclusive (Regular.init cfg now)]
    right
    intro r pid h
    cases h

/-- The start of the daemon leaks nothing. -/
theorem noLeak_throughout_bootUp :
    Throughout (step Config.default) NoLeak (init Config.default 0) bootUp := by
  obtain ⟨s, hafter, -⟩ := exists_after bootUp
    (P := fun s => s.startup = .complete) (by decide)
  exact (noLeak_throughout_iff hafter).mpr (by decide)

/-- `start_vm` on a booted daemon leaves two running VMs, and one of them is
recorded nowhere. -/
theorem startVm_leaks :
    ∃ s, Reachable Config.default s ∧ s.pc = .poll ∧
      s.kernel.table.AliveOf .vm 100 ∧ s.kernel.table.AliveOf .vm 101 ∧
      s.vm.childPid = some 101 ∧ ¬ NoLeak s := by
  obtain ⟨s, hafter, hpc, hold, hnew, hpid⟩ := exists_after
    (bootUp ++ requestRound "start_vm" (.works 101 201))
    (P := fun s => s.pc = .poll ∧ s.kernel.table.AliveOf .vm 100 ∧
      s.kernel.table.AliveOf .vm 101 ∧ s.vm.childPid = some 101) (by decide)
  refine ⟨s, reach_of_after hafter (.of_forall (fun _ _ => trivial) _ _), hpc,
    hold, hnew, hpid, ?_⟩
  rintro (hpanicked | ⟨-, hone, -⟩)
  · rw [hpc] at hpanicked
    cases hpanicked
  · exact absurd (hone .vm 100 101 hold hnew) (by decide)

end Teeproxyd
