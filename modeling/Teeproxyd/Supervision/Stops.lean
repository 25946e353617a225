import Teeproxyd.Supervision.Status

/-!
# What a stop and five strikes are worth

A stopped child should stay stopped, and a manager in `Error` should stay
there, until a client says otherwise.  The reap path and the health check
respect that, since both look for a recorded or a reported child.  The startup
machine does not look at the managers at all: whatever phase it is in, it goes
on, starts what it was going to start, and marks `Ready` what answers a probe.
-/

namespace Teeproxyd

open ProcessTable TransitionSystem Supervision

variable {cfg : Config} {s t : Daemon} {l : Label} {r : Role}

/-! ## Who can start a child -/

/-- The startup machine starts the child, or marks a stopped CA `Ready`, which
puts it under the health check again. -/
def MachineResumes (s : Daemon) (l : Label) (r : Role) : Prop :=
  l.isStartup = true ∧
    ((directStart s l r).isSome = true ∨
      (r = .ca ∧ marksReady s l .ca = true))

instance : Decidable (MachineResumes s l r) :=
  inferInstanceAs (Decidable (_ ∧ (_ ∨ _ ∧ _)))

/-- The manager records no child and reports none, so neither the reap path
nor the health check starts one. -/
structure Manager.AtRest (m : Manager) : Prop where
  untracked : m.childPid = none
  notLaunched : m.state ≠ .launched
  notReady : m.state ≠ .ready
  unready : m.readySince = none

theorem Manager.atRest_halted (m : Manager) : m.halted.AtRest :=
  ⟨rfl, nofun, nofun, rfl⟩

theorem Manager.WellFormed.atRest_of_error {m : Manager} (h : m.WellFormed)
    (herror : m.state = .error) : m.AtRest where
  untracked := h.quiet (Or.inr herror)
  notLaunched := by simp [herror]
  notReady := by simp [herror]
  unready := (h.strikes herror).2

theorem starts_of_call {env : RequestEnv} {cmd : Cmd} {env' : StartEnv}
    (h : env.call cmd r = some env') : cmd.starts r = true := by
  cases cmd <;> cases r <;> first | rfl | cases h

theorem not_autoRestart {env : StartEnv} (hs : s.ca.AtRest) :
    ¬ AutoRestart cfg s l env := by
  intro h
  cases l with
  | waitpid raw env' =>
      obtain ⟨-, pid, -, -, htracked, -⟩ := h
      rw [hs.untracked] at htracked
      cases htracked
  | health env' =>
      obtain ⟨-, -, hready | hrunning, -⟩ := h
      · exact hs.notReady hready
      · exact hs.notLaunched hrunning
  | _ => exact h

theorem not_callsStart {f : Fleet} {env : StartEnv}
    (hdirect : directStart s l r = none) (hs : r = .ca → s.ca.AtRest) :
    ¬ CallsStart cfg s l f r env := by
  rintro (⟨-, hcall⟩ | ⟨rfl, -, hauto⟩)
  · cases hdirect.symm.trans hcall
  · exact not_autoRestart (hs rfl) hauto

theorem not_callsStart_of_isQuiet {f : Fleet} {env : StartEnv}
    (hquiet : l.isQuiet = true) : ¬ CallsStart cfg s l f r env := by
  rintro (⟨-, hdirect⟩ | ⟨-, -, hauto⟩)
  · cases l <;> simp_all [Label.isQuiet, directStart]
  · cases l <;> simp_all [Label.isQuiet, AutoRestart]

/-! ## Stops -/

theorem Changes.atRest {time : Instant} {m m' : Manager} {e : Event}
    (h : Changes time r m e m')
    (hspawned : ∀ pid command, e ≠ .spawned r pid command)
    (hready : e ≠ .ready r) (hm : m.AtRest) : m'.AtRest := by
  cases h with
  | spawned => exact absurd rfl (hspawned _ _)
  | ready => exact absurd rfl hready
  | stopped => exact Manager.atRest_halted m
  | spawnFailed => exact ⟨hm.untracked, nofun, nofun, hm.unready⟩
  | died => exact ⟨rfl, nofun, nofun, rfl⟩
  | condemned => exact ⟨hm.untracked, nofun, nofun, hm.unready⟩
  | countReset =>
      exact ⟨hm.untracked, hm.notLaunched, hm.notReady, hm.unready⟩

/-- A step that neither makes a direct start nor marks the CA `Ready` spawns no
child, and leaves a CA at rest. -/
theorem step_atRest (hdirect : directStart s l r = none)
    (hmarks : r = .ca → marksReady s l .ca = false)
    (hs : r = .ca → s.ca.AtRest) (hstep : step cfg s l = some t) :
    Kernel.spawnsIn t.kernel.log r = Kernel.spawnsIn s.kernel.log r ∧
      (r = .ca → t.ca.AtRest) := by
  have hcalls : ∀ f env, ¬ CallsStart cfg s l f r env :=
    fun f env => not_callsStart hdirect hs
  refine ⟨step_not_spawns hstep fun f env h => absurd h (hcalls f env), ?_⟩
  rintro rfl
  refine step_invariant (I := fun _ f => (f.mgr .ca).AtRest) ?_ ?_ hstep (hs rfl)
  · exact fun _ _ _ => Manager.atRest_halted Manager.new
  · intro log f te g hcause hte hrest
    rcases hte.changes .ca with ⟨-, hsame⟩ | hchanges
    · rw [hsame]
      exact hrest
    refine hchanges.atRest ?_ ?_ hrest
    · intro pid command he
      obtain ⟨env, hcall, -⟩ : ∃ env, CallsStart cfg s l f .ca env ∧
          startOutcome cfg .ca env = .started := by
        simpa [Cause, he] using hcause
      exact hcalls f env hcall
    · intro he
      obtain ⟨-, hready⟩ : f = s.sys.fleet ∧ marksReady s l .ca = true := by
        simpa [Cause, he] using hcause
      rw [hmarks rfl] at hready
      cases hready

theorem directStart_eq_none (hcmd : l.starts r = false)
    (hmachine : ¬ MachineResumes s l r) : directStart s l r = none := by
  by_contra hcalls
  obtain ⟨env, hcall⟩ := Option.ne_none_iff_exists'.mp hcalls
  cases l with
  | request req env' written =>
      have hstarts : (requestCmd req).starts r = true := starts_of_call hcall
      exact absurd hstarts (Bool.eq_false_iff.mp hcmd)
  | startup env' =>
      exact hmachine ⟨rfl, Or.inl (Option.isSome_iff_ne_none.mpr hcalls)⟩
  | _ => cases hcall

theorem not_marksReady (hmachine : ¬ MachineResumes s l r) :
    r = .ca → marksReady s l .ca = false := by
  rintro rfl
  cases hmarks : marksReady s l .ca with
  | false => rfl
  | true =>
      obtain ⟨env, rfl, -⟩ := marksReady_iff.mp hmarks
      exact absurd ⟨rfl, Or.inr ⟨rfl, hmarks⟩⟩ hmachine

theorem step_stops (hstops : l.stops .ca = true)
    (hstep : step cfg s l = some t) : t.ca.AtRest := by
  cases l with
  | request req env written =>
      rcases step_request_stops hstops hstep with ⟨k, rfl⟩ | hhalted
      · exact Manager.atRest_halted Manager.new
      · have hhalted : t.ca = s.ca.halted := hhalted
        rw [hhalted]
        exact Manager.atRest_halted s.ca
  | _ => cases hstops

/-- A stop holds, from whatever state it is handled in, as long as no client
asks for the child and the startup machine does not resume. -/
theorem stop_sticks {u : Daemon} (hstops : l.stops r = true)
    (hstep : step cfg s l = some t)
    (hpath : Path (step cfg)
      (fun s l => l.starts r = false ∧ ¬ MachineResumes s l r) t u) :
    Kernel.spawnsIn u.kernel.log r = Kernel.spawnsIn t.kernel.log r := by
  have hrest : Kernel.spawnsIn u.kernel.log r =
      Kernel.spawnsIn t.kernel.log r ∧ (r = .ca → u.ca.AtRest) := by
    refine hpath.preserves (I := fun v =>
      Kernel.spawnsIn v.kernel.log r = Kernel.spawnsIn t.kernel.log r ∧
        (r = .ca → v.ca.AtRest)) ?_ ⟨rfl, ?_⟩
    · intro v m w ⟨hcmd, hmachine⟩ ⟨hlog, hrest⟩ hvw
      obtain ⟨hlog', hrest'⟩ := step_atRest (directStart_eq_none hcmd hmachine)
        (not_marksReady hmachine) hrest hvw
      exact ⟨hlog'.trans hlog, hrest'⟩
    · rintro rfl
      exact step_stops hstops hstep
  exact hrest.1

/-- `stop_ca` on a booted daemon. -/
theorem stop_sticks_bootUp :
    ∃ s t u, after (bootUp ++ [.poll .incoming, .accept true]) = some s ∧
      step Config.default s (ask "stop_ca") = some t ∧
      exec (step Config.default) t restOfRound = some u ∧
      Kernel.spawnsIn u.kernel.log .ca = Kernel.spawnsIn t.kernel.log .ca := by
  obtain ⟨t, hafter, halong, hrun⟩ := exists_after
    ((bootUp ++ [.poll .incoming, .accept true]) ++ [ask "stop_ca"])
    (P := fun t =>
      Along (step Config.default)
        (fun s l => l.starts .ca = false ∧ ¬ MachineResumes s l .ca) t
        restOfRound ∧
      (exec (step Config.default) t restOfRound).isSome = true) (by decide)
  obtain ⟨s, hs, hstep⟩ := exec_append_eq_some_iff.mp hafter
  rw [exec_singleton] at hstep
  obtain ⟨u, hu⟩ := Option.isSome_iff_exists.mp hrun
  exact ⟨s, t, u, hs, hstep, hu,
    stop_sticks rfl hstep (path_of_exec hu halong)⟩

/-- `stop_all`, handled before the first call of `advance_startup`, is undone by
that call: no command follows, and the VM is spawned. -/
theorem stopAll_undone :
    ∃ s t u, Reachable Config.default s ∧
      step Config.default s (ask "stop_all") = some t ∧
      Path (step Config.default) (fun _ l => l.isOperator = false) t u ∧
      Kernel.spawnsIn t.kernel.log .vm = [] ∧
      Kernel.spawnsIn u.kernel.log .vm = [102] := by
  obtain ⟨t, hafter, hbefore, hrun⟩ := exists_after
    ([.poll .incoming, .accept true] ++ [ask "stop_all"])
    (P := fun t => Kernel.spawnsIn t.kernel.log .vm = [] ∧
      (exec (step Config.default) t restOfRound).any (fun u =>
        Kernel.spawnsIn u.kernel.log .vm = [102]) = true) (by decide)
  obtain ⟨s, hs, hstep⟩ := exec_append_eq_some_iff.mp hafter
  rw [exec_singleton] at hstep
  obtain ⟨u, hu, hspawned⟩ := (Option.any_eq_true _ _).mp hrun
  refine ⟨s, t, u, reach_of_after hs (.of_forall (fun _ _ => trivial) _ _),
    hstep, path_of_exec hu (.of_labels (by decide) _), hbefore,
    of_decide_eq_true hspawned⟩

/-! ## Five strikes -/

/-- The startup machine acts on a manager: it calls `start`, which gets past
its early checks, or marks the manager `Ready`. -/
def MachineActs (cfg : Config) (s : Daemon) (l : Label) (r : Role) : Prop :=
  l.isStartup = true ∧
    ((directStart s l r).any
        (fun env => startOutcome cfg r env ≠ .refused) = true ∨
      marksReady s l r = true)

instance : Decidable (MachineActs cfg s l r) :=
  inferInstanceAs (Decidable (_ ∧ (_ ∨ _)))

theorem not_isOperator {cmd : Cmd} (h : l.isOperator = false)
    (hcmd : l.cmd = some cmd) (r : Role) :
    cmd.starts r = false ∧ cmd.stops r = false := by
  have hop : cmd.isOperator = false := by simpa [Label.isOperator, hcmd] using h
  simp only [Cmd.isOperator, Bool.or_eq_false_iff] at hop
  obtain ⟨⟨⟨hstartVm, hstartCa⟩, hstopVm⟩, hstopCa⟩ := hop
  cases r with
  | vm => exact ⟨hstartVm, hstopVm⟩
  | ca => exact ⟨hstartCa, hstopCa⟩

section AtRest

variable (hrest : (s.sys.mgr r).AtRest) (hop : l.isOperator = false)
  (hacts : ¬ MachineActs cfg s l r)

include hrest hop hacts

theorem refused_of_atRest {f : Fleet} {env : StartEnv}
    (hcalls : CallsStart cfg s l f r env) :
    startOutcome cfg r env = .refused := by
  rcases hcalls with ⟨-, hdirect⟩ | ⟨rfl, -, hauto⟩
  · cases l with
    | request req env' written =>
        have hstarts := starts_of_call hdirect
        rw [(not_isOperator hop rfl r).1] at hstarts
        cases hstarts
    | startup env' =>
        by_contra houtcome
        refine hacts ⟨rfl, Or.inl ?_⟩
        simp [hdirect, houtcome]
    | _ => cases hdirect
  · exact absurd hauto (not_autoRestart hrest)

theorem subject_ne_of_atRest {f g : Fleet} {te : Instant × Event}
    (hrunning : ∀ caKill vmKill, l ≠ .shutdown caKill vmKill)
    (hcause : Cause cfg s l f te) (hte : Happens f te g)
    (hmgr : f.mgr r = s.sys.mgr r) : te.2.subject ≠ some r := by
  obtain ⟨time, e⟩ := te
  rcases hte.changes r with ⟨hsubject, -⟩ | hchanges
  · exact hsubject
  rw [hmgr] at hchanges
  generalize hm : s.sys.mgr r = m at hchanges
  generalize g.mgr r = m' at hchanges
  exfalso
  cases hchanges with
  | spawned =>
      obtain ⟨env, hcall, houtcome⟩ := hcause
      cases (refused_of_atRest hrest hop hacts hcall).symm.trans houtcome
  | spawnFailed =>
      obtain ⟨env, hcall, houtcome⟩ := hcause
      cases (refused_of_atRest hrest hop hacts hcall).symm.trans houtcome
  | stopped =>
      cases l with
      | request req env written =>
          have hstops : (requestCmd req).stops r = true := hcause
          rw [(not_isOperator hop rfl r).2] at hstops
          cases hstops
      | health env =>
          obtain ⟨rfl, -, hready | hrunning, -⟩ := hcause
          · exact hrest.notReady hready
          · exact hrest.notLaunched hrunning
      | shutdown caKill vmKill => exact hrunning caKill vmKill rfl
      | _ => exact hcause
  | died htracked =>
      rw [← hm] at htracked
      cases hrest.untracked.symm.trans htracked
  | condemned =>
      obtain ⟨pid, -, htracked⟩ := hcause
      cases hrest.untracked.symm.trans htracked
  | ready =>
      obtain ⟨env, rfl, -⟩ := marksReady_iff.mp hcause.2
      exact hacts ⟨rfl, Or.inr hcause.2⟩
  | countReset hstable =>
      rw [← hm] at hstable
      simp [Manager.stable, hrest.unready] at hstable

/-- On its own the daemon leaves a manager at rest as it is until the program
ends, unless the startup machine acts on it. -/
theorem step_rests (hstep : step cfg s l = some t) :
    (t.pc = .exited ∨ t.pc = .panicked ∨ t.sys.mgr r = s.sys.mgr r) ∧
      Kernel.spawnsIn t.kernel.log r = Kernel.spawnsIn s.kernel.log r := by
  constructor
  · cases l with
    | shutdown caKill vmKill =>
        exact (step_shutdown_pc hstep).imp_right Or.inl
    | _ =>
        exact Or.inr (step_untouched hstep fun f te g hcause hte hmgr =>
          subject_ne_of_atRest hrest hop hacts nofun hcause hte hmgr)
  · refine step_not_spawns hstep fun f env hcalls hstarted => ?_
    cases (refused_of_atRest hrest hop hacts hcalls).symm.trans hstarted

end AtRest

theorem step_ended_spawns (hpc : s.pc.isRunning = false)
    (hstep : step cfg s l = some t) :
    Kernel.spawnsIn t.kernel.log r = Kernel.spawnsIn s.kernel.log r := by
  refine step_not_spawns hstep fun f env hcalls => ?_
  obtain ⟨-, -, hquiet | ⟨pid, rfl⟩⟩ := step_ended hpc hstep
  · exact absurd hcalls (not_callsStart_of_isQuiet hquiet)
  · rcases hcalls with ⟨-, hdirect⟩ | ⟨-, -, hauto⟩
    · cases hdirect
    · exact hauto.elim

/-- The manager is as `m`, unless the program has ended. -/
def Remains (m : Manager) (r : Role) (s : Daemon) : Prop :=
  s.pc = .exited ∨ s.pc = .panicked ∨ s.sys.mgr r = m

/-- A manager at rest stays as it is along a path on which no client starts or
stops a child and the startup machine does not act on it. -/
theorem path_rests {u : Daemon} (hrest : (s.sys.mgr r).AtRest)
    (hpath : Path (step cfg)
      (fun s l => l.isOperator = false ∧ ¬ MachineActs cfg s l r) s u) :
    Remains (s.sys.mgr r) r u ∧
      Kernel.spawnsIn u.kernel.log r = Kernel.spawnsIn s.kernel.log r := by
  refine hpath.preserves (I := fun v => Remains (s.sys.mgr r) r v ∧
    Kernel.spawnsIn v.kernel.log r = Kernel.spawnsIn s.kernel.log r) ?_
    ⟨Or.inr (Or.inr rfl), rfl⟩
  rintro v l w ⟨hop, hacts⟩ ⟨hexited | hpanicked | hsame, hspawns⟩ hstep
  · refine ⟨Or.inl ?_, (step_ended_spawns ?_ hstep).trans hspawns⟩
    · exact (step_ended (by rw [hexited]; rfl) hstep).1.trans hexited
    · rw [hexited]
      rfl
  · refine ⟨Or.inr (Or.inl ?_), (step_ended_spawns ?_ hstep).trans hspawns⟩
    · exact (step_ended (by rw [hpanicked]; rfl) hstep).1.trans hpanicked
    · rw [hpanicked]
      rfl
  · rw [← hsame] at hrest
    obtain ⟨hstill, hlog⟩ := step_rests hrest hop hacts hstep
    rw [hsame] at hstill
    exact ⟨hstill, hlog.trans hspawns⟩

/-- The strikes hold: from a reachable state with a manager in `Error`, as long
as no client starts or stops a child and the startup machine does not act on
the manager, it stays in `Error` until the program ends, and no child is
spawned for it. -/
theorem error_sticks {u : Daemon} (hreach : Reachable cfg s)
    (herror : (s.sys.mgr r).state = .error)
    (hpath : Path (step cfg)
      (fun s l => l.isOperator = false ∧ ¬ MachineActs cfg s l r) s u) :
    (u.pc = .exited ∨ u.pc = .panicked ∨ (u.sys.mgr r).state = .error) ∧
      Kernel.spawnsIn u.kernel.log r = Kernel.spawnsIn s.kernel.log r := by
  have hrest := (reach_wellFormed hreach r).atRest_of_error herror
  obtain ⟨hremains, hspawns⟩ := path_rests hrest hpath
  refine ⟨hremains.imp_right (Or.imp_right fun hsame => ?_), hspawns⟩
  rw [hsame]
  exact herror

/-- Five strikes on a booted daemon. -/
theorem error_sticks_bootUp :
    ∃ s u, after (bootUp ++ strikeOut 200) = some s ∧ s.ca.state = .error ∧
      exec (step Config.default) s restOfRound = some u ∧
      (u.pc = .exited ∨ u.pc = .panicked ∨ u.ca.state = .error) := by
  obtain ⟨s, hafter, herror, halong, hrun⟩ := exists_after
    (bootUp ++ strikeOut 200)
    (P := fun s => s.ca.state = .error ∧
      Along (step Config.default)
        (fun s l => l.isOperator = false ∧ ¬ MachineActs Config.default s l .ca)
        s restOfRound ∧
      (exec (step Config.default) s restOfRound).isSome = true) (by decide)
  obtain ⟨u, hu⟩ := Option.isSome_iff_exists.mp hrun
  exact ⟨s, u, hafter, herror, hu, (error_sticks (r := .ca)
    (reach_of_after hafter (.of_forall (fun _ _ => trivial) _ _)) herror
    (path_of_exec hu halong)).1⟩

/-- Five strikes while the startup machine waits for the CA port, and some
process answers there: the CA leaves `Error` with no command handled. -/
theorem error_left :
    ∃ s u, Reachable Config.default s ∧ s.ca.state = .error ∧
      Path (step Config.default) (fun _ l => l.isOperator = false) s u ∧
      u.pc = .poll ∧ u.ca.state = .ready := by
  obtain ⟨s, hafter, herror, hrun⟩ := exists_after
    (bootCa ++ strikeOut 200)
    (P := fun s => s.ca.state = .error ∧
      (exec (step Config.default) s restOfRound).any (fun u =>
        u.pc = .poll ∧ u.ca.state = .ready) = true) (by decide)
  obtain ⟨u, hu, hready⟩ := (Option.any_eq_true _ _).mp hrun
  obtain ⟨hpc, hstate⟩ := of_decide_eq_true hready
  exact ⟨s, u, reach_of_after hafter (.of_forall (fun _ _ => trivial) _ _),
    herror, path_of_exec hu (.of_labels (by decide) _), hpc, hstate⟩

end Teeproxyd
