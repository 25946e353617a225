import Teeproxyd.Supervision.Stops

/-!
# What a stop of the VM leaves of the hypervisor

`pvm-manage` runs crosvm as its child.  When it ends, by itself or by
`graceful_kill`, its crosvm is re-parented and `pkill -P` no longer finds it.
The `pkill` by name, which finds every crosvm, is run only for a recorded child.
-/

namespace Teeproxyd

open ProcessTable TransitionSystem

variable {cfg : Config} {s t : Daemon} {l : Label} {k : Kernel} {pid : Pid}
  {n : ℕ}

/-! ## `graceful_kill` finds no crosvm -/

/-- Both kernels run a crosvm, or neither does. -/
def SameHypervisor (k k' : Kernel) : Prop := k'.crosvms = [] ↔ k.crosvms = []

namespace SameHypervisor

variable {k' k'' : Kernel}

theorem refl (k : Kernel) : SameHypervisor k k := Iff.rfl

theorem trans (h : SameHypervisor k k') (h' : SameHypervisor k' k'') :
    SameHypervisor k k'' :=
  Iff.trans h' h

theorem of_eq (h : k'.crosvms = k.crosvms) : SameHypervisor k k' := by
  unfold SameHypervisor
  rw [h]

/-- The death of a parent leaves its crosvm behind. -/
theorem exitProc (k : Kernel) (pid : Pid) :
    SameHypervisor k (k.exitProc pid) := by
  simp [SameHypervisor, Kernel.exitProc, Kernel.emit]

theorem kill (k : Kernel) (pid : Pid) (sig : Signal) :
    SameHypervisor k (k.kill pid sig) := by
  have hsent : SameHypervisor k
      (k.emit (.signalled pid sig (k.childOf pid))) := .of_eq rfl
  cases sig with
  | sigterm => exact hsent
  | sigkill =>
      simp only [Kernel.kill]
      split
      next => exact hsent.trans (.exitProc _ pid)
      next => exact hsent

theorem sleep (k : Kernel) (d : ℕ) (pid : Pid) (env : KillEnv) :
    SameHypervisor k (sleep k d pid env) := by
  have hlater : SameHypervisor k (k.advance (d + env.lag k.now)) := .of_eq rfl
  simp only [Teeproxyd.sleep]
  split
  next => exact hlater.trans (.exitProc _ pid)
  next => exact hlater

theorem gracefulPoll {deadline : Instant} {env : KillEnv} (i : ℕ)
    (k : Kernel) : SameHypervisor k (gracefulPoll pid deadline env i k).1 := by
  induction i generalizing k with
  | zero => exact .refl k
  | succ i ih =>
      simp only [Teeproxyd.gracefulPoll]
      split
      next =>
        split
        next => exact .refl k
        next => exact (sleep k _ pid env).trans (ih _)
      next => exact .refl k

theorem awaitDeadline (k : Kernel) (pid : Pid) (deadline : Instant)
    (env : KillEnv) : SameHypervisor k (awaitDeadline k pid deadline env).1 := by
  unfold Teeproxyd.awaitDeadline
  have hpoll : SameHypervisor k
      (Teeproxyd.gracefulPoll pid deadline env (pollBound k.now deadline) k).1 :=
    .gracefulPoll _ k
  split
  next k₁ heq =>
    rw [heq] at hpoll
    exact hpoll
  next k₁ heq =>
    rw [heq] at hpoll
    exact hpoll.trans ((SameHypervisor.kill k₁ pid .sigkill).trans (.sleep _ _ _ _))

theorem gracefulKill {graceSecs : UInt64} {env : KillEnv} {gone : Bool}
    (h : gracefulKill k pid graceSecs env = .ok (k', gone)) :
    SameHypervisor k k' := by
  unfold Teeproxyd.gracefulKill at h
  split at h
  next =>
    cases h
    exact .refl k
  next =>
    have hterm : SameHypervisor k (k.kill pid .sigterm) := .kill k pid .sigterm
    dsimp only at h
    generalize k.kill pid .sigterm = k₁ at h hterm
    split at h
    next => cases h
    next deadline _ =>
      have hawait : SameHypervisor k₁
          (Teeproxyd.awaitDeadline k₁ pid deadline env).1 :=
        .awaitDeadline k₁ pid deadline env
      rw [Except.ok.inj h] at hawait
      exact hterm.trans hawait

end SameHypervisor

/-! ## The two stops -/

/-- A `stop` of the CA kills no crosvm. -/
theorem caStop_crosvms {ca ca' : CaManager} {k' : Kernel} {env : KillEnv}
    (h : CaManager.stop cfg ca k env = .ok (ca', k')) :
    k'.crosvms = [] ↔ k.crosvms = [] := by
  rcases stopWith_cases ca k .ca cfg.shutdownGraceSecs (fun k _ => k) env with
    ⟨-, hstop⟩ | ⟨pid, -, ⟨k₁, -, hstop⟩ | ⟨k₁, gone, hkill, hstop⟩⟩
  · cases hstop.symm.trans h
    exact Iff.rfl
  · cases hstop.symm.trans h
  · cases hstop.symm.trans h
    have hsame : SameHypervisor k k₁ := .gracefulKill hkill
    exact hsame

/-- A `stop` of the VM kills every crosvm if a child is recorded, and none
otherwise. -/
theorem vmStop_crosvms {vm vm' : VmManager} {k' : Kernel} {env : KillEnv}
    (h : VmManager.stop cfg vm k env = .ok (vm', k')) :
    k'.crosvms = [] ↔ vm.childPid.isSome = true ∨ k.crosvms = [] := by
  rcases stopWith_cases vm k .vm cfg.shutdownGraceSecs
    (fun k pid => (killTree k pid).pkillCrosvm) env with
    ⟨hpid, hstop⟩ | ⟨pid, hpid, ⟨k₁, -, hstop⟩ | ⟨k₁, gone, -, hstop⟩⟩
  · cases hstop.symm.trans h
    simp [hpid, Kernel.emit]
  · cases hstop.symm.trans h
  · cases hstop.symm.trans h
    simp [hpid, Kernel.pkillCrosvm, Kernel.emit]

/-! ## The steps that stop the VM -/

/-- The labels of steps that run `VmManager::stop`. -/
def Label.stopsVm : Label → Bool
  | .shutdown _ _ => true
  | l => l.stops .vm

theorem not_calls_of_stops (env : RequestEnv) {req : Value} {r : Role}
    (hstops : (requestCmd req).stops r = true) (q : Role) :
    env.call (requestCmd req) q = none := by
  generalize requestCmd req = cmd at hstops
  cases cmd <;> first | rfl | cases hstops

/-- When a stop of the VM has run, no crosvm is left exactly if the manager
recorded a child or there was none before. -/
theorem step_stopsVm (hstops : l.stopsVm = true)
    (hstep : step cfg s l = some t) (hpc : t.pc ≠ .panicked) :
    t.kernel.crosvms = [] ↔
      s.vm.childPid.isSome = true ∨ s.kernel.crosvms = [] := by
  cases l with
  | shutdown caKill vmKill =>
      rcases step_shutdown hstep with ⟨-, ⟨k, -, rfl⟩ |
        ⟨ca, k, hca, ⟨k', -, rfl⟩ | ⟨vm, k', hvm, rfl⟩⟩⟩
      · exact absurd rfl hpc
      · exact absurd rfl hpc
      · rw [← caStop_crosvms hca]
        exact vmStop_crosvms hvm
  | request req env written =>
      have hstops : (requestCmd req).stops .vm = true := hstops
      rcases step_request hstep with ⟨-, ⟨k, -, rfl⟩ | ⟨sys, reply, hok, rfl⟩⟩
      · exact absurd rfl hpc
      have hserves := dispatch_serves cfg s.startup s.startedAt s.sys
        (not_calls_of_stops env hstops)
      rw [hok] at hserves
      change sys.kernel.crosvms = [] ↔ _
      generalize requestCmd req = cmd at hstops hserves
      cases hserves with
      | asks hno => cases (hno .vm).symm.trans hstops
      | @stops _ _ m k honly hstop =>
          obtain rfl := (honly .vm).mp hstops
          exact vmStop_crosvms hstop
      | stopsBoth hca hvm =>
          rw [← caStop_crosvms hca]
          exact vmStop_crosvms hvm
  | _ => cases hstops

/-! ## Over whole runs -/

/-- Step `k` of a run stops the VM and returns from it. -/
def StopsVmAt (run : Run (step cfg) n) (k : ℕ) : Prop :=
  k < n ∧ (run.label k).stopsVm = true ∧ (run.state (k + 1)).pc ≠ .panicked

/-- In every run, the stops of the VM leave no crosvm exactly if each of them
finds a recorded child, or finds no crosvm. -/
theorem hypervisor_stopped_iff (run : Run (step cfg) n) :
    (∀ k, StopsVmAt run k → (run.state (k + 1)).kernel.crosvms = []) ↔
      ∀ k, StopsVmAt run k → (run.state k).vm.childPid.isSome = true ∨
        (run.state k).kernel.crosvms = [] := by
  refine forall₂_congr fun k hstops => ?_
  obtain ⟨hk, hlabel, hpc⟩ := hstops
  exact step_stopsVm hlabel (run.step_eq k hk) hpc

/-- `stop_vm` after VM 100 has died and been reaped leaves the crosvm of that VM
running. -/
theorem hypervisor_outlives_stop :
    ∃ s t, Reachable Config.default s ∧
      step Config.default s (ask "stop_vm") = some t ∧ t.pc ≠ .panicked ∧
      t.kernel.crosvms = [none] := by
  obtain ⟨s, hafter, hstop⟩ := exists_after
    (bootUp ++ [.crosvmStart 100, .exit 100, .deliverChld, .poll .incoming,
      .drain, .waitpid (some (100, .code 1)) (.works 201),
      .waitpid none (.works 201), .accept true])
    (P := fun s => (step Config.default s (ask "stop_vm")).any (fun t =>
      t.pc ≠ .panicked ∧ t.kernel.crosvms = [none]) = true) (by decide)
  obtain ⟨t, hstep, ht⟩ := (Option.any_eq_true _ _).mp hstop
  obtain ⟨hpc, hleft⟩ := of_decide_eq_true ht
  exact ⟨s, t, reach_of_after hafter (.of_forall (fun _ _ => trivial) _ _),
    hstep, hpc, hleft⟩

end Teeproxyd
