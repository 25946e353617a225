import Teeproxyd.Supervision.NoLeak

/-!
# What the reported states promise

`Booting`, `Running` and `Ready` should mean that the manager records a child.
A start that succeeds records one, and a death or a stop leaves these states.
The startup machine, though, marks a manager `Ready` on the strength of a probe
alone, and the probe may be answered by a process the daemon does not track.
-/

namespace Teeproxyd

open ProcessTable TransitionSystem Supervision

variable {cfg : Config} {s t : Daemon} {l : Label} {r : Role}

/-- A manager that reports a running or ready child records one. -/
def Manager.Backed (m : Manager) : Prop :=
  m.state = .launched ∨ m.state = .ready → m.childPid.isSome

theorem Changes.backed {time : Instant} {m m' : Manager} {e : Event}
    (h : Changes time r m e m') (hready : e = .ready r → m.childPid.isSome)
    (hm : m.Backed) : m'.Backed := by
  cases h with
  | spawned => exact fun _ => rfl
  | ready => exact fun _ => hready rfl
  | countReset => exact hm
  | _ => intro h; rcases h with h | h <;> cases h

theorem Happens.backed {f g : Fleet} {te : Instant × Event}
    (h : Happens f te g)
    (hready : ∀ r, te.2 = .ready r → (f.mgr r).childPid.isSome)
    (hf : ∀ r, (f.mgr r).Backed) : ∀ r, (g.mgr r).Backed := by
  intro r
  rcases h.changes r with ⟨-, hsame⟩ | hchanges
  · rw [hsame]
    exact hf r
  · exact hchanges.backed (hready r) (hf r)

/-- A manager that reports `Booting`, `Running` or `Ready` records an un-reaped
child that was spawned for it. -/
def StatusSound (s : Daemon) : Prop :=
  ∀ r, (s.sys.mgr r).state = .launched ∨ (s.sys.mgr r).state = .ready →
    ∃ pid, (s.sys.mgr r).childPid = some pid ∧ s.kernel.table.OwnedBy r pid

theorem statusSound_iff (hs : Tracked s.kernel.log s.sys.fleet) :
    StatusSound s ↔ ∀ r, (s.sys.mgr r).Backed := by
  constructor
  · intro h r hstate
    obtain ⟨pid, htracked, -⟩ := h r hstate
    exact Option.isSome_iff_exists.mpr ⟨pid, htracked⟩
  · intro h r hstate
    obtain ⟨pid, htracked⟩ := Option.isSome_iff_exists.mp (h r hstate)
    exact ⟨pid, htracked, hs.sound r pid htracked⟩

/-- A manager that is marked `Ready` keeps the pid it records; with the CA the
startup is complete. -/
theorem step_marksReady (hwf : ∀ r, (s.sys.mgr r).WellFormed)
    (hstep : step cfg s l = some t) (hmarks : marksReady s l r = true) :
    t.sys.mgr r = (s.sys.mgr r).setState .ready t.kernel.now ∧
      (r = .ca → t.startup = .complete) := by
  obtain ⟨env, rfl, hphase⟩ := marksReady_iff.mp hmarks
  rcases step_startup hstep with
    ⟨-, ⟨k, q, m, env', hcall, -, -, rfl⟩ | ⟨phase, sys, hadv, rfl⟩⟩
  · rcases hphase with ⟨-, deadline, bootStart, hphase, -⟩ | ⟨-, deadline, hphase, -⟩
    · rw [hphase] at hcall
      cases hcall
    · rw [hphase] at hcall
      cases hcall
  rcases hphase with
    ⟨rfl, deadline, bootStart, hphase, hintime, hup⟩ | ⟨rfl, deadline, hphase, hup⟩
  · rw [hphase] at hadv
    cases hadv with
    | vsockUp => exact ⟨rfl, nofun⟩
    | vsockTimeout hlate => exact absurd hintime (Nat.not_le_of_lt hlate)
    | vsockDown _ hdown => simp [hup] at hdown
    | vmRestart _ hdead => exact absurd hdead ((hwf .vm).not_isDead _)
    | final hfinal => cases hfinal
    | caRestart hwaiting => cases hwaiting
  · rw [hphase] at hadv
    cases hadv with
    | portUp => exact ⟨rfl, fun _ => rfl⟩
    | portTimeout hdown => simp [hup] at hdown
    | portDown hdown => simp [hup] at hdown
    | vmRestart _ hdead => exact absurd hdead ((hwf .vm).not_isDead _)
    | caRestart _ hdead => exact absurd hdead ((hwf .ca).not_isDead _)
    | final hfinal => cases hfinal

theorem step_backed (hstep : step cfg s l = some t)
    (hguard : ∀ r, marksReady s l r = true →
      (s.sys.mgr r).childPid.isSome = true)
    (hs : ∀ r, (s.sys.mgr r).Backed) : ∀ r, (t.sys.mgr r).Backed := by
  refine step_invariant (I := fun _ f => ∀ r, (f.mgr r).Backed) ?_ ?_ hstep hs
  · rintro - f - r (h | h) <;> cases h
  · intro log f te g hcause hte hf
    refine hte.backed (fun r hready => ?_) hf
    obtain ⟨rfl, hmarks⟩ : f = s.sys.fleet ∧ marksReady s l r = true := by
      simpa [Cause, hready] using hcause
    exact hguard r hmarks

/-- In a run that loses no recorded child, the reported states are sound
exactly when the startup machine marks no manager `Ready` that records no
child. -/
theorem statusSound_throughout_iff {now : Instant} {ls : List Label}
    (hkept : Along (step cfg) (fun s l => ¬ LosesTracked s l) (init cfg now) ls)
    (hrun : exec (step cfg) (init cfg now) ls = some t) :
    Throughout (step cfg) StatusSound (init cfg now) ls ↔
      Along (step cfg)
        (fun s l => ∀ r, marksReady s l r = true →
          (s.sys.mgr r).childPid.isSome = true)
        (init cfg now) ls := by
  have hinit : Tracked (init cfg now).kernel.log (init cfg now).sys.fleet :=
    reach_tracked ⟨now, .refl⟩
  refine throughout_iff_along
    (I := fun s => Tracked s.kernel.log s.sys.fleet) ?_ ?_ hinit ?_ hkept hrun
  · exact fun s l t hkept hs hstep => step_tracked hkept hs hstep
  · intro s l t hkept hs hP hstep
    rw [statusSound_iff (step_tracked hkept hs hstep)]
    constructor
    · intro ht r hmarks
      obtain ⟨hmgr, -⟩ := step_marksReady hs.wellFormed hstep hmarks
      have hbacked := ht r
      rw [hmgr] at hbacked
      exact hbacked (Or.inr rfl)
    · intro hguard
      exact step_backed hstep hguard ((statusSound_iff hs).mp hP)
  · rintro (_ | _) (h | h) <;> cases h

theorem statusSound_throughout_bootUp :
    Throughout (step Config.default) StatusSound (init Config.default 0)
      bootUp := by
  obtain ⟨s, hafter, -⟩ := exists_after bootUp
    (P := fun s => s.startup = .complete) (by decide)
  exact (statusSound_throughout_iff
    (along_not_losesTracked (by decide) _) hafter).mpr (by decide)

/-- The CA is stopped while the startup machine waits for its port, and some
process answers there: the CA is reported `Ready` without a child. -/
theorem stopCa_then_ready :
    ∃ s, Reachable Config.default s ∧ s.pc = .poll ∧ s.ca.state = .ready ∧
      s.ca.childPid = none ∧ ¬ StatusSound s := by
  obtain ⟨s, hafter, hpc, hstate, hnone⟩ := exists_after
    (bootCa ++ requestRound "stop_ca" (.works 101 201))
    (P := fun s => s.pc = .poll ∧ s.ca.state = .ready ∧ s.ca.childPid = none)
    (by decide)
  refine ⟨s, reach_of_after hafter (.of_forall (fun _ _ => trivial) _ _), hpc,
    hstate, hnone, fun h => ?_⟩
  obtain ⟨pid, htracked, -⟩ := h .ca (Or.inr hstate)
  have hsome : s.ca.childPid = some pid := htracked
  rw [hnone] at hsome
  cases hsome

end Teeproxyd
