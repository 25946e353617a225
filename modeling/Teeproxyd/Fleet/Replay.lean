import Teeproxyd.Supervision.Tracking

/-!
# The daemon refines its abstract views

Every run of the daemon is a run of the supervised slots, move by move, and the
log holds enough to rebuild the managers and the table of children from it.
-/

namespace Teeproxyd

open EventLog ProcessTable Supervision TransitionSystem

variable {cfg : Config} {s : Daemon} {now : Instant} {ls : List Label}

/-! ## The abstract views -/

/-- What an event of the log says has become of the fleet. -/
def Fleet.replay : Instant × Event → Fleet → Fleet
  | (_, .exited pid), f => { f with table := f.table.exit pid }
  | (_, .spawned r pid _), f =>
      { mgr := Function.update f.mgr r
          { f.mgr r with state := .launched, childPid := some pid }
        table := f.table.spawn r pid }
  | (_, .spawnFailed r), f => f.set r { f.mgr r with state := .starting }
  | (_, .stopped r), f => f.set r (f.mgr r).halted
  | (_, .died r pid), f =>
      { mgr := Function.update f.mgr r (f.mgr r).markDead
        table := f.table.reap pid }
  | (_, .condemned r), f => f.set r { f.mgr r with state := .error }
  | (_, .discarded pid), f | (_, .lost pid), f =>
      { f with table := f.table.reap pid }
  | (t, .ready r), f =>
      f.set r { f.mgr r with state := .ready, readySince := some t }
  | (_, .countReset r), f => f.set r { f.mgr r with crashCount := 0 }
  | _, f => f

theorem Happens.eq_replay {f g : Fleet} {te : Instant × Event}
    (h : Happens f te g) : g = Fleet.replay te f := by
  cases h <;> rfl

/-- What an event does to the children does not depend on the managers. -/
theorem Fleet.replay_table (te : Instant × Event) {f g : Fleet}
    (h : f.table = g.table) :
    (Fleet.replay te f).table = (Fleet.replay te g).table := by
  obtain ⟨t, e⟩ := te
  cases e <;> simp [Fleet.replay, Fleet.set, h]

/-- A supervisor that has recorded nothing and has no children. -/
def emptySlots : Slots Role := ⟨fun _ => none, Table.empty⟩

theorem slots_new : Fleet.new.slots = emptySlots := rfl

/-! ## Runs -/

/-- The log of a run is a story of the fleet. -/
theorem story_of_exec (hrun : exec (step cfg) (init cfg now) ls = some s)
    (hpc : s.pc ≠ .panicked) :
    Story Happens (fun _ _ => True) Fleet.new s.kernel.log s.sys.fleet := by
  have hreach : Reachable cfg s := ⟨now, reachable_of_exec hrun⟩
  refine (reach_history (I := Story Happens (fun _ _ => True) Fleet.new)
    (.nil _) ?_ hreach).resolve_left hpc
  intro u l _ log f te g _ hte hlog
  exact .cons hlog trivial hte

/-- Unless the daemon panics, every run of it is a run of the abstract
supervisor, whose moves are those that the log tells. -/
theorem runs_refine_supervisor
    (hrun : exec (step cfg) (init cfg now) ls = some s)
    (hpc : s.pc ≠ .panicked) :
    Story Moves (fun _ _ => True) emptySlots
      (s.kernel.log.filterMap fun te => te.2.move) s.sys.fleet.slots := by
  have hstory := story_of_exec hrun hpc
  rw [← slots_new]
  refine hstory.simulates Fleet.slots (fun te => te.2.move) ?_
  rintro f ⟨t, e⟩ g hte
  exact hte.simulates

/-- The start of the daemon is two moves, and two children are recorded. -/
theorem runs_refine_supervisor_bootUp :
    ∃ s moves, after bootUp = some s ∧ moves.length = 2 ∧
      Story Moves (fun _ _ => True) emptySlots moves s.sys.fleet.slots ∧
      s.sys.fleet.slots.tracked .vm = some 100 ∧
      s.sys.fleet.slots.tracked .ca = some 200 := by
  obtain ⟨s, hafter, hpc, hmoves, hvm, hca⟩ := exists_after bootUp
    (P := fun s => s.pc ≠ .panicked ∧
      (s.kernel.log.filterMap fun te => te.2.move).length = 2 ∧
      s.vm.childPid = some 100 ∧ s.ca.childPid = some 200) (by decide)
  exact ⟨s, _, hafter, hmoves, runs_refine_supervisor hafter hpc, hvm, hca⟩

/-- The children can be told from the log alone, whatever happens, and the
managers' states, pids, crash counts and times as long as the daemon is
there. -/
theorem log_replays (hrun : exec (step cfg) (init cfg now) ls = some s) :
    (s.kernel.log.foldr Fleet.replay Fleet.new).table = s.kernel.table ∧
      (s.pc ≠ .panicked →
        s.kernel.log.foldr Fleet.replay Fleet.new = s.sys.fleet) := by
  have hreach : Reachable cfg s := ⟨now, reachable_of_exec hrun⟩
  constructor
  · refine reach_invariant (I := fun log f =>
      (log.foldr Fleet.replay Fleet.new).table = f.table) rfl ?_ ?_ hreach
    · exact fun log f h => h
    · intro u l _ log f te g _ hte h
      rw [List.foldr_cons, Fleet.replay_table te h, hte.eq_replay]
  · intro hpc
    have hstory := story_of_exec hrun hpc
    exact (hstory.eq_foldr fun _ _ _ hte => hte.eq_replay).symm

/-- The pids of the booted daemon's children can be read off its log. -/
theorem log_replays_bootUp :
    ∃ s, after bootUp = some s ∧
      ∀ r, ((s.kernel.log.foldr Fleet.replay Fleet.new).mgr r).childPid =
        (s.sys.mgr r).childPid := by
  obtain ⟨s, hafter, hpc⟩ := exists_after bootUp
    (P := fun s => s.pc ≠ .panicked) (by decide)
  refine ⟨s, hafter, fun r => ?_⟩
  rw [(log_replays hafter).2 hpc]
  rfl

end Teeproxyd
