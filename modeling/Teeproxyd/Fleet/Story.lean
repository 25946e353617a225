import Teeproxyd.Support.EventLog
import Teeproxyd.Support.Supervision
import Teeproxyd.Daemon.Startup

/-!
# The supervised fleet, told by its log

The abstract view of the daemon: the two managers and the table of un-reaped
children, changed by nothing but the events of the log.  `Happens` says which
event is possible in which fleet and what it leads to.  That the daemon's log
is such a story is proved in `Teeproxyd.Fleet.Refinement`; here are the facts
that hold of every story.
-/

namespace Teeproxyd

open ProcessTable Supervision EventLog

/-- The managers and the un-reaped children. -/
@[ext] structure Fleet where
  mgr : Role → Manager
  table : Table Role

def Sys.fleet (sys : Sys) : Fleet := ⟨sys.mgr, sys.kernel.table⟩

namespace Fleet

def new : Fleet := ⟨fun _ => Manager.new, Table.empty⟩

def set (f : Fleet) (r : Role) (m : Manager) : Fleet :=
  { f with mgr := Function.update f.mgr r m }

/-- The pids the managers record, with the children. -/
def slots (f : Fleet) : Slots Role := ⟨fun r => (f.mgr r).childPid, f.table⟩

/-- No running child holds the pid. -/
def Ended (f : Fleet) (pid : Pid) : Prop := ∀ r, ¬ f.table.AliveOf r pid

end Fleet

/-- `Happens f (t, e) g`: event `e` at time `t` leads from `f` to `g`. -/
inductive Happens : Fleet → Instant × Event → Fleet → Prop
  | exited {f : Fleet} {t : Instant} {pid : Pid} {r : Role}
      (hrunning : f.table.AliveOf r pid) :
      Happens f (t, .exited pid) { f with table := f.table.exit pid }
  | spawned {f : Fleet} {t : Instant} {r : Role} {pid : Pid}
      {command : Command} (hfresh : f.table.find pid = none) :
      Happens f (t, .spawned r pid command)
        { mgr := Function.update f.mgr r
            { f.mgr r with state := .launched, childPid := some pid }
          table := f.table.spawn r pid }
  | spawnFailed {f : Fleet} {t : Instant} {r : Role} :
      Happens f (t, .spawnFailed r)
        (f.set r { f.mgr r with state := .starting })
  | signalled {f : Fleet} {t : Instant} {r : Role} {pid : Pid} {sig : Signal}
      (htracked : (f.mgr r).childPid = some pid) :
      Happens f (t, .signalled pid sig ((f.table.find pid).map Proc.owner)) f
  | pkilledChildren {f : Fleet} {t : Instant} {r : Role} {pid : Pid}
      (htracked : (f.mgr r).childPid = some pid) :
      Happens f
        (t, .pkilledChildren pid ((f.table.find pid).map Proc.owner)) f
  | pkilledCrosvm {f : Fleet} {t : Instant} : Happens f (t, .pkilledCrosvm) f
  | stopped {f : Fleet} {t : Instant} {r : Role}
      (hended : ∀ pid, (f.mgr r).childPid = some pid → f.Ended pid) :
      Happens f (t, .stopped r) (f.set r (f.mgr r).halted)
  | died {f : Fleet} {t : Instant} {r : Role} {pid : Pid}
      (htracked : (f.mgr r).childPid = some pid) (hended : f.Ended pid) :
      Happens f (t, .died r pid)
        { mgr := Function.update f.mgr r (f.mgr r).markDead
          table := f.table.reap pid }
  | condemned {f : Fleet} {t : Instant} {r : Role}
      (hstrikes : 5 ≤ (f.mgr r).crashCount)
      (hnone : (f.mgr r).childPid = none)
      (hsince : (f.mgr r).readySince = none) :
      Happens f (t, .condemned r)
        (f.set r { f.mgr r with state := .error })
  | discarded {f : Fleet} {t : Instant} {pid : Pid}
      (huntracked : ∀ r, (f.mgr r).childPid ≠ some pid)
      (hended : f.Ended pid) :
      Happens f (t, .discarded pid) { f with table := f.table.reap pid }
  | lost {f : Fleet} {t : Instant} {pid : Pid} (hended : f.Ended pid) :
      Happens f (t, .lost pid) { f with table := f.table.reap pid }
  | ready {f : Fleet} {t : Instant} {r : Role} :
      Happens f (t, .ready r)
        (f.set r { f.mgr r with state := .ready, readySince := some t })
  | countReset {f : Fleet} {t : Instant} {r : Role}
      (hstable : (f.mgr r).stable t = true) :
      Happens f (t, .countReset r)
        (f.set r { f.mgr r with crashCount := 0 })
  | vsockProbe {f : Fleet} {t : Instant} {ok : Bool} :
      Happens f (t, .vsockProbe ok) f
  | portProbe {f : Fleet} {t : Instant} {ok : Bool} :
      Happens f (t, .portProbe ok) f
  | healthProbe {f : Fleet} {t : Instant} {outcome : Connect} :
      Happens f (t, .healthProbe outcome) f
  | handled {f : Fleet} {t : Instant} {cmd : Cmd} :
      Happens f (t, .handled cmd) f

/-! ## Slots -/

/-- What an event does to the recorded pids and the children. -/
def Event.move : Event → Option (Move Role)
  | .exited pid => some (.exit pid)
  | .spawned r pid _ => some (.launch r pid)
  | .stopped r => some (.release r)
  | .died r pid => some (.bury r pid)
  | .discarded pid => some (.discard pid)
  | .lost pid => some (.lose pid)
  | _ => none

namespace Fleet

theorem slots_update (mgr : Role → Manager) (r : Role) (m : Manager)
    (table : Table Role) :
    (Fleet.mk (Function.update mgr r m) table).slots =
      { tracked := Function.update (fun q => (mgr q).childPid) r m.childPid
        table := table } := by
  have htracked := Function.comp_update Manager.childPid mgr r m
  simpa [slots, Function.comp_def] using htracked

/-- A change of a manager that keeps its pid does not show in the slots. -/
theorem slots_set_of_childPid {f : Fleet} {r : Role} {m : Manager}
    (h : m.childPid = (f.mgr r).childPid) : (f.set r m).slots = f.slots := by
  rw [set, slots_update, h]
  congr 1
  exact Function.update_eq_self r fun q => (f.mgr q).childPid

end Fleet

/-- The fleet's events are moves of its slots. -/
theorem Happens.simulates {f g : Fleet} {t : Instant} {e : Event}
    (h : Happens f (t, e) g) :
    (∃ m, e.move = some m ∧ Moves f.slots m g.slots) ∨
      (e.move = none ∧ g.slots = f.slots) := by
  cases h with
  | exited hrunning => exact Or.inl ⟨_, rfl, .exit hrunning⟩
  | spawned hfresh =>
      refine Or.inl ⟨_, rfl, ?_⟩
      rw [Fleet.slots_update]
      exact .launch hfresh
  | stopped hended =>
      refine Or.inl ⟨_, rfl, ?_⟩
      rw [Fleet.set, Fleet.slots_update]
      exact .release hended
  | died htracked hended =>
      refine Or.inl ⟨_, rfl, ?_⟩
      rw [Fleet.slots_update]
      exact .bury htracked hended
  | discarded huntracked hended =>
      exact Or.inl ⟨_, rfl, .discard huntracked hended⟩
  | lost hended => exact Or.inl ⟨_, rfl, .lose hended⟩
  | spawnFailed => exact Or.inr ⟨rfl, Fleet.slots_set_of_childPid rfl⟩
  | condemned => exact Or.inr ⟨rfl, Fleet.slots_set_of_childPid rfl⟩
  | ready => exact Or.inr ⟨rfl, Fleet.slots_set_of_childPid rfl⟩
  | countReset => exact Or.inr ⟨rfl, Fleet.slots_set_of_childPid rfl⟩
  | signalled => exact Or.inr ⟨rfl, rfl⟩
  | pkilledChildren => exact Or.inr ⟨rfl, rfl⟩
  | pkilledCrosvm => exact Or.inr ⟨rfl, rfl⟩
  | vsockProbe => exact Or.inr ⟨rfl, rfl⟩
  | portProbe => exact Or.inr ⟨rfl, rfl⟩
  | healthProbe => exact Or.inr ⟨rfl, rfl⟩
  | handled => exact Or.inr ⟨rfl, rfl⟩

theorem Happens.sound {f g : Fleet} {t : Instant} {e : Event}
    (h : Happens f (t, e) g)
    (hkept : ∀ pid, e = .lost pid → ∀ r, (f.mgr r).childPid ≠ some pid)
    (hsound : f.slots.Sound) : g.slots.Sound := by
  rcases h.simulates with ⟨m, hm, hmove⟩ | ⟨-, hslots⟩
  · refine hmove.sound ?_ hsound
    rintro pid rfl
    cases e <;> simp [Event.move] at hm
    subst hm
    exact hkept _ rfl
  · rwa [hslots]

theorem Happens.exclusive {f g : Fleet} {t : Instant} {e : Event}
    (h : Happens f (t, e) g)
    (hclear : ∀ r pid command, e = .spawned r pid command →
      ∀ q, ¬ f.table.AliveOf r q)
    (hexcl : f.slots.Exclusive) : g.slots.Exclusive := by
  rcases h.simulates with ⟨m, hm, hmove⟩ | ⟨-, hslots⟩
  · refine hmove.exclusive ?_ hexcl
    rintro r pid rfl
    cases e <;> simp [Event.move] at hm
    obtain ⟨rfl, rfl⟩ := hm
    exact hclear _ _ _ rfl
  · rwa [hslots]

/-! ## The managers one by one -/

/-- Whose manager an event changes. -/
def Event.subject : Event → Option Role
  | .spawned r _ _ | .spawnFailed r | .stopped r | .died r _ => some r
  | .condemned r | .ready r | .countReset r => some r
  | _ => none

/-- What an event of a role does to the role's manager. -/
inductive Changes (t : Instant) (r : Role) : Manager → Event → Manager → Prop
  | spawned {m : Manager} {pid : Pid} {command : Command} :
      Changes t r m (.spawned r pid command)
        { m with state := .launched, childPid := some pid }
  | spawnFailed {m : Manager} :
      Changes t r m (.spawnFailed r) { m with state := .starting }
  | stopped {m : Manager} : Changes t r m (.stopped r) m.halted
  | died {m : Manager} {pid : Pid} (htracked : m.childPid = some pid) :
      Changes t r m (.died r pid) m.markDead
  | condemned {m : Manager} (hstrikes : 5 ≤ m.crashCount)
      (hnone : m.childPid = none) (hsince : m.readySince = none) :
      Changes t r m (.condemned r) { m with state := .error }
  | ready {m : Manager} :
      Changes t r m (.ready r) { m with state := .ready, readySince := some t }
  | countReset {m : Manager} (hstable : m.stable t = true) :
      Changes t r m (.countReset r) { m with crashCount := 0 }

theorem Changes.subject {t : Instant} {r : Role} {m m' : Manager} {e : Event}
    (h : Changes t r m e m') : e.subject = some r := by
  cases h <;> rfl

theorem Changes.update {t : Instant} {r : Role} {m m' : Manager} {e : Event}
    {mgr : Role → Manager} (h : Changes t r m e m') (hm : m = mgr r)
    (q : Role) :
    (e.subject ≠ some q ∧ Function.update mgr r m' q = mgr q) ∨
      Changes t q (mgr q) e (Function.update mgr r m' q) := by
  subst hm
  by_cases hqr : q = r
  · subst hqr
    rw [Function.update_self]
    exact Or.inr h
  · rw [h.subject]
    exact Or.inl ⟨by simp [Ne.symm hqr], Function.update_of_ne hqr _ _⟩

/-- An event changes a manager as its role's event, or leaves it alone. -/
theorem Happens.changes {f g : Fleet} {t : Instant} {e : Event}
    (h : Happens f (t, e) g) (q : Role) :
    (e.subject ≠ some q ∧ g.mgr q = f.mgr q) ∨
      Changes t q (f.mgr q) e (g.mgr q) := by
  cases h with
  | spawned => exact Changes.update .spawned rfl q
  | spawnFailed => exact Changes.update .spawnFailed rfl q
  | stopped => exact Changes.update .stopped rfl q
  | died htracked => exact Changes.update (.died htracked) rfl q
  | condemned hstrikes hnone hsince =>
      exact Changes.update (.condemned hstrikes hnone hsince) rfl q
  | ready => exact Changes.update .ready rfl q
  | countReset hstable => exact Changes.update (.countReset hstable) rfl q
  | _ => exact Or.inl ⟨nofun, rfl⟩

/-- What holds of a manager in every story: an `Idle` or `Error` manager
records no pid, a `Booting` or `Running` one does, and `Error` means that the
strikes are used up. -/
structure Manager.WellFormed (m : Manager) : Prop where
  quiet : m.state = .idle ∨ m.state = .error → m.childPid = none
  launched : m.state = .launched → m.childPid.isSome
  strikes : m.state = .error → 5 ≤ m.crashCount ∧ m.readySince = none

namespace Manager

theorem wellFormed_new : new.WellFormed where
  quiet _ := rfl
  launched h := by simp [new] at h
  strikes h := by simp [new] at h

/-- The test of `is_dead` never succeeds on such a manager. -/
theorem WellFormed.not_isDead {m : Manager} (h : m.WellFormed) (k : Kernel) :
    ¬ m.isDead k = true := by
  unfold Manager.isDead
  by_cases hquiet : m.state = .idle ∨ m.state = .error
  · simp [h.quiet hquiet]
  · simp only [not_or] at hquiet
    simp [hquiet.1, hquiet.2]

theorem wellFormed_halted (m : Manager) : m.halted.WellFormed where
  quiet _ := rfl
  launched h := by simp [halted] at h
  strikes h := by simp [halted] at h

theorem wellFormed_markDead (m : Manager) : m.markDead.WellFormed where
  quiet _ := rfl
  launched h := by simp [markDead] at h
  strikes h := by simp [markDead] at h

end Manager

theorem Changes.wellFormed {t : Instant} {r : Role} {m m' : Manager}
    {e : Event} (h : Changes t r m e m') (hm : m.WellFormed) :
    m'.WellFormed := by
  cases h with
  | spawned => exact ⟨by simp, by simp, by simp⟩
  | spawnFailed => exact ⟨by simp, by simp, by simp⟩
  | stopped => exact Manager.wellFormed_halted m
  | died => exact Manager.wellFormed_markDead m
  | condemned hstrikes hnone hsince =>
      exact ⟨fun _ => hnone, by simp, fun _ => ⟨hstrikes, hsince⟩⟩
  | ready => exact ⟨by simp, by simp, by simp⟩
  | countReset hstable =>
      refine ⟨hm.quiet, hm.launched, fun herror => ?_⟩
      have hnone := (hm.strikes herror).2
      simp [Manager.stable, hnone] at hstable

theorem Happens.wellFormed {f g : Fleet} {te : Instant × Event}
    (h : Happens f te g) (hf : ∀ r, (f.mgr r).WellFormed) :
    ∀ r, (g.mgr r).WellFormed := by
  intro r
  rcases h.changes r with ⟨-, hsame⟩ | hchanges
  · rw [hsame]
    exact hf r
  · exact hchanges.wellFormed (hf r)

/-! ## The log as history -/

/-- When the manager last became `Ready`, unless its child was stopped or died
after that. -/
def readyMark : List (Instant × Event) → Role → Option Instant
  | [], _ => none
  | (t, .ready q) :: log, r => if q = r then some t else readyMark log r
  | (_, .stopped q) :: log, r => if q = r then none else readyMark log r
  | (_, .died q _) :: log, r => if q = r then none else readyMark log r
  | _ :: log, r => readyMark log r

theorem readyMark_cons {te : Instant × Event} {log : List (Instant × Event)}
    {r : Role} (h : te.2.subject ≠ some r) :
    readyMark (te :: log) r = readyMark log r := by
  obtain ⟨t, e⟩ := te
  cases e with
  | ready q => exact if_neg fun hqr => h (congrArg some hqr)
  | stopped q => exact if_neg fun hqr => h (congrArg some hqr)
  | died q pid => exact if_neg fun hqr => h (congrArg some hqr)
  | _ => rfl

/-- `ready_since` is what the log says. -/
theorem Happens.readySince {f g : Fleet} {te : Instant × Event}
    {log : List (Instant × Event)} (h : Happens f te g)
    (hf : ∀ r, (f.mgr r).readySince = readyMark log r) :
    ∀ r, (g.mgr r).readySince = readyMark (te :: log) r := by
  intro r
  rcases h.changes r with ⟨hsubject, hsame⟩ | hchanges
  · rw [hsame, readyMark_cons hsubject]
    exact hf r
  obtain ⟨t, e⟩ := te
  generalize hm : f.mgr r = m at hchanges
  generalize g.mgr r = m' at hchanges
  have hr := hf r
  rw [hm] at hr
  cases hchanges with
  | ready => exact (if_pos rfl).symm
  | stopped => exact (if_pos rfl).symm
  | died => exact (if_pos rfl).symm
  | spawned => exact hr
  | spawnFailed => exact hr
  | condemned => exact hr
  | countReset => exact hr

end Teeproxyd
