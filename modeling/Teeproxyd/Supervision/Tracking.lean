import Teeproxyd.Fleet.Refinement

/-!
# The recorded pids are the daemon's own children

A root daemon that signals a pid it no longer owns kills an unrelated process.
This module shows that the recorded pids are always un-reaped children of
their own role, so that every signal the daemon sends reaches one of them.  The
only condition is that `waitpid` names every recorded child it reaps.
-/

namespace Teeproxyd

open ProcessTable TransitionSystem Supervision

variable {cfg : Config} {s : Daemon}

/-- The signals of the log all went to a pid that an un-reaped child of the
daemon held. -/
def SignalsOwnChildren (log : List (Instant × Event)) : Prop :=
  (∀ t pid sig child, (t, Event.signalled pid sig child) ∈ log →
    child.isSome) ∧
  (∀ t pid child, (t, Event.pkilledChildren pid child) ∈ log → child.isSome)

/-- The tracking invariant. -/
structure Tracked (log : List (Instant × Event)) (f : Fleet) : Prop where
  sound : f.slots.Sound
  spawned : ∀ r pid, f.table.OwnedBy r pid → pid ∈ Kernel.spawnsIn log r
  wellFormed : ∀ r, (f.mgr r).WellFormed
  signals : SignalsOwnChildren log

theorem mem_spawnsIn_cons {te : Instant × Event}
    {log : List (Instant × Event)} {r : Role} {pid : Pid}
    (h : pid ∈ Kernel.spawnsIn log r) : pid ∈ Kernel.spawnsIn (te :: log) r :=
  (List.sublist_cons_self te log).filterMap _ |>.subset h

/-- A sound fleet signals its own child. -/
theorem childOf_isSome {f : Fleet} (hsound : f.slots.Sound) {r : Role}
    {pid : Pid} (htracked : (f.mgr r).childPid = some pid) :
    ((f.table.find pid).map Proc.owner).isSome := by
  obtain ⟨a, ha⟩ := hsound r pid htracked
  have hfind : f.table.find pid = some ⟨pid, r, a⟩ := ha
  simp [hfind]

theorem Tracked.spawned_of_happens {log : List (Instant × Event)}
    {f g : Fleet} {te : Instant × Event} (h : Tracked log f)
    (hte : Happens f te g) :
    ∀ r pid, g.table.OwnedBy r pid → pid ∈ Kernel.spawnsIn (te :: log) r := by
  intro q pid hpid
  cases hte with
  | @spawned t r p command hfresh =>
      rcases (Table.ownedBy_spawn f.table hfresh).mp hpid with ⟨rfl, rfl⟩ | hold
      · simp [Kernel.spawnsIn]
      · exact mem_spawnsIn_cons (h.spawned q pid hold)
  | exited =>
      exact mem_spawnsIn_cons
        (h.spawned q pid ((Table.ownedBy_exit f.table).mp hpid))
  | died =>
      exact mem_spawnsIn_cons
        (h.spawned q pid ((Table.ownedBy_reap f.table).mp hpid).2)
  | discarded =>
      exact mem_spawnsIn_cons
        (h.spawned q pid ((Table.ownedBy_reap f.table).mp hpid).2)
  | lost =>
      exact mem_spawnsIn_cons
        (h.spawned q pid ((Table.ownedBy_reap f.table).mp hpid).2)
  | _ => exact mem_spawnsIn_cons (h.spawned q pid hpid)

theorem Tracked.signals_of_happens {log : List (Instant × Event)}
    {f g : Fleet} {te : Instant × Event} (h : Tracked log f)
    (hte : Happens f te g) : SignalsOwnChildren (te :: log) := by
  obtain ⟨hsignals, hpkills⟩ := h.signals
  constructor
  · intro t pid sig child hmem
    rcases List.mem_cons.mp hmem with heq | hmem
    · subst heq
      cases hte with
      | signalled htracked => exact childOf_isSome h.sound htracked
    · exact hsignals t pid sig child hmem
  · intro t pid child hmem
    rcases List.mem_cons.mp hmem with heq | hmem
    · subst heq
      cases hte with
      | pkilledChildren htracked => exact childOf_isSome h.sound htracked
    · exact hpkills t pid child hmem

theorem Tracked.happens {log : List (Instant × Event)} {f g : Fleet}
    {te : Instant × Event} (h : Tracked log f) (hte : Happens f te g)
    (hkept : ∀ pid, te.2 = .lost pid → ∀ r, (f.mgr r).childPid ≠ some pid) :
    Tracked (te :: log) g where
  sound := hte.sound hkept h.sound
  spawned := h.spawned_of_happens hte
  wellFormed := hte.wellFormed h.wellFormed
  signals := h.signals_of_happens hte

theorem Tracked.new : Tracked [] Fleet.new where
  sound r pid h := by cases h
  spawned r pid h := by
    obtain ⟨a, ha⟩ := h
    cases ha
  wellFormed _ := Manager.wellFormed_new
  signals := ⟨by simp, by simp⟩

/-- A program that is gone records nothing. -/
theorem Tracked.crash {log : List (Instant × Event)} {f : Fleet}
    (h : Tracked log f) : Tracked log ⟨fun _ => Manager.new, f.table⟩ where
  sound r pid h := by cases h
  spawned := h.spawned
  wellFormed _ := Manager.wellFormed_new
  signals := h.signals

/-- What a step loses is not recorded, when the step meets the condition. -/
theorem not_tracked_of_lost {l : Label} {f : Fleet} {te : Instant × Event}
    (hkept : ¬ LosesTracked s l) (hcause : Cause cfg s l f te) (pid : Pid)
    (hlost : te.2 = .lost pid) (r : Role) : (f.mgr r).childPid ≠ some pid := by
  obtain ⟨rfl, hloses⟩ : f = s.sys.fleet ∧ l.loses = some pid := by
    simpa [Cause, hlost] using hcause
  exact fun htracked => hkept ⟨r, pid, hloses, htracked⟩

theorem step_tracked {t : Daemon} {l : Label} (hkept : ¬ LosesTracked s l)
    (hs : Tracked s.kernel.log s.sys.fleet) (hstep : step cfg s l = some t) :
    Tracked t.kernel.log t.sys.fleet :=
  step_invariant (fun _ _ h => h.crash)
    (fun _ _ _ _ hcause hte h =>
      h.happens hte (not_tracked_of_lost hkept hcause)) hstep hs

theorem reach_tracked (hreach : Reach cfg (fun s l => ¬ LosesTracked s l) s) :
    Tracked s.kernel.log s.sys.fleet := by
  refine reach_invariant Tracked.new (fun _ _ h => h.crash) ?_ hreach
  intro u l hkept log f te g hcause hte h
  exact h.happens hte (not_tracked_of_lost hkept hcause)

/-- Child tracking is sound: a recorded pid is an un-reaped child that the
daemon spawned for that manager, the two managers record different pids, an
`Idle` or `Error` manager records none, and every signal goes to a child. -/
theorem trackingSound (hreach : Reach cfg (fun s l => ¬ LosesTracked s l) s) :
    (∀ r pid, (s.sys.mgr r).childPid = some pid →
      pid ∈ Kernel.spawnsIn s.kernel.log r ∧ s.kernel.table.OwnedBy r pid) ∧
    (∀ pid, s.vm.childPid = some pid → s.ca.childPid ≠ some pid) ∧
    (∀ r, (s.sys.mgr r).state = .idle ∨ (s.sys.mgr r).state = .error →
      (s.sys.mgr r).childPid = none) ∧
    SignalsOwnChildren s.kernel.log := by
  have h := reach_tracked hreach
  refine ⟨?_, ?_, fun r => (h.wellFormed r).quiet, h.signals⟩
  · intro r pid htracked
    have howned := h.sound r pid htracked
    exact ⟨h.spawned r pid howned, howned⟩
  · intro pid hvm hca
    have hsame := h.sound.tracked_injective (i := .vm) (j := .ca) hvm hca
    cases hsame

/-! ## Sample runs -/

/-- Every file is in place and the child gets this pid. -/
def StartEnv.works (pid : Pid) : StartEnv where
  pathExists _ := true
  metadata _ := .ok 1000000
  spawn :=
    { openLog := .ok ()
      cloneLog := .ok ()
      spawn := .ok pid
      took := 0 }

/-- The stopped process ends at its first SIGTERM. -/
def KillEnv.obeys : KillEnv where
  exitAt := some 0
  lag _ := 0

/-- Both probes succeed, and the children get these pids. -/
def StartupEnv.works (vmPid caPid : Pid) : StartupEnv where
  vmStart := .works vmPid
  vsockUp := true
  vsockTook := 0
  caStart := .works caPid
  portUp := true
  portTook := 0

/-- The connection attempt has this outcome. -/
def HealthEnv.answers (outcome : Connect) (caPid : Pid) : HealthEnv where
  outcome := outcome
  took := 0
  kill := .obeys
  start := .works caPid

/-- An iteration of the main loop in which a client does not get through. -/
def round (env : StartupEnv) (health : HealthEnv) : List Label :=
  [.poll .incoming, .accept false, .startup env, .health health, .resetCounts]

/-- An iteration in which all goes well. -/
def goodRound : List Label :=
  round (.works 100 200) (.answers .connected 300)

/-- The daemon's start up to `WaitingCaPort`, with VM 100 and CA 200. -/
def bootCa : List Label :=
  goodRound ++ [.tick (fromSecs 15)] ++ goodRound ++ goodRound ++ goodRound

/-- The daemon's start up to `Complete`. -/
def bootUp : List Label := bootCa ++ goodRound

/-- A request for a command. -/
def Value.command (cmd : String) : Value := .object [("cmd", .string cmd)]

/-- All starts and stops that a request may make succeed. -/
def RequestEnv.works (vmPid caPid : Pid) : RequestEnv where
  vmStart := .works vmPid
  caStart := .works caPid
  vmKill := .obeys
  caKill := .obeys
  files _ := none

/-- An iteration of the main loop that handles one request. -/
def requestRound (cmd : String) (env : RequestEnv) : List Label :=
  [.poll .incoming, .accept true, .request (.command cmd) env false,
    .startup (.works 102 202), .health (.answers .connected 302), .resetCounts]

/-- A request for a command, as the daemon handles it. -/
def ask (cmd : String) : Label :=
  .request (.command cmd) (.works 101 201) false

/-- The rest of an iteration whose health probe is refused. -/
def restOfRound : List Label :=
  [.startup (.works 102 202), .health (.answers .refused 302), .resetCounts]

/-- Nothing is where it should be. -/
def StartEnv.missing : StartEnv := { StartEnv.works 0 with pathExists _ := false }

/-- VM 100 dies and is about to be reaped. -/
def vmExit : List Label := [.exit 100, .deliverChld, .poll .incoming, .drain]

/-- VM 100 is reaped. -/
def reapVm : Label := .waitpid (some (100, .code 0)) (.works 0)

/-- From the end of the reaping to the startup machine. -/
def toStartup : List Label := [.waitpid none (.works 0), .accept false]

/-- From the end of the reaping to the head of the loop. -/
def restOfIteration : List Label :=
  toStartup ++ [.startup (.works 102 202), .health (.answers .connected 302),
    .resetCounts]

/-- CA 200 dies, is reaped and started again, in one iteration. -/
def caCrash : List Label :=
  [.exit 200, .deliverChld, .poll .incoming, .drain,
    .waitpid (some (200, .code 1)) (.works 201)] ++ restOfIteration

/-- CA 200 dies and is about to be reaped. -/
def caExit : List Label := [.exit 200, .deliverChld, .poll .incoming, .drain]

/-- CA `pid` ends and is reaped, and the CA started instead has the next
pid. -/
def strike (pid : Pid) : List Label :=
  [.exit pid, .waitpid (some (pid, .code 1)) (.works (pid + 1))]

/-- Five CAs from `pid` on end one after the other and are reaped in one
iteration. -/
def strikeOut (pid : Pid) : List Label :=
  [.exit pid, .deliverChld, .poll .incoming, .drain,
    .waitpid (some (pid, .code 1)) (.works (pid + 1))] ++
  strike (pid + 1) ++ strike (pid + 2) ++ strike (pid + 3) ++ strike (pid + 4) ++
  [.waitpid none (.works 0), .accept false]

/-- An iteration, ten seconds later, in which the CA refuses its probe. -/
def refusedRound : List Label :=
  .tick (fromSecs 10) :: round (.works 100 200) (.answers .refused 300)

/-- The state that a list of labels leads the default daemon to. -/
def after (ls : List Label) : Option Daemon :=
  exec (step Config.default) (init Config.default 0) ls

theorem reach_of_after {guard : Daemon → Label → Prop} {ls : List Label}
    (hafter : after ls = some s)
    (halong : Along (step Config.default) guard (init Config.default 0) ls) :
    Reach Config.default guard s :=
  ⟨0, path_of_exec hafter halong⟩

theorem exists_after (ls : List Label) {P : Daemon → Prop} [DecidablePred P]
    (h : (after ls).any (fun s => P s) = true) :
    ∃ s, after ls = some s ∧ P s := by
  obtain ⟨s, hafter, hP⟩ := (Option.any_eq_true _ _).mp h
  exact ⟨s, hafter, of_decide_eq_true hP⟩

/-- What holds after a part of a list of labels holds of that state of the
run. -/
theorem holds_at {ls : List Label} {run : Run (step Config.default) ls.length}
    (hinit : run.state 0 = init Config.default 0)
    (hlabel : ∀ i, run.label i = ls.getD i default) {i : ℕ}
    (hi : i ≤ ls.length) {P : Daemon → Prop} [DecidablePred P]
    (h : (after (ls.take i)).any (fun s => P s) = true) : P (run.state i) := by
  obtain ⟨s, hafter, hP⟩ := exists_after (ls.take i) h
  have hprefix := run.exec_take hlabel hi
  rw [hinit] at hprefix
  obtain rfl : s = run.state i := Option.some.inj (hafter.symm.trans hprefix)
  exact hP

theorem along_not_losesTracked {ls : List Label} (h : ∀ l ∈ ls, l.loses = none)
    (s : Daemon) :
    Along (step cfg) (fun s l => ¬ LosesTracked s l) s ls := by
  refine (Along.of_labels h s).mono ?_
  rintro s l hnone ⟨r, pid, hloses, -⟩
  rw [hnone] at hloses
  cases hloses

/-- The booted daemon records two running children. -/
theorem trackingSound_bootUp :
    ∃ s, after bootUp = some s ∧ s.vm.childPid = some 100 ∧
      s.ca.childPid = some 200 ∧ s.kernel.table.OwnedBy .vm 100 ∧
      s.kernel.table.OwnedBy .ca 200 ∧ SignalsOwnChildren s.kernel.log := by
  have hbooted : (after bootUp).any (fun s =>
      s.vm.childPid = some 100 ∧ s.ca.childPid = some 200) = true := by decide
  obtain ⟨s, hafter, hvm, hca⟩ := exists_after bootUp hbooted
  obtain ⟨howned, -, -, hsignals⟩ := trackingSound
    (reach_of_after hafter (along_not_losesTracked (by decide) _))
  exact ⟨s, hafter, hvm, hca, (howned .vm 100 hvm).2, (howned .ca 200 hca).2,
    hsignals⟩

end Teeproxyd
