import Teeproxyd.Ipc.Answers
import Teeproxyd.Supervision.Notice
import Teeproxyd.Supervision.SpawnBudget
import Teeproxyd.Supervision.StartAll

/-!
# What a session does and what its client is told

A session of `handle_client` is a run of the daemon.  A reply says `"ok": true`
or gives an error, and the count of the children that a session spawns and of
the stops that it makes can be read off the replies: the client is told of each
of them, and of no other.
-/

namespace Teeproxyd

open TransitionSystem Utf8

variable {cfg : Config} {k k' k'' : Kernel} {q r : Role} {m m' : Manager}

/-! ## The session as a run -/

namespace ClientCall

variable {c : ClientCall} {d : Daemon}

/-- A session of `handle_client` is a run of the daemon from the accepted
connection on, with one request label for each request. -/
theorem handleClient_run (hmade : c.MadeBy d) (hpc : d.pc = .session)
    (input : List UInt8) :
    ∃ ls, exec (step c.cfg) d ls =
        some (d.during (c.handleClient d.sys input)) ∧
      ls.filterMap Label.cmd =
        (c.handleClient d.sys input).requests.map requestCmd := by
  have hiterate : ∀ n, ∃ ls, exec (step c.cfg) d ls =
        some (d.during (c.next^[n] (start d.sys input))) ∧
      ls.filterMap Label.cmd =
        (c.next^[n] (start d.sys input)).requests.map requestCmd := by
    intro n
    induction n with
    | zero =>
        refine ⟨[], ?_, rfl⟩
        have hsame : d.during (start d.sys input) = d := by
          rw [Daemon.during, start, SessionStatus.pc, ← hpc]
        rw [Function.iterate_zero, id_eq, hsame, exec_nil]
    | succ n ih =>
        obtain ⟨ls, hrun, hcmds⟩ := ih
        obtain ⟨ms, hnext, hmore⟩ :=
          next_run hmade (c.next^[n] (start d.sys input))
        refine ⟨ls ++ ms, ?_, ?_⟩
        · rw [exec_append_eq_some_iff, Function.iterate_succ_apply']
          exact ⟨_, hrun, hnext⟩
        · rw [List.filterMap_append, hcmds, Function.iterate_succ_apply', hmore]
  exact hiterate (input.length + 1)

end ClientCall

/-- The part of `serde_json` that a session with a start needs. -/
def startSerde : Serde where
  fromStr s :=
    if s = "\x7b\x22cmd\x22:\x22start_vm\x22\x7d" then
      .ok (.command "start_vm")
    else .error "expected value at line 1 column 1"
  toStr := sampleSerde.toStr

/-- The daemon's first call, by a client that starts the VM and then sends a
line that is not JSON. -/
def startCall : ClientCall :=
  { sampleCall with startup := .vmStarting, serde := startSerde }

def startText : List Char :=
  "\x7b\x22cmd\x22:\x22start_vm\x22\x7d\nhello\n".toList

/-- The daemon when its first client is there. -/
def firstSession : Daemon := { init Config.default 0 with pc := .session }

theorem reachable_firstSession : Reachable Config.default firstSession := by
  let accepting : Daemon := { init Config.default 0 with pc := .accept true }
  have hpoll : step Config.default (init Config.default 0) (.poll .incoming) =
      some accepting := rfl
  have haccept : step Config.default accepting (.accept true) =
      some firstSession := rfl
  have hafter : after [.poll .incoming, .accept true] = some firstSession := by
    rw [after, exec_cons_eq_some_iff]
    exact ⟨accepting, hpoll, (exec_singleton _ _).trans haccept⟩
  exact reach_of_after hafter (.of_forall (fun _ _ => trivial) _ _)

theorem madeBy_firstSession : startCall.MadeBy firstSession where
  startup := rfl
  startedAt := rfl
  meanwhile _ _ _ := ⟨[], List.forall_mem_nil _, rfl⟩

/-- A session that starts the VM. -/
theorem handleClient_run_startVm :
    Reachable Config.default firstSession ∧
      ∃ ls, exec (step Config.default) firstSession ls =
          some (firstSession.during
            (startCall.handleClient firstSession.sys (encode startText))) ∧
        ls.filterMap Label.cmd = [.startVm] := by
  obtain ⟨ls, hrun, hcmds⟩ := ClientCall.handleClient_run madeBy_firstSession
    rfl (encode startText)
  have hrequests : (startCall.handleClient firstSession.sys
      (encode startText)).requests.map requestCmd = [.startVm] := by
    decide +kernel
  exact ⟨reachable_firstSession, ls, hrun, hcmds.trans hrequests⟩

/-! ## Counting stops -/

/-- How often a child of this role has been stopped. -/
def stopCount (k : Kernel) (r : Role) : ℕ :=
  k.log.countP fun te => te.2 = .stopped r

theorem stopCount_emit {e : Event} (he : e ≠ .stopped r) :
    stopCount (k.emit e) r = stopCount k r :=
  List.countP_cons_of_neg (by simpa using he)

theorem OnlyExits.stopCount_eq (h : OnlyExits k k') :
    stopCount k' r = stopCount k r := by
  obtain ⟨log, hlog, hexits⟩ := h
  have hnone : log.countP (fun te => te.2 = .stopped r) = 0 := by
    rw [List.countP_eq_zero]
    intro te hte
    obtain ⟨pid, hexited⟩ := hexits te hte
    simp [hexited]
  rw [stopCount, hlog, List.countP_append, hnone, Nat.zero_add, stopCount]

theorem stopCount_kill (k : Kernel) (pid : Pid) (sig : Signal) (r : Role) :
    stopCount (k.kill pid sig) r = stopCount k r := by
  have hsent : stopCount (k.emit (.signalled pid sig (k.childOf pid))) r =
      stopCount k r := stopCount_emit (by simp)
  cases sig with
  | sigterm => exact hsent
  | sigkill =>
      simp only [Kernel.kill]
      split
      · exact (stopCount_emit (e := .exited pid) (by simp)).trans hsent
      · exact hsent

theorem stopCount_gracefulKill {pid : Pid} {graceSecs : UInt64} {env : KillEnv}
    {gone : Bool} (h : gracefulKill k pid graceSecs env = .ok (k', gone)) :
    stopCount k' r = stopCount k r := by
  unfold gracefulKill at h
  split at h
  · cases h
    rfl
  dsimp only at h
  split at h
  · cases h
  next deadline hdeadline =>
    let bound := pollBound (k.kill pid .sigterm).now deadline
    have hpolled := onlyExits_gracefulPoll pid deadline env bound
      (k.kill pid .sigterm)
    have hsent := stopCount_kill k pid .sigterm r
    have hawait := Except.ok.inj h
    unfold awaitDeadline at hawait
    split at hawait
    next k₁ hpoll =>
      cases hawait
      rw [hpoll] at hpolled
      exact hpolled.stopCount_eq.trans hsent
    next k₁ hpoll =>
      rw [hpoll] at hpolled
      cases hawait
      have hslept := onlyExits_sleep (k₁.kill pid .sigkill) (fromMillis 100)
        pid env
      calc
        stopCount (sleep (k₁.kill pid .sigkill) (fromMillis 100) pid env) r =
            stopCount (k₁.kill pid .sigkill) r := hslept.stopCount_eq
        _ = stopCount k₁ r := stopCount_kill k₁ pid .sigkill r
        _ = stopCount (k.kill pid .sigterm) r := hpolled.stopCount_eq
        _ = stopCount k r := hsent

theorem stopCount_sweep (q : Role) (k : Kernel) (pid : Pid) (r : Role) :
    stopCount (q.sweep k pid) r = stopCount k r := by
  cases q with
  | ca => rfl
  | vm =>
      have hkilled := stopCount_kill k pid .sigkill r
      have hpkilled : ∀ k : Kernel,
          stopCount (k.pkillChildren pid) r = stopCount k r :=
        fun k => stopCount_emit (k := k.runHelper 0) nofun
      have hcrosvm : ∀ k : Kernel, stopCount k.pkillCrosvm r = stopCount k r :=
        fun k => stopCount_emit (k := k.runHelper 0) nofun
      exact (hcrosvm _).trans ((hpkilled _).trans hkilled)

theorem stopCount_stop {env : KillEnv}
    (h : q.stop cfg m k env = .ok (m', k')) :
    stopCount k' r = stopCount k r + (decide (q = r)).toNat := by
  have hrecorded : ∀ k : Kernel, stopCount (k.emit (.stopped q)) r =
      stopCount k r + (decide (q = r)).toNat := by
    intro k
    by_cases hq : q = r
    · subst hq
      simp [stopCount, Kernel.emit]
    · simp [stopCount, Kernel.emit, hq]
  rw [stop_eq] at h
  rcases stopWith_cases m k q cfg.shutdownGraceSecs q.sweep env with
    ⟨-, hstop⟩ | ⟨pid, -, ⟨k₁, -, hstop⟩ | ⟨k₁, gone, hkill, hstop⟩⟩
  · cases hstop.symm.trans h
    exact hrecorded k
  · cases hstop.symm.trans h
  · cases hstop.symm.trans h
    rw [hrecorded, stopCount_sweep, stopCount_gracefulKill hkill]

/-! ## What a start is answered -/

/-- The command starts a child of this role. -/
def Cmd.launches : Cmd → Role → Bool
  | startAll, .vm | startVm, .vm | startCa, .ca => true
  | _, _ => false

/-- From `k` to `k'` the child that the command starts is spawned, and those
that it stops are stopped, if the reply says so; and nothing else is. -/
structure Told (cmd : Cmd) (k k' : Kernel) (reply : Value) : Prop where
  formed : reply.isOk = true ∨ ∃ e, reply = errorMsg e
  spawns : ∀ r, spawnCount k' r =
    spawnCount k r + (cmd.launches r && reply.isOk).toNat
  stops : ∀ r, stopCount k' r =
    stopCount k r + (cmd.stops r && reply.isOk).toNat

theorem spawnCount_emit {e : Event}
    (he : ∀ pid command, e ≠ .spawned r pid command) :
    spawnCount (k.emit e) r = spawnCount k r :=
  congrArg List.length (spawnsIn_cons he)

theorem counts_start {env : StartEnv} {result : Except String Unit}
    (h : q.start cfg m k env = (m', k', result)) (r : Role) :
    spawnCount k' r =
        spawnCount k r + (decide (q = r) && result.isOk).toNat ∧
      stopCount k' r = stopCount k r := by
  rcases start_cases cfg q m k env with
    ⟨-, e, hstart⟩ | ⟨-, e, hstart⟩ | ⟨-, hint, command, hstart⟩
  · cases hstart.symm.trans h
    simp [Except.isOk, Except.toBool]
  · cases hstart.symm.trans h
    have hspawns : spawnCount (k.emit (.spawnFailed q)) r = spawnCount k r :=
      spawnCount_emit (by simp)
    have hstops : stopCount (k.emit (.spawnFailed q)) r = stopCount k r :=
      stopCount_emit (by simp)
    simp [hspawns, hstops, Except.isOk, Except.toBool]
  · cases hstart.symm.trans h
    constructor
    · by_cases hq : q = r
      · subst hq
        simp [spawnCount, Kernel.spawn, Kernel.emit, Kernel.advance,
          Kernel.spawnsIn, Except.isOk, Except.toBool]
      · simp [spawnCount, Kernel.spawn, Kernel.emit, Kernel.advance,
          Kernel.spawnsIn, hq]
    · exact stopCount_emit (k := { k.advance env.spawn.took with
        table := _ }) (by simp)

section Replies

variable {cmd : Cmd} {env : StartEnv} {e msg : String}

theorem told_started (hlaunches : ∀ r, cmd.launches r = decide (q = r))
    (hstops : ∀ r, cmd.stops r = false)
    (h : q.start cfg m k env = (m', k', .ok ())) :
    Told cmd k k' (okMsg msg) where
  formed := Or.inl rfl
  spawns r := by
    rw [hlaunches]
    exact (counts_start h r).1
  stops r := by
    rw [hstops, Bool.false_and]
    exact (counts_start h r).2

theorem told_refused (hstops : ∀ r, cmd.stops r = false)
    (h : q.start cfg m k env = (m', k', .error e)) :
    Told cmd k k' (errorMsg msg) where
  formed := Or.inr ⟨msg, rfl⟩
  spawns r := by
    have hspawns := (counts_start h r).1
    rw [hspawns]
    simp [Except.isOk, Except.toBool, errorMsg, Value.isOk, Value.index]
  stops r := by
    rw [hstops, Bool.false_and]
    exact (counts_start h r).2

theorem told_asked {reply : Value} (hlaunches : ∀ r, cmd.launches r = false)
    (hstops : ∀ r, cmd.stops r = false)
    (hformed : reply.isOk = true ∨ ∃ e, reply = errorMsg e) :
    Told cmd k k reply where
  formed := hformed
  spawns r := by rw [hlaunches, Bool.false_and]; rfl
  stops r := by rw [hstops, Bool.false_and]; rfl

theorem told_stopped {env : KillEnv} (hlaunches : ∀ r, cmd.launches r = false)
    (hstops : ∀ r, cmd.stops r = decide (q = r))
    (h : q.stop cfg m k env = .ok (m', k')) : Told cmd k k' (okMsg msg) where
  formed := Or.inl rfl
  spawns r := by
    rw [hlaunches, Bool.false_and, spawnCount_stop.2 m' k' h]
    rfl
  stops r := by
    have hok : (okMsg msg).isOk = true := rfl
    rw [hstops, hok, Bool.and_true]
    exact stopCount_stop h

theorem told_stoppedAll {caKill vmKill : KillEnv} {ca vm vm' : Manager}
    (hca : Role.stop cfg .ca m k caKill = .ok (ca, k'))
    (hvm : Role.stop cfg .vm vm k' vmKill = .ok (vm', k'')) :
    Told .stopAll k k'' (okMsg msg) where
  formed := Or.inl rfl
  spawns r := by
    rw [spawnCount_stop.2 vm' k'' hvm, spawnCount_stop.2 ca k' hca]
    rfl
  stops r := by
    rw [stopCount_stop hvm, stopCount_stop hca]
    cases r <;> rfl

end Replies

theorem handleTailLog_formed (cfg : Config) (req : Value)
    (files : String → Option ByteArray) :
    (handleTailLog cfg req files).isOk = true ∨
      ∃ e, handleTailLog cfg req files = errorMsg e := by
  unfold handleTailLog
  dsimp only
  split
  · exact Or.inr ⟨_, rfl⟩
  · exact Or.inl rfl

/-- The reply to a request tells what has come of it. -/
theorem dispatch_told {startup : StartupPhase} {startedAt : Instant}
    {req reply : Value} {sys sys' : Sys} {env : RequestEnv}
    (h : dispatch cfg startup startedAt req sys env = .ok (sys', reply)) :
    Told (requestCmd req) sys.kernel sys'.kernel reply := by
  unfold dispatch at h
  generalize requestCmd req = cmd at h
  cases cmd with
  | ping | status =>
      cases h
      exact told_asked (fun _ => rfl) (fun _ => rfl) (Or.inl rfl)
  | tailLog =>
      cases h
      exact told_asked (fun _ => rfl) (fun _ => rfl)
        (handleTailLog_formed cfg req env.files)
  | unknown cmd =>
      cases h
      exact told_asked (fun _ => rfl) (fun _ => rfl) (Or.inr ⟨_, rfl⟩)
  | startAll =>
      simp only [handleStartAll, Except.ok.injEq] at h
      split at h
      next hstart =>
        cases h
        exact told_refused (q := .vm) (fun _ => rfl) hstart
      next hstart =>
        cases h
        exact told_started (q := .vm) (fun r => by cases r <;> rfl)
          (fun _ => rfl) hstart
  | startVm =>
      simp only [handleStartVm, Except.ok.injEq] at h
      split at h
      next hstart =>
        cases h
        exact told_started (q := .vm) (fun r => by cases r <;> rfl)
          (fun _ => rfl) hstart
      next hstart =>
        cases h
        exact told_refused (q := .vm) (fun _ => rfl) hstart
  | startCa =>
      simp only [handleStartCa, Except.ok.injEq] at h
      split at h
      next hstart =>
        cases h
        exact told_started (q := .ca) (fun r => by cases r <;> rfl)
          (fun _ => rfl) hstart
      next hstart =>
        cases h
        exact told_refused (q := .ca) (fun _ => rfl) hstart
  | stopVm =>
      simp only [handleStopVm, bind, Except.bind] at h
      split at h
      next => cases h
      next hstop =>
        cases h
        exact told_stopped (q := .vm) (fun _ => rfl)
          (fun r => by cases r <;> rfl) hstop
  | stopCa =>
      simp only [handleStopCa, bind, Except.bind] at h
      split at h
      next => cases h
      next hstop =>
        cases h
        exact told_stopped (q := .ca) (fun _ => rfl)
          (fun r => by cases r <;> rfl) hstop
  | stopAll =>
      simp only [handleStopAll, bind, Except.bind] at h
      split at h
      next => cases h
      next hca =>
        split at h
        next => cases h
        next hvm =>
          cases h
          exact told_stoppedAll hca hvm

theorem spawnCount_dispatch_error {startup : StartupPhase}
    {startedAt : Instant} {req : Value} {sys : Sys} {env : RequestEnv}
    (h : dispatch cfg startup startedAt req sys env = .error k) (r : Role) :
    spawnCount k r = spawnCount sys.kernel r := by
  have hcall : ∀ q, env.call (requestCmd req) q = none := by
    intro q
    by_contra hsome
    obtain ⟨env', hcall⟩ := Option.ne_none_iff_exists'.mp hsome
    obtain ⟨reply, hok⟩ := dispatch_call cfg startup startedAt sys hcall
    cases hok.symm.trans h
  have hserves := dispatch_serves cfg startup startedAt sys hcall
  rw [h] at hserves
  generalize requestCmd req = cmd at hserves
  cases hserves with
  | stopPanics _ hstop => exact spawnCount_stop.1 k hstop
  | secondPanics hca hvm =>
      have hfirst := (spawnCount_stop (r := r) (q := .ca)).2 _ _ hca
      exact ((spawnCount_stop (q := .vm)).1 k hvm).trans hfirst

/-! ## What happens meanwhile -/

theorem OnlyExits.refl (k : Kernel) : OnlyExits k k :=
  ⟨[], rfl, fun te hte => by cases hte⟩

theorem OnlyExits.spawnCount_eq (h : OnlyExits k k') :
    spawnCount k' r = spawnCount k r := by
  obtain ⟨log, hlog, hexits⟩ := h
  rw [spawnCount, hlog]
  clear hlog
  induction log with
  | nil => rfl
  | cons te log ih =>
      obtain ⟨pid, hexited⟩ := hexits te List.mem_cons_self
      have hskip : Kernel.spawnsIn (te :: (log ++ k.log)) r =
          Kernel.spawnsIn (log ++ k.log) r :=
        spawnsIn_cons fun p command => by simp [hexited]
      rw [List.cons_append, hskip]
      exact ih fun te' hte' => hexits te' (List.mem_cons_of_mem te hte')

theorem step_onlyExits {s t : Daemon} {l : Label}
    (hl : l.isEnvironment = true) (hstep : step cfg s l = some t) :
    OnlyExits s.kernel t.kernel := by
  cases l with
  | exit pid =>
      obtain ⟨-, rfl⟩ := step_exit hstep
      exact ⟨[_], rfl, fun te hte => ⟨pid, by rw [List.mem_singleton.mp hte]⟩⟩
  | tick | crosvmStart | crosvmExit | others | terminate | sigchld
  | deliverChld | deliverTerm =>
      have hframe := step_quiet rfl hstep
      exact ⟨[], hframe.log, fun te hte => by cases hte⟩
  | _ => cases hl

theorem exec_onlyExits {s t : Daemon} {ls : List Label}
    (hls : ∀ l ∈ ls, l.isEnvironment = true)
    (hrun : exec (step cfg) s ls = some t) : OnlyExits s.kernel t.kernel := by
  have hpath := path_of_exec hrun (Along.of_labels hls s)
  refine hpath.preserves (I := fun u => OnlyExits s.kernel u.kernel) ?_
    (.refl _)
  intro u l v hl hu hstep
  exact hu.trans (step_onlyExits hl hstep)

variable {c : ClientCall} {d : Daemon}

/-- While the daemon serves a client, its environment spawns and stops
nobody. -/
theorem ClientCall.MadeBy.onlyExits (h : c.MadeBy d) (hpc : d.pc = .session)
    (n : ℕ) (k : Kernel) : OnlyExits k (c.meanwhile n k) := by
  obtain ⟨ls, hls, hrun⟩ := h.meanwhile n (d.withKernel k) hpc
  exact exec_onlyExits hls hrun

/-! ## Sessions -/

/-- A line of a client, with the request in it if it is JSON, the reply, and the
state of the daemon before and after. -/
structure Exchange where
  req : Option Value
  reply : Value
  before : Sys
  after : Sys

/-- What the session has gained from `s` to `t`. -/
def Session.exchange (s t : Session) : List Exchange :=
  (t.responses.drop s.responses.length).map fun reply =>
    ⟨(t.requests.drop s.requests.length).head?, reply, s.sys, t.sys⟩

/-- The exchanges of a session, one iteration after the other. -/
def ClientCall.exchanges (c : ClientCall) (sys : Sys) (input : List UInt8) :
    List Exchange :=
  (List.range (input.length + 1)).flatMap fun i =>
    (c.next^[i] (start sys input)).exchange (c.next^[i + 1] (start sys input))

namespace Exchange

/-- The client has been told that it has started a child of this role. -/
def started (x : Exchange) (r : Role) : Bool :=
  x.req.any (fun req => (requestCmd req).launches r) && x.reply.isOk

/-- The client has been told that it has stopped the child of this role. -/
def stopped (x : Exchange) (r : Role) : Bool :=
  x.req.any (fun req => (requestCmd req).stops r) && x.reply.isOk

end Exchange

/-- The exchanges of a session that began in `sys` tell what has come of it.
Only a request that makes the daemon panic has no reply. -/
structure Truthful (sys : Sys) (s : Session) (xs : List Exchange) : Prop where
  replies : s.responses = xs.map Exchange.reply
  requests : ∃ unanswered, s.requests =
    xs.filterMap Exchange.req ++ unanswered ∧
      unanswered.length = (decide (s.status = .panicked)).toNat
  formed : ∀ x ∈ xs, x.reply.isOk = true ∨ ∃ e, x.reply = errorMsg e
  refused : ∀ x ∈ xs, x.req = none → x.reply.isOk = false ∧ x.after = x.before
  spawns : ∀ r, spawnCount s.sys.kernel r =
    spawnCount sys.kernel r + xs.countP fun x => x.started r
  stops : s.status ≠ .panicked → ∀ r, stopCount s.sys.kernel r =
    stopCount sys.kernel r + xs.countP fun x => x.stopped r

namespace Truthful

variable {sys : Sys} {s : Session} {xs : List Exchange}

theorem start (sys : Sys) (input : List UInt8) :
    Truthful sys (ClientCall.start sys input) [] where
  replies := rfl
  requests := ⟨[], rfl, rfl⟩
  formed _ hx := absurd hx List.not_mem_nil
  refused _ hx := absurd hx List.not_mem_nil
  spawns _ := rfl
  stops _ _ := rfl

theorem requests_eq (h : Truthful sys s xs) (hs : s.status = .serving) :
    s.requests = xs.filterMap Exchange.req := by
  obtain ⟨unanswered, hrequests, hlength⟩ := h.requests
  rw [hs] at hlength
  rw [hrequests, List.length_eq_zero_iff.mp hlength, List.append_nil]

theorem reading (h : Truthful sys s xs) (hs : s.status = .serving)
    {t : Session} (hsys : t.sys = s.sys) (hrequests : t.requests = s.requests)
    (hresponses : t.responses = s.responses) (ht : t.status ≠ .panicked) :
    Truthful sys t xs where
  replies := hresponses.trans h.replies
  requests := by
    refine ⟨[], ?_, by simp [ht]⟩
    rw [hrequests, h.requests_eq hs, List.append_nil]
  formed := h.formed
  refused := h.refused
  spawns r := by rw [hsys, h.spawns r]
  stops _ r := by
    have hgoes : s.status ≠ .panicked := by rw [hs]; nofun
    rw [hsys, h.stops hgoes r]

theorem append (h : Truthful sys s xs) (hs : s.status = .serving) {t : Session}
    (x : Exchange) (hresponses : t.responses = s.responses ++ [x.reply])
    (hrequests : t.requests = s.requests ++ x.req.toList)
    (ht : t.status ≠ .panicked)
    (hformed : x.reply.isOk = true ∨ ∃ e, x.reply = errorMsg e)
    (hrefused : x.req = none → x.reply.isOk = false ∧ x.after = x.before)
    (hspawns : ∀ r, spawnCount t.sys.kernel r =
      spawnCount s.sys.kernel r + (x.started r).toNat)
    (hstops : ∀ r, stopCount t.sys.kernel r =
      stopCount s.sys.kernel r + (x.stopped r).toNat) :
    Truthful sys t (xs ++ [x]) where
  replies := by rw [hresponses, h.replies, List.map_append]; rfl
  requests := by
    refine ⟨[], ?_, by simp [ht]⟩
    rw [hrequests, h.requests_eq hs, List.append_nil, List.filterMap_append]
    cases x with | mk req => cases req <;> rfl
  formed := List.forall_mem_append.mpr ⟨h.formed, by simpa using hformed⟩
  refused := List.forall_mem_append.mpr ⟨h.refused, by simpa using hrefused⟩
  spawns r := by
    rw [hspawns, h.spawns, List.countP_append, List.countP_singleton,
      Nat.add_assoc]
    cases x.started r <;> rfl
  stops _ r := by
    have hgoes : s.status ≠ .panicked := by rw [hs]; nofun
    rw [hstops, h.stops hgoes, List.countP_append, List.countP_singleton,
      Nat.add_assoc]
    cases x.stopped r <;> rfl

theorem refuse (h : Truthful sys s xs) (hs : s.status = .serving) (e : String) :
    Truthful sys (c.refuse e s) (xs ++ s.exchange (c.refuse e s)) := by
  have hexchange : s.exchange (c.refuse e s) =
      [⟨none, errorMsg e, s.sys, s.sys⟩] := by
    simp [Session.exchange, ClientCall.refuse]
  rw [hexchange]
  refine h.append hs _ rfl (List.append_nil _).symm ?_ (Or.inr ⟨e, rfl⟩)
    (fun _ => ⟨rfl, rfl⟩) (fun _ => rfl) (fun _ => rfl)
  rw [ClientCall.refuse, hs]
  nofun

theorem handleRequest (h : Truthful sys s xs) (hs : s.status = .serving)
    (hmade : c.MadeBy d) (hpc : d.pc = .session) (req : Value) :
    Truthful sys (c.handleRequest req s)
      (xs ++ s.exchange (c.handleRequest req s)) := by
  have hmeanwhile := hmade.onlyExits hpc s.requests.length s.sys.kernel
  unfold ClientCall.handleRequest
  dsimp only
  split
  next k hpanic =>
    -- the request has no reply
    simp only [Session.exchange, List.drop_length, List.map_nil,
      List.append_nil]
    refine ⟨h.replies, ⟨[req], ?_, rfl⟩, h.formed, h.refused, fun r => ?_,
      fun hstatus => absurd rfl hstatus⟩
    · rw [h.requests_eq hs]
    · have hsame : spawnCount k r = spawnCount s.sys.kernel r :=
        (spawnCount_dispatch_error hpanic r).trans hmeanwhile.spawnCount_eq
      exact hsame.trans (h.spawns r)
  next sys' reply hreply =>
    have htold := dispatch_told hreply
    simp only [Session.exchange, List.drop_left, List.map_cons, List.map_nil,
      List.head?_cons]
    refine h.append hs _ rfl rfl ?_ htold.formed nofun (fun r => ?_)
      (fun r => ?_)
    · dsimp only
      split <;> nofun
    · have hspawns := htold.spawns r
      rw [hmeanwhile.spawnCount_eq] at hspawns
      have hhandled : spawnCount (sys'.kernel.emit (.handled (requestCmd req)))
          r = spawnCount sys'.kernel r := spawnCount_emit nofun
      exact hhandled.trans hspawns
    · have hstops := htold.stops r
      rw [hmeanwhile.stopCount_eq] at hstops
      have hhandled : stopCount (sys'.kernel.emit (.handled (requestCmd req)))
          r = stopCount sys'.kernel r := stopCount_emit nofun
      exact hhandled.trans hstops

theorem next (h : Truthful sys s xs) (hmade : c.MadeBy d)
    (hpc : d.pc = .session) :
    Truthful sys (c.next s) (xs ++ s.exchange (c.next s)) := by
  have hquiet : ∀ t : Session, t.responses = s.responses →
      Truthful sys t xs → Truthful sys t (xs ++ s.exchange t) := by
    intro t hresponses ht
    rw [Session.exchange, hresponses, List.drop_length, List.map_nil,
      List.append_nil]
    exact ht
  by_cases hs : s.status = .serving
  · rw [c.next_serving hs]
    have hclosed : Truthful sys { s with status := .closed } xs :=
      h.reading hs rfl rfl rfl nofun
    unfold ClientCall.iterate
    split
    next => exact hquiet _ rfl hclosed
    next => exact hquiet _ rfl hclosed
    next line rest hne hread =>
      have hgoes : { s with input := rest }.status = .serving := hs
      have hread : Truthful sys { s with input := rest } xs :=
        h.reading hs rfl rfl rfl (by rw [hgoes]; nofun)
      unfold ClientCall.handleLine
      dsimp only
      split
      next => exact hquiet _ rfl hread
      next =>
        split
        next e herror => exact hread.refuse hgoes e
        next req hparse => exact hread.handleRequest hgoes hmade hpc req
  · rw [c.next_ended hs]
    exact hquiet s rfl h

end Truthful

/-- Whatever a client sends and whatever the system answers, the replies of its
session tell how many children of each role the session has spawned and, unless
the daemon panics, how many stops it has made; and a line that is not JSON
changes nothing. -/
theorem clients_told_truth (hmade : c.MadeBy d) (hpc : d.pc = .session)
    (input : List UInt8) :
    Truthful d.sys (c.handleClient d.sys input) (c.exchanges d.sys input) := by
  have hiterate : ∀ n, Truthful d.sys
      (c.next^[n] (ClientCall.start d.sys input))
      ((List.range n).flatMap fun i =>
        (c.next^[i] (ClientCall.start d.sys input)).exchange
          (c.next^[i + 1] (ClientCall.start d.sys input))) := by
    intro n
    induction n with
    | zero => exact .start d.sys input
    | succ n ih =>
        rw [List.range_succ, List.flatMap_append, List.flatMap_singleton,
          Function.iterate_succ_apply']
        exact ih.next hmade hpc
  exact hiterate (input.length + 1)

/-- One VM has been started, and the client has been told so. -/
theorem clients_told_truth_startVm :
    let s := startCall.handleClient firstSession.sys (encode startText)
    let xs := startCall.exchanges firstSession.sys (encode startText)
    Truthful firstSession.sys s xs ∧ spawnCount s.sys.kernel .vm = 1 ∧
      xs.map (fun x => (x.started .vm, x.reply.isOk)) =
        [(true, true), (false, false)] :=
  ⟨clients_told_truth madeBy_firstSession rfl (encode startText),
    by decide +kernel, by decide +kernel⟩

end Teeproxyd
