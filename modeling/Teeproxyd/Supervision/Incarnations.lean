import Teeproxyd.Supervision.StartupOrder
import Teeproxyd.Supervision.Strikes

/-!
# What a start leaves of the child before it

`start` replaces the child that a manager records, but it clears less than
`stop` and `mark_dead` do.  It keeps `ready_since`, so the new child inherits the
time at which an earlier one became `Ready`, and it writes `Starting` before it
spawns, so a failing spawn leaves a manager there, whatever its child does.
-/

namespace Teeproxyd

open ProcessTable TransitionSystem Supervision

variable {cfg : Config} {s t : Daemon} {l : Label} {r : Role} {n : ℕ}

/-! ## A start that fails -/

/-- One of the checks fails that `start` makes before it changes anything. -/
def Role.refuses (cfg : Config) (env : StartEnv) : Role → Bool
  | .vm =>
      match VmManager.validateImages cfg env with
      | .error _ => true
      | .ok () => false
  | .ca => !env.pathExists cfg.caBinary

theorem SpawnEnv.outcome_ne_refused (env : SpawnEnv) :
    env.outcome ≠ .refused := by
  unfold SpawnEnv.outcome
  split <;> simp

theorem startOutcome_refused_iff {env : StartEnv} :
    startOutcome cfg r env = .refused ↔ r.refuses cfg env = true := by
  have hspawn := SpawnEnv.outcome_ne_refused env.spawn
  unfold startOutcome Role.refuses
  cases r with
  | vm => cases VmManager.validateImages cfg env <;> simp [hspawn]
  | ca => cases env.pathExists cfg.caBinary <;> simp [hspawn]

/-- A `start` that fails leaves the manager as it was exactly if it is refused
by its early checks, or the manager is `Starting` already. -/
theorem start_fails_unchanged_iff {env : StartEnv} {m m' : Manager}
    {k k' : Kernel} {e : String}
    (hstart : r.start cfg m k env = (m', k', .error e)) :
    m' = m ↔ r.refuses cfg env = true ∨ m.state = .starting := by
  rcases start_cases cfg r m k env with
    ⟨houtcome, e', heq⟩ | ⟨houtcome, e', heq⟩ | ⟨-, hint, command, heq⟩
  · cases heq.symm.trans hstart
    exact iff_of_true rfl (Or.inl (startOutcome_refused_iff.mp houtcome))
  · cases heq.symm.trans hstart
    have hpassed : ¬ r.refuses cfg env = true := by
      rw [← startOutcome_refused_iff, houtcome]
      simp
    constructor
    · intro hsame
      exact Or.inr (congrArg Manager.state hsame).symm
    · intro h
      obtain ⟨state, childPid, crashCount, readySince⟩ := m
      obtain rfl : state = .starting := h.resolve_left hpassed
      rfl
  · cases heq.symm.trans hstart

/-- The log file cannot be opened. -/
def StartEnv.noLog : StartEnv :=
  { StartEnv.works 0 with
    spawn := { (StartEnv.works 0).spawn with openLog := .error "EACCES" } }

/-- A missing binary leaves the CA of the booted daemon alone. -/
theorem start_fails_unchanged_bootUp :
    ∃ s m' k' e, after bootUp = some s ∧
      Role.ca.start Config.default s.ca s.kernel .missing = (m', k', .error e) ∧
      m' = s.ca := by
  obtain ⟨s, hafter, -⟩ := exists_after bootUp (P := fun _ => True) (by decide)
  have hstart : Role.ca.start Config.default s.ca s.kernel .missing =
      (s.ca, s.kernel, .error
        "CA binary not found: /data/teeproxy/bin/secret_proxy_ca") := rfl
  exact ⟨s, _, _, _, hafter, hstart,
    (start_fails_unchanged_iff hstart).mpr (Or.inl rfl)⟩

/-- A `start_ca` whose spawn fails takes a running CA out of `Ready`. -/
theorem start_fails_starting :
    ∃ s m' k' e, Reachable Config.default s ∧
      s.ca.state = .ready ∧ s.ca.childPid = some 200 ∧
      s.kernel.table.AliveOf .ca 200 ∧
      Role.ca.start Config.default s.ca s.kernel .noLog = (m', k', .error e) ∧
      m'.state = .starting ∧ m'.childPid = some 200 ∧ m' ≠ s.ca := by
  obtain ⟨s, hafter, hstate, hpid, halive⟩ := exists_after bootUp
    (P := fun s => s.ca.state = .ready ∧ s.ca.childPid = some 200 ∧
      s.kernel.table.AliveOf .ca 200) (by decide)
  refine ⟨s, { s.ca with state := .starting }, _, _,
    reach_of_after hafter (Along.of_forall (fun _ _ => trivial) _ _), hstate,
    hpid, halive, rfl, rfl, hpid, fun hsame => ?_⟩
  have hstarting : Stage.starting = s.ca.state := congrArg Manager.state hsame
  cases hstarting.trans hstate

/-! ## Who earns a reset of the crash count -/

/-- A start that gets past its early checks finds a manager that still holds the
time at which its child became `Ready`. -/
def StartsOverReady (cfg : Config) (s : Daemon) (l : Label) : Prop :=
  ∃ r, ((directStart s l r).any fun env =>
      !r.refuses cfg env) = true ∧ (s.sys.mgr r).readySince ≠ none

/-- A probe succeeds for a manager that records no child. -/
def MarksNobody (s : Daemon) (l : Label) : Prop :=
  ∃ r, marksReady s l r = true ∧ (s.sys.mgr r).childPid = none

instance : Decidable (StartsOverReady cfg s l) :=
  inferInstanceAs (Decidable (∃ _, _ ∧ _))

instance : Decidable (MarksNobody s l) :=
  inferInstanceAs (Decidable (∃ _, _ ∧ _))

/-- The step makes a manager's `ready_since` speak of another child than the
one it records, or takes the recorded child away from under it. -/
def Disinherits (cfg : Config) (s : Daemon) (l : Label) : Prop :=
  StartsOverReady cfg s l ∨ MarksNobody s l ∨ LosesTracked s l

/-- Before step `k`, the child `pid` of role `r` was marked `Ready` at time
`since`, and its manager has recorded it and been `Ready` ever since. -/
def ReadyThroughout (run : Run (step cfg) n) (k : ℕ) (r : Role) (pid : Pid)
    (since : Instant) : Prop :=
  ∃ j, j < k ∧ marksReady (run.state j) (run.label j) r = true ∧
    (run.state (j + 1)).kernel.now = since ∧
    ∀ i, j < i → i ≤ k → ((run.state i).sys.mgr r).state = .ready ∧
      ((run.state i).sys.mgr r).childPid = some pid

/-- A step that marks nothing and starts nothing over a `Ready` child clears
`ready_since` or leaves it with the state and the child that it is about. -/
theorem step_readySince (hstarts : ¬ StartsOverReady cfg s l)
    (htracked : (s.sys.mgr r).readySince ≠ none →
      (s.sys.mgr r).childPid ≠ none)
    (hmarks : marksReady s l r = false) (hstep : step cfg s l = some t) :
    (t.sys.mgr r).readySince = none ∨
      ((t.sys.mgr r).readySince = (s.sys.mgr r).readySince ∧
        (t.sys.mgr r).state = (s.sys.mgr r).state ∧
        (t.sys.mgr r).childPid = (s.sys.mgr r).childPid) := by
  refine step_invariant (I := fun _ f => (f.mgr r).readySince = none ∨
    ((f.mgr r).readySince = (s.sys.mgr r).readySince ∧
      (f.mgr r).state = (s.sys.mgr r).state ∧
      (f.mgr r).childPid = (s.sys.mgr r).childPid))
    (fun _ _ _ => Or.inl rfl) ?_ hstep (Or.inr ⟨rfl, rfl, rfl⟩)
  rintro log f ⟨time, e⟩ g hcause hte hf
  rcases hte.changes r with ⟨-, hsame⟩ | hchanges
  · rw [hsame]
    exact hf
  -- a start is called while `ready_since` is cleared
  have hcleared : ∀ env, CallsStart cfg s l f r env →
      startOutcome cfg r env ≠ .refused → (f.mgr r).readySince = none := by
    rintro env hcalls hpassed
    by_contra hready
    rcases hcalls with ⟨rfl, hdirect⟩ | ⟨rfl, hnone, -⟩
    · refine hstarts ⟨r, ?_, hready⟩
      rw [ne_eq, startOutcome_refused_iff] at hpassed
      rw [hdirect]
      simpa using hpassed
    · obtain ⟨hsince, -, hpid⟩ := hf.resolve_left hready
      rw [hsince] at hready
      exact htracked hready (hpid.symm.trans hnone)
  generalize hm : f.mgr r = m at hchanges hf hcleared
  generalize g.mgr r = m' at hchanges
  cases hchanges with
  | spawned =>
      obtain ⟨env, hcalls, houtcome⟩ := hcause
      exact Or.inl (hcleared env hcalls (by simp [houtcome]))
  | spawnFailed =>
      obtain ⟨env, hcalls, houtcome⟩ := hcause
      exact Or.inl (hcleared env hcalls (by simp [houtcome]))
  | stopped => exact Or.inl rfl
  | died => exact Or.inl rfl
  | condemned _ _ hsince => exact Or.inl hsince
  | ready => cases hmarks.symm.trans hcause.2
  | countReset => exact hf

/-- What is known before step `k` of a run that disinherits no child. -/
structure Earned (run : Run (step cfg) n) (k : ℕ) (s : Daemon) : Prop where
  tracked : Tracked s.kernel.log s.sys.fleet
  since : ∀ r since, (s.sys.mgr r).readySince = some since →
    ∃ pid, ReadyThroughout run k r pid since

section Step

variable {run : Run (step cfg) n} {k : ℕ} {pid : Pid} {since : Instant}

theorem ReadyThroughout.childPid (h : ReadyThroughout run k r pid since) :
    ((run.state k).sys.mgr r).childPid = some pid := by
  obtain ⟨j, hj, -, -, hready⟩ := h
  exact (hready k hj (Nat.le_refl k)).2

theorem ReadyThroughout.succ (h : ReadyThroughout run k r pid since)
    (hstate : ((run.state (k + 1)).sys.mgr r).state =
      ((run.state k).sys.mgr r).state)
    (hpid : ((run.state (k + 1)).sys.mgr r).childPid =
      ((run.state k).sys.mgr r).childPid) :
    ReadyThroughout run (k + 1) r pid since := by
  obtain ⟨j, hj, hmarks, hsince, hready⟩ := h
  refine ⟨j, Nat.lt_succ_of_lt hj, hmarks, hsince, ?_⟩
  intro i hji hik
  rcases Nat.lt_or_ge k i with hki | hik
  · obtain rfl : i = k + 1 := Nat.le_antisymm hik hki
    rw [hstate, hpid]
    exact hready k hj (Nat.le_refl k)
  · exact hready i hji hik

theorem Earned.step (hs : Earned run k (run.state k)) (hk : k < n)
    (hclean : ¬ Disinherits cfg (run.state k) (run.label k)) :
    Earned run (k + 1) (run.state (k + 1)) := by
  unfold Disinherits at hclean
  rw [not_or, not_or] at hclean
  obtain ⟨hstarts, hnobody, hkept⟩ := hclean
  have hstep := run.step_eq k hk
  refine ⟨step_tracked hkept hs.tracked hstep, fun r since hsince => ?_⟩
  cases hmarks : marksReady (run.state k) (run.label k) r with
  | true =>
      obtain ⟨hmgr, -⟩ := step_marksReady hs.tracked.wellFormed hstep hmarks
      have hpid : ((run.state k).sys.mgr r).childPid ≠ none :=
        fun hnone => hnobody ⟨r, hmarks, hnone⟩
      obtain ⟨pid, hpid⟩ := Option.ne_none_iff_exists'.mp hpid
      rw [hmgr] at hsince
      refine ⟨pid, k, Nat.lt_succ_self k, hmarks, Option.some.inj hsince, ?_⟩
      intro i hki hik
      obtain rfl : i = k + 1 := Nat.le_antisymm hik hki
      rw [hmgr]
      exact ⟨rfl, hpid⟩
  | false =>
      have htracked : ((run.state k).sys.mgr r).readySince ≠ none →
          ((run.state k).sys.mgr r).childPid ≠ none := by
        intro hready
        obtain ⟨time, htime⟩ := Option.ne_none_iff_exists'.mp hready
        obtain ⟨pid, hpid⟩ := hs.since r time htime
        simp [hpid.childPid]
      rcases step_readySince hstarts htracked hmarks hstep with
        hnone | ⟨hsame, hstate, hpid⟩
      · cases hnone.symm.trans hsince
      · obtain ⟨pid, hready⟩ := hs.since r since (hsame.symm.trans hsince)
        exact ⟨pid, hready.succ hstate hpid⟩

end Step

theorem earned {now : Instant} {run : Run (step cfg) n}
    (hinit : run.state 0 = init cfg now)
    (hclean : ∀ i, i < n → ¬ Disinherits cfg (run.state i) (run.label i)) :
    ∀ k, k ≤ n → Earned run k (run.state k) := by
  refine run.invariant (I := fun k s => Earned run k s) ?_ ?_
  · rw [hinit]
    constructor
    · exact reach_tracked ⟨now, .refl⟩
    · intro r since h
      cases r <;> cases h
  · exact fun k hk hs => hs.step hk (hclean k hk)

theorem maybeResetCrashCount_now {m m' : Manager} {k k' : Kernel}
    (h : m.maybeResetCrashCount k r = (m', k')) : k'.now = k.now := by
  unfold Manager.maybeResetCrashCount at h
  split at h <;> cases h <;> rfl

theorem maybeResetCrashCount_crashCount {m m' : Manager} {k k' : Kernel}
    (h : m.maybeResetCrashCount k r = (m', k')) :
    m'.crashCount = if m.stable k.now then 0 else m.crashCount := by
  unfold Manager.maybeResetCrashCount at h
  split at h
  next hstable =>
    cases h
    rw [if_pos hstable]
  next hunstable =>
    cases h
    rw [if_neg hunstable]

/-- The end of an iteration clears the counts of the stable managers. -/
theorem step_resetCounts_crashCount (hstep : step cfg s .resetCounts = some t)
    (r : Role) :
    (t.sys.mgr r).crashCount =
      if (s.sys.mgr r).stable s.kernel.now then 0
      else (s.sys.mgr r).crashCount := by
  obtain ⟨-, vm, k, ca, k', hvm, hca, rfl⟩ := step_resetCounts hstep
  cases r with
  | vm => exact maybeResetCrashCount_crashCount hvm
  | ca =>
      rw [← maybeResetCrashCount_now hvm]
      exact maybeResetCrashCount_crashCount hca

/-- A step that clears a count has found the manager stable. -/
theorem stable_of_cleared (hstep : step cfg s .resetCounts = some t)
    (hbefore : (s.sys.mgr r).crashCount ≠ 0)
    (hafter : (t.sys.mgr r).crashCount = 0) :
    (s.sys.mgr r).stable s.kernel.now = true := by
  by_contra hunstable
  rw [step_resetCounts_crashCount hstep, if_neg hunstable] at hafter
  exact hbefore hafter

/-- In a run in which nobody starts a child over a `Ready` one, no manager is
marked `Ready` without a child and no recorded child is lost, `ready_since`
speaks of the recorded child, which has been `Ready` since then, and a crash
count is cleared only when that is at least 60 seconds ago. -/
theorem crashCount_earned {now : Instant} {run : Run (step cfg) n}
    (hinit : run.state 0 = init cfg now)
    (hclean : ∀ i, i < n → ¬ Disinherits cfg (run.state i) (run.label i))
    {k : ℕ} (hk : k ≤ n) (r : Role) :
    (∀ since, ((run.state k).sys.mgr r).readySince = some since →
      ∃ pid, ReadyThroughout run k r pid since ∧
        (run.state k).kernel.table.OwnedBy r pid) ∧
    (k < n → run.label k = .resetCounts →
      ((run.state k).sys.mgr r).crashCount ≠ 0 →
      ((run.state (k + 1)).sys.mgr r).crashCount = 0 →
      ∃ pid since, ReadyThroughout run k r pid since ∧
        (run.state k).kernel.table.OwnedBy r pid ∧
        since + fromSecs 60 ≤ (run.state k).kernel.now) := by
  have hs := earned hinit hclean k hk
  have hsince : ∀ since, ((run.state k).sys.mgr r).readySince = some since →
      ∃ pid, ReadyThroughout run k r pid since ∧
        (run.state k).kernel.table.OwnedBy r pid := by
    intro since hsince
    obtain ⟨pid, hready⟩ := hs.since r since hsince
    exact ⟨pid, hready, hs.tracked.sound r pid hready.childPid⟩
  refine ⟨hsince, ?_⟩
  intro hlt hlabel hbefore hafter
  have hstep := run.step_eq k hlt
  rw [hlabel] at hstep
  obtain ⟨since, hmark, helapsed⟩ := (Option.any_eq_true _ _).mp
    (stable_of_cleared hstep hbefore hafter)
  obtain ⟨pid, hready, howned⟩ := hsince since hmark
  have hminute : fromSecs 60 ≤ (run.state k).kernel.now - since :=
    of_decide_eq_true helapsed
  have hle : since ≤ (run.state k).kernel.now :=
    Nat.le_of_lt (Nat.lt_of_sub_pos (Nat.lt_of_lt_of_le (by decide) hminute))
  exact ⟨pid, since, hready, howned, (Nat.le_sub_iff_add_le' hle).mp hminute⟩

/-- The CA dies once before its port answers, and is `Ready` for a minute
then. -/
def secondCa : List Label :=
  bootCa ++ caExit ++ [.waitpid (some (200, .code 1)) (.works 201)] ++
    restOfIteration ++ [.tick (fromSecs 60)] ++ goodRound

/-- The second CA of the boot earns the reset of its strike. -/
theorem crashCount_earned_secondCa :
    ∃ run : Run (step Config.default) secondCa.length,
      run.state 0 = init Config.default 0 ∧
      ∃ pid since, ReadyThroughout run (secondCa.length - 1) .ca pid since ∧
        since + fromSecs 60 ≤
          (run.state (secondCa.length - 1)).kernel.now := by
  obtain ⟨t, hafter, hcleared⟩ := exists_after secondCa
    (P := fun t => t.ca.crashCount = 0) (by decide)
  obtain ⟨run, hinit, hlast, hlabel⟩ := Run.exists_of_exec hafter
  -- the strike is still there before the last step
  have hstrike : (run.state (secondCa.length - 1)).ca.crashCount ≠ 0 :=
    holds_at hinit hlabel (Nat.sub_le _ 1)
      (P := fun s => s.ca.crashCount ≠ 0) (by decide)
  have hkept : Along (step Config.default) (fun s l => ¬ LosesTracked s l)
      (run.state 0) secondCa := along_not_losesTracked (by decide) _
  have hstarts : Along (step Config.default)
      (fun s l => ¬ StartsOverReady Config.default s l ∧ ¬ MarksNobody s l)
      (run.state 0) secondCa := by
    rw [hinit]
    decide
  have hclean : ∀ i, i < secondCa.length →
      ¬ Disinherits Config.default (run.state i) (run.label i) := by
    intro i hi
    obtain ⟨⟨hover, hnobody⟩, hloses⟩ :=
      run.guard_of_along hlabel (hstarts.and hkept) hi
    exact fun h => h.elim hover fun h => h.elim hnobody hloses
  have hlt : secondCa.length - 1 < secondCa.length := by decide
  obtain ⟨pid, since, hready, -, hminute⟩ :=
    (crashCount_earned hinit hclean (Nat.sub_le _ 1) .ca).2 hlt
      (by rw [hlabel]; rfl) hstrike (hlast ▸ hcleared)
  exact ⟨run, hinit, pid, since, hready, hminute⟩

/-- A CA that a client started a second ago has its crash count cleared: the CA
before it was `Ready` for the other 59 seconds. -/
theorem crashCount_unearned :
    ∃ s t, Reachable Config.default s ∧
      step Config.default s .resetCounts = some t ∧
      s.ca.crashCount = 1 ∧ t.ca.crashCount = 0 ∧
      s.ca.state = CaState.running ∧ s.ca.childPid = some 202 ∧
      Kernel.spawnsIn s.kernel.log .ca = [202, 201, 200] := by
  obtain ⟨s, hafter, hpc, hstrike, hcleared, hrunning, hpid, hspawned⟩ :=
    exists_after
      (bootCa ++ caExit ++ [.waitpid (some (200, .code 1)) (.works 201)] ++
        restOfIteration ++ [.tick (fromSecs 59)] ++
        requestRound "start_ca" (.works 101 202) ++ [.tick (fromSecs 1)] ++
        (round (.works 100 200) (.answers .connected 300)).dropLast)
      (P := fun s => s.pc = .reset ∧ s.ca.crashCount = 1 ∧
        s.ca.stable s.kernel.now = true ∧ s.ca.state = CaState.running ∧
        s.ca.childPid = some 202 ∧
        Kernel.spawnsIn s.kernel.log .ca = [202, 201, 200]) (by decide)
  obtain ⟨t, hstep, -⟩ := exists_resetCounts Config.default hpc
  refine ⟨s, t, reach_of_after hafter (.of_forall (fun _ _ => trivial) _ _),
    hstep, hstrike, ?_, hrunning, hpid, hspawned⟩
  exact (step_resetCounts_crashCount hstep .ca).trans (if_pos hcleared)

end Teeproxyd
