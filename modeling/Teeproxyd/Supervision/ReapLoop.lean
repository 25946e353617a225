import Mathlib.Logic.ExistsUnique
import Teeproxyd.Supervision.Reaping

/-!
# One call of `reap_children`

The loop calls `waitpid` until it reports nothing.  While it runs, children may
end, and the loop itself starts CAs, so neither the number of zombies nor that of
the children is a measure for it.  A wait status that cannot be decoded ends the
loop like an empty report, although a zombie has gone.
-/

namespace Teeproxyd

open ProcessTable TransitionSystem

variable {cfg : Config} {s t : Daemon} {l : Label} {pid : Pid} {n : ℕ}

/-! ## What `handle_child_death` does to managers and children -/

/-- From `sys` to `sys'`, the death of `pid` is put down to the VM, to the CA, or
to nobody. -/
inductive HandlesDeath (pid : Pid) (sys sys' : Sys) : Prop
  | vm (hvm : sys.vm.childPid = some pid) (hreleased : sys'.vm.childPid = none)
      (hca : sys'.ca = sys.ca) (htable : sys'.kernel.table = sys.kernel.table)
  | restarted (p : Pid) (hvm : sys.vm.childPid ≠ some pid)
      (hca : sys.ca.childPid = some pid) (hfew : sys.ca.crashCount + 1 < 5)
      (hsame : sys'.vm = sys.vm)
      (hcount : sys'.ca.crashCount = sys.ca.crashCount + 1)
      (hpid : sys'.ca.childPid = some p)
      (hfresh : sys.kernel.table.find p = none)
      (htable : sys'.kernel.table = sys.kernel.table.spawn .ca p)
  | buried (hca : sys.ca.childPid = some pid) (hsame : sys'.vm = sys.vm)
      (hreleased : sys'.ca.childPid = none)
      (htable : sys'.kernel.table = sys.kernel.table)
  | discarded (hvm : sys.vm.childPid ≠ some pid)
      (hca : sys.ca.childPid ≠ some pid) (hsame : sys'.vm = sys.vm)
      (hsame' : sys'.ca = sys.ca)
      (htable : sys'.kernel.table = sys.kernel.table)

theorem handleChildDeath_handles (cfg : Config) (pid : Pid) (sys : Sys)
    (env : StartEnv) :
    HandlesDeath pid sys (handleChildDeath cfg pid sys env) := by
  unfold handleChildDeath
  by_cases hvm : sys.vm.childPid = some pid
  · rw [if_pos (by simp [Manager.ownsPid, hvm])]
    dsimp only
    split
    next => exact .vm hvm rfl rfl rfl
    next => exact .vm hvm rfl rfl rfl
  rw [if_neg (by simp [Manager.ownsPid, hvm])]
  by_cases hca : sys.ca.childPid = some pid
  · rw [if_pos (by simp [Manager.ownsPid, hca])]
    dsimp only
    split
    next hfew =>
      rcases start_cases cfg .ca (Manager.markDead sys.ca)
        (sys.kernel.emit (.died .ca pid)) env with
        ⟨-, e, hstart⟩ | ⟨-, e, hstart⟩ | ⟨-, hint, command, hstart⟩
      · have hstart : CaManager.start cfg _ _ env = _ := hstart
        rw [hstart]
        exact .buried hca rfl rfl rfl
      · have hstart : CaManager.start cfg _ _ env = _ := hstart
        rw [hstart]
        exact .buried hca rfl rfl rfl
      · have hstart : CaManager.start cfg _ _ env = _ := hstart
        rw [hstart]
        exact .restarted _ hvm hca hfew rfl rfl rfl
          (find_freshPid
            ((sys.kernel.emit (.died .ca pid)).advance env.spawn.took) hint)
          rfl
    next => exact .buried hca rfl rfl rfl
  · rw [if_neg (by simp [Manager.ownsPid, hca])]
    exact .discarded hvm hca rfl rfl rfl

theorem HandlesDeath.isZombie {sys sys' : Sys} {q : Pid}
    (h : HandlesDeath pid sys sys')
    (hq : sys'.kernel.table.isZombie q = true) :
    sys.kernel.table.isZombie q = true := by
  cases h with
  | vm _ _ _ htable => rwa [htable] at hq
  | restarted p _ _ _ _ _ _ hfresh htable =>
      rw [htable] at hq
      exact Table.isZombie_spawn _ hfresh hq
  | buried _ _ _ htable => rwa [htable] at hq
  | discarded _ _ _ _ htable => rwa [htable] at hq

/-! ## The steps of a call -/

/-- What one iteration takes from the kernel was a zombie, and is none any
more. -/
theorem step_takes {raw : Option (Pid × ExitStatus)} {env : StartEnv}
    (hraw : raw.map Prod.fst = some pid)
    (hstep : step cfg s (.waitpid raw env) = some t) :
    s.kernel.table.isZombie pid = true ∧
      t.kernel.table.isZombie pid = false := by
  cases raw with
  | none => cases hraw
  | some report =>
      obtain ⟨q, status⟩ := report
      obtain rfl : q = pid := Option.some.inj hraw
      obtain ⟨term, client, -, hreports, rfl⟩ := step_waitpid hstep
      refine ⟨hreports, ?_⟩
      rcases reapIteration_some q status env with
        ⟨-, -, hiter⟩ | ⟨-, -, hiter⟩
      · rw [hiter]
        by_contra hzombie
        have hbefore := (handleChildDeath_handles cfg q
          { s.sys with kernel := s.kernel.reap q } env).isZombie
            (Bool.of_not_eq_false hzombie)
        rw [Kernel.reap, Table.not_isZombie_reap] at hbefore
        cases hbefore
      · rw [hiter]
        exact Table.not_isZombie_reap _

theorem loses_eq_none (h : l.reaps = some pid) : l.loses = none := by
  obtain ⟨status, env, -, hloses, -⟩ := exists_reaps h
  exact hloses

theorem waitpid_of_takes (h : l.reaps = some pid ∨ l.loses = some pid) :
    ∃ raw env, l = .waitpid raw env ∧ raw.map Prod.fst = some pid := by
  rcases h with hreaps | hloses
  · obtain ⟨status, env, hl, -, -⟩ := exists_reaps hreaps
    exact ⟨_, env, hl, rfl⟩
  · obtain ⟨status, env, hl, -⟩ := exists_loses hloses
    exact ⟨_, env, hl, rfl⟩

/-- The thread stands in the loop of `reap_children`. -/
def Pc.isReap : Pc → Bool
  | .reap _ _ => true
  | _ => false

theorem reaping_iff : Reaping s ↔ s.pc.isReap = true := by
  unfold Reaping
  cases s.pc <;> simp [Pc.isReap]

instance : Decidable (Reaping s) := decidable_of_iff _ reaping_iff.symm

/-- The run is one call of `reap_children`, or the rest of one: all of its steps
are taken in the loop, and then the thread goes on. -/
structure Returns (run : Run (step cfg) n) : Prop where
  entered : 0 < n
  inside : ∀ k, k < n → Reaping (run.state k)
  left : ¬ Reaping (run.state n)
  running : (run.state n).pc.isRunning = true

/-- Step `j` takes zombie `pid` from the kernel and passes it to
`handle_child_death`. -/
def PassesOn (run : Run (step cfg) n) (j : ℕ) (pid : Pid) : Prop :=
  (run.label j).reaps = some pid ∧
    ∃ env, (run.state (j + 1)).sys = handleChildDeath cfg pid
      { (run.state j).sys with kernel := (run.state j).kernel.reap pid } env

/-- The child that is a zombie before step `i` is passed on once, by step `j`, and
is a zombie until then. -/
def PassedOnAt (run : Run (step cfg) n) (i : ℕ) (pid : Pid) (j : ℕ) : Prop :=
  i ≤ j ∧ j < n ∧ PassesOn run j pid ∧
    ∀ k, i ≤ k → k ≤ j → (run.state k).kernel.table.isZombie pid = true

section Call

variable {run : Run (step cfg) n}

theorem Returns.hasRoom (hreturns : Returns run) {k : ℕ} (hk : k < n) :
    HasRoom (run.state k) (run.label k) := by
  obtain ⟨term, client, hat⟩ := hreturns.inside k hk
  refine (step_hung_iff (by simp [hat]) (run.step_eq k hk)).mp fun hhung => ?_
  rcases Nat.lt_or_ge (k + 1) n with hnext | hend
  · obtain ⟨term, client, hat⟩ := hreturns.inside (k + 1) hnext
    cases hat.symm.trans hhung
  · obtain rfl : n = k + 1 := Nat.le_antisymm hend hk
    have hrunning := hreturns.running
    rw [hhung] at hrunning
    cases hrunning

theorem Returns.isZombie (hreturns : Returns run)
    (hkept : ∀ j, j < n → (run.label j).loses = none) (pid : Pid) :
    (run.state n).kernel.table.isZombie pid = false := by
  obtain ⟨k, rfl⟩ := Nat.exists_eq_add_one_of_ne_zero
    (Nat.ne_of_gt hreturns.entered)
  have hk : k < k + 1 := Nat.lt_succ_self k
  obtain ⟨term, client, hat⟩ := hreturns.inside k hk
  have hstep := run.step_eq k hk
  have hloses := hkept k hk
  have hleft : ∀ term' client', (run.state (k + 1)).pc ≠ .reap term' client' :=
    fun term' client' h => hreturns.left ⟨term', client', h⟩
  rcases step_turn hstep with henv | hturn
  · -- the environment moves the thread nowhere
    refine absurd ?_ (hleft term client)
    rw [(step_environment henv (hreturns.hasRoom hk) hstep).2, hat]
    exact ite_self _
  rw [hat] at hturn
  generalize run.label k = l at hstep hloses hturn
  cases l with
  | waitpid raw env =>
      obtain ⟨term', client', -, hreports, ht⟩ := step_waitpid hstep
      rw [ht] at hleft ⊢
      cases raw with
      | some report =>
          obtain ⟨q, status⟩ := report
          rcases reapIteration_some q status env with
            ⟨-, -, hiter⟩ | ⟨-, hlost, -⟩
          · refine absurd ?_ (hleft term client)
            dsimp only
            rw [hiter]
            exact hat
          · cases hloses.symm.trans hlost
      | none =>
          by_contra hzombie
          exact not_isZombie_of_reports hreports (Bool.of_not_eq_false hzombie)
  | _ => cases hturn

/-- A call that loses no child passes every zombie on before it returns. -/
theorem Returns.exists_passedOnAt (hreturns : Returns run)
    (hkept : ∀ j, j < n → (run.label j).loses = none) {i : ℕ} (hi : i ≤ n)
    (hzombie : (run.state i).kernel.table.isZombie pid = true) :
    ∃ j, PassedOnAt run i pid j := by
  by_contra hnever
  have hstays : ∀ k, i ≤ k → k ≤ n → ∀ m, i ≤ m → m ≤ k →
      (run.state m).kernel.table.isZombie pid = true := by
    intro k hik
    induction k, hik using Nat.le_induction with
    | base =>
        intro _ m him hmi
        obtain rfl : m = i := Nat.le_antisymm hmi him
        exact hzombie
    | succ k hik ih =>
        intro hk m him hmk
        have hbefore := ih (Nat.le_of_lt hk)
        have hstep := run.step_eq k hk
        have hreaps : (run.label k).reaps ≠ some pid := by
          intro hreaps
          obtain ⟨-, env, hnext⟩ := step_reaps hreaps hstep
          have hpassed : PassesOn run k pid :=
            ⟨hreaps, env, congrArg Daemon.sys hnext⟩
          exact hnever ⟨k, hik, hk, hpassed, hbefore⟩
        rcases Nat.lt_or_ge k m with hkm | hmk
        · obtain rfl : m = k + 1 := Nat.le_antisymm ‹_› hkm
          exact step_isZombie ⟨hreaps, by simp [hkept k hk]⟩
            (hbefore k hik (Nat.le_refl k)) hstep
        · exact hbefore m him hmk
  have hlast := hstays n hi (Nat.le_refl n) n hi (Nat.le_refl n)
  rw [hreturns.isZombie hkept] at hlast
  cases hlast

theorem not_isZombie_succ {j : ℕ} (hj : j < n)
    (htakes : (run.label j).reaps = some pid ∨
      (run.label j).loses = some pid) :
    (run.state j).kernel.table.isZombie pid = true ∧
      (run.state (j + 1)).kernel.table.isZombie pid = false := by
  obtain ⟨raw, env, hlabel, hraw⟩ := waitpid_of_takes htakes
  have hstep := run.step_eq j hj
  rw [hlabel] at hstep
  exact step_takes hraw hstep

/-- One call of `reap_children` passes every child that is dead before it returns
to `handle_child_death`, exactly once, and leaves no dead child, if and only if
it reaps no child whose wait status cannot be decoded. -/
theorem reap_consumes_none_unseen_iff (hreturns : Returns run) :
    ((∀ i pid, i ≤ n → (run.state i).kernel.table.isZombie pid = true →
        ∃! j, PassedOnAt run i pid j) ∧
      ∀ pid, (run.state n).kernel.table.isZombie pid = false) ↔
    ∀ j, j < n → (run.label j).loses = none := by
  constructor
  · rintro ⟨hpassed, -⟩ j hj
    by_contra hloses
    obtain ⟨pid, hloses⟩ := Option.ne_none_iff_exists'.mp hloses
    obtain ⟨hzombie, hgone⟩ := not_isZombie_succ hj (Or.inr hloses)
    obtain ⟨m, ⟨hjm, hm, ⟨hreaps, -⟩, hstays⟩, -⟩ :=
      hpassed j pid (Nat.le_of_lt hj) hzombie
    rcases Nat.lt_or_ge j m with hlt | hge
    · cases hgone.symm.trans (hstays (j + 1) (Nat.le_succ j) hlt)
    · obtain rfl : m = j := Nat.le_antisymm hge hjm
      cases hloses.symm.trans (loses_eq_none hreaps)
  · intro hkept
    refine ⟨?_, hreturns.isZombie hkept⟩
    intro i pid hi hzombie
    obtain ⟨j, hj⟩ := hreturns.exists_passedOnAt hkept hi hzombie
    refine ⟨j, hj, ?_⟩
    intro m hm
    -- of two steps that pass the child on, the later one finds no zombie
    have horder : ∀ {j m : ℕ}, PassedOnAt run i pid j →
        PassedOnAt run i pid m → m ≤ j := by
      rintro j m ⟨hij, hj, ⟨hreaps, -⟩, -⟩ ⟨-, -, -, hstays⟩
      by_contra hlt
      have hlt : j < m := Nat.lt_of_not_le hlt
      have hgone := (not_isZombie_succ hj (Or.inl hreaps)).2
      rw [hstays (j + 1) (Nat.le_succ_of_le hij) hlt] at hgone
      cases hgone
    exact Nat.le_antisymm (horder hj hm) (horder hm hj)

end Call

theorem exists_reapCall {ls : List Label} (hne : ls ≠ [])
    (hrun : exec (step cfg) s ls = some t)
    (hinside : Along (step cfg) (fun s _ => Reaping s) s ls)
    (hleft : ¬ Reaping t) (hrunning : t.pc.isRunning = true) :
    ∃ run : Run (step cfg) ls.length, run.state 0 = s ∧
      run.state ls.length = t ∧ (∀ i, run.label i = ls.getD i default) ∧
      Returns run := by
  obtain ⟨run, rfl, rfl, hlabel⟩ := Run.exists_of_exec hrun
  refine ⟨run, rfl, rfl, hlabel, List.length_pos_of_ne_nil hne, ?_, hleft,
    hrunning⟩
  exact fun k hk => run.guard_of_along hlabel hinside hk

/-- CA 200 was ended by signal 9 and is reaped. -/
def reapKilledCa : List Label :=
  [.waitpid (some (200, .signal 9)) (.works 201), .waitpid none (.works 0)]

/-- The call that reaps CA 200 on a booted daemon. -/
theorem reap_consumes_none_unseen_bootUp :
    ∃ s, after (bootUp ++ caExit) = some s ∧
      ∃ run : Run (step Config.default) reapKilledCa.length,
        run.state 0 = s ∧ ∃! j, PassedOnAt run 0 200 j := by
  obtain ⟨s, hafter, hzombie, hinside, hrun⟩ := exists_after
    (bootUp ++ caExit)
    (P := fun s => s.kernel.table.isZombie 200 = true ∧
      Along (step Config.default) (fun s _ => Reaping s) s reapKilledCa ∧
      (exec (step Config.default) s reapKilledCa).any (fun t =>
        ¬ Reaping t ∧ t.pc.isRunning = true) = true) (by decide)
  obtain ⟨t, ht, hlast⟩ := (Option.any_eq_true _ _).mp hrun
  obtain ⟨hleft, hrunning⟩ := of_decide_eq_true hlast
  obtain ⟨run, rfl, -, hlabel, hreturns⟩ :=
    exists_reapCall (List.cons_ne_nil _ _) ht hinside hleft hrunning
  have hkept : ∀ j, j < reapKilledCa.length →
      (run.label j).loses = none := by
    simp only [hlabel]
    decide
  exact ⟨run.state 0, hafter, run, rfl,
    ((reap_consumes_none_unseen_iff hreturns).mpr hkept).1 0 200
      (Nat.zero_le _) hzombie⟩

/-- The call that reaps a CA ended by signal 34 passes it on to nobody, and the
CA stays recorded. -/
theorem reap_consumes_unseen :
    ∃ s, Reachable Config.default s ∧
      ∃ run : Run (step Config.default) 1, run.state 0 = s ∧ Returns run ∧
        (run.state 0).kernel.table.isZombie 200 = true ∧
        (¬ ∃ j, PassedOnAt run 0 200 j) ∧
        (run.state 1).ca.childPid = some 200 ∧
        (run.state 1).kernel.table.find 200 = none := by
  let lost : List Label :=
    [.waitpid (some (200, .signal 34)) (.works 201)]
  obtain ⟨s, hafter, hzombie, hinside, hrun⟩ := exists_after
    (bootUp ++ caExit)
    (P := fun s => s.kernel.table.isZombie 200 = true ∧
      Along (step Config.default) (fun s _ => Reaping s) s lost ∧
      (exec (step Config.default) s lost).any (fun t =>
        ¬ Reaping t ∧ t.pc.isRunning = true ∧ t.ca.childPid = some 200 ∧
          t.kernel.table.find 200 = none) = true) (by decide)
  obtain ⟨t, ht, hlast⟩ := (Option.any_eq_true _ _).mp hrun
  obtain ⟨hleft, hrunning, hpid, hgone⟩ := of_decide_eq_true hlast
  obtain ⟨run, rfl, rfl, hlabel, hreturns⟩ :=
    exists_reapCall (List.cons_ne_nil _ _) ht hinside hleft hrunning
  refine ⟨run.state 0,
    reach_of_after hafter (.of_forall (fun _ _ => trivial) _ _), run, rfl,
    hreturns, hzombie, ?_, hpid, hgone⟩
  rintro ⟨j, -, hj, ⟨hreaps, -⟩, -⟩
  obtain rfl : j = 0 := Nat.lt_one_iff.mp hj
  rw [hlabel] at hreaps
  cases hreaps

/-! ## The CA starts of a call -/

/-- The CA records an un-reaped child that is not taken for the VM's. -/
def Sys.caCanDie (sys : Sys) : Prop :=
  ∃ pid, sys.ca.childPid = some pid ∧ sys.vm.childPid ≠ some pid ∧
    pid ∈ sys.kernel.table.pids

instance (sys : Sys) : Decidable sys.caCanDie :=
  decidable_of_iff
    ((sys.ca.childPid.any fun pid => decide (sys.vm.childPid ≠ some pid ∧
      pid ∈ sys.kernel.table.pids)) = true)
    (by simp [Sys.caCanDie, Option.any_eq_true])

/-- The CA starts that a call of `reap_children` can still make: the next deaths
of the CA count from `crash_count + 1`, which wraps around, up to four. -/
def Sys.restartsLeft (sys : Sys) : ℕ :=
  if sys.caCanDie then 5 - (sys.ca.crashCount + 1).toNat else 0

/-- These are the deaths that `handle_child_death` answers with a start. -/
theorem crashRestarts_iff (cfg : Config) (s : Daemon) (l : Label) :
    crashRestarts s l = true ↔ ∃ pid, l.reaps = some pid ∧
      RestartsCa cfg pid { s.sys with kernel := s.kernel.reap pid } := by
  simp [crashRestarts, restartsCa_iff, Option.any_eq_true]

def Label.isWaitpid : Label → Bool
  | .waitpid _ _ => true
  | _ => false

/-- The CA starts of a run. -/
def caStarts (cfg : Config) : Daemon → List Label → ℕ :=
  totalCost (step cfg) fun s l => if crashRestarts s l then 1 else 0

/-- The iterations of the reap loop in a run. -/
def iterations (cfg : Config) : Daemon → List Label → ℕ :=
  totalCost (step cfg) fun _ l => if l.isWaitpid then 1 else 0

theorem lt_five_iff {c : UInt32} : c < 5 ↔ c.toNat < 5 := by
  rw [UInt32.lt_iff_toNat_lt]
  rfl

theorem toNat_succ {c : UInt32} (h : c < 5) : (c + 1).toNat = c.toNat + 1 := by
  rw [lt_five_iff] at h
  rw [UInt32.toNat_add]
  have hone : (1 : UInt32).toNat = 1 := rfl
  omega

theorem restartsLeft_le {sys : Sys} {m : ℕ}
    (h : sys.caCanDie → 5 - (sys.ca.crashCount + 1).toNat ≤ m) :
    sys.restartsLeft ≤ m := by
  unfold Sys.restartsLeft
  split
  next hdies => exact h hdies
  next => exact Nat.zero_le m

theorem restartsLeft_of_caCanDie {sys : Sys} (h : sys.caCanDie) :
    sys.restartsLeft = 5 - (sys.ca.crashCount + 1).toNat :=
  if_pos h

theorem restartsLeft_mono {sys sys' : Sys} (hca : sys'.ca = sys.ca)
    (h : sys'.caCanDie → sys.caCanDie) :
    sys'.restartsLeft ≤ sys.restartsLeft := by
  by_cases hdies : sys'.caCanDie
  · rw [restartsLeft_of_caCanDie hdies, restartsLeft_of_caCanDie (h hdies), hca]
  · rw [Sys.restartsLeft, if_neg hdies]
    exact Nat.zero_le _

/-- A child that is reaped takes one from the children or from the restarts
that are left, and every restart takes one of those. -/
theorem HandlesDeath.restartsLeft {sys sys' : Sys}
    (h : HandlesDeath pid { sys with kernel := sys.kernel.reap pid } sys')
    (hheld : pid ∈ sys.kernel.table.pids) :
    sys'.restartsLeft + (if sys.vm.childPid ≠ some pid ∧
        sys.ca.childPid = some pid ∧ sys.ca.crashCount + 1 < 5
      then 1 else 0) ≤ sys.restartsLeft ∧
    sys'.kernel.table.pids.length + sys'.restartsLeft + 1 ≤
      sys.kernel.table.pids.length + sys.restartsLeft := by
  have hlength := sys.kernel.table.length_pids_reap hheld
  cases h with
  | vm hvm hreleased hca htable =>
      have hvm : sys.vm.childPid = some pid := hvm
      have hca : sys'.ca = sys.ca := hca
      have htable : sys'.kernel.table = sys.kernel.table.reap pid := htable
      have hleft : sys'.restartsLeft ≤ sys.restartsLeft := by
        refine restartsLeft_mono hca ?_
        rintro ⟨q, hq, -, hmem⟩
        rw [htable, Table.mem_pids_reap] at hmem
        refine ⟨q, hca ▸ hq, fun hsame => hmem.1 ?_, hmem.2⟩
        exact Option.some.inj (hsame.symm.trans hvm)
      rw [if_neg (fun h => h.1 hvm), htable]
      omega
  | restarted p hvm hca hfew hsame hcount hpid hfresh htable =>
      have hca : sys.ca.childPid = some pid := hca
      have hfew : sys.ca.crashCount + 1 < 5 := hfew
      have hcount : sys'.ca.crashCount = sys.ca.crashCount + 1 := hcount
      have hfresh : (sys.kernel.table.reap pid).find p = none := hfresh
      have htable : sys'.kernel.table =
          (sys.kernel.table.reap pid).spawn .ca p := htable
      have hbefore := restartsLeft_of_caCanDie ⟨pid, hca, hvm, hheld⟩
      have hafter : sys'.restartsLeft ≤ 5 - (sys'.ca.crashCount + 1).toNat :=
        restartsLeft_le fun _ => Nat.le_refl _
      have hlt := lt_five_iff.mp hfew
      rw [hcount, toNat_succ hfew] at hafter
      rw [if_pos ⟨hvm, hca, hfew⟩, htable, Table.pids_spawn _ hfresh,
        List.length_cons]
      omega
  | buried hca hsame hreleased htable =>
      have htable : sys'.kernel.table = sys.kernel.table.reap pid := htable
      have hafter : sys'.restartsLeft = 0 := by
        refine if_neg ?_
        rintro ⟨q, hq, -⟩
        cases hreleased.symm.trans hq
      have hbefore : (if sys.vm.childPid ≠ some pid ∧
          sys.ca.childPid = some pid ∧ sys.ca.crashCount + 1 < 5
          then 1 else 0) ≤ sys.restartsLeft := by
        split
        next h =>
          obtain ⟨hvm, hca, hfew⟩ := h
          rw [restartsLeft_of_caCanDie ⟨pid, hca, hvm, hheld⟩]
          have hlt := lt_five_iff.mp hfew
          omega
        next => exact Nat.zero_le _
      rw [hafter, htable]
      omega
  | discarded hvm hca hsame hsame' htable =>
      have hca : sys.ca.childPid ≠ some pid := hca
      have hsame : sys'.vm = sys.vm := hsame
      have hsame' : sys'.ca = sys.ca := hsame'
      have htable : sys'.kernel.table = sys.kernel.table.reap pid := htable
      have hleft : sys'.restartsLeft ≤ sys.restartsLeft := by
        refine restartsLeft_mono hsame' ?_
        rintro ⟨q, hq, hother, hmem⟩
        rw [htable, Table.mem_pids_reap] at hmem
        exact ⟨q, hsame' ▸ hq, hsame ▸ hother, hmem.2⟩
      rw [if_neg (fun h => hca h.2.1), htable]
      omega

/-! ## The measure of the loop -/

/-- The iterations that are left: one for every child, one for every child the
loop may still start, and one that finds no zombie. -/
def reapMeasure (s : Daemon) : ℕ :=
  s.kernel.table.pids.length + s.sys.restartsLeft + if Reaping s then 1 else 0

theorem reapMeasure_le (s : Daemon) : reapMeasure s ≤
    s.kernel.table.pids.length + s.sys.restartsLeft + 1 := by
  unfold reapMeasure
  split <;> omega

theorem reapMeasure_of_reaping (hs : Reaping s) : reapMeasure s =
    s.kernel.table.pids.length + s.sys.restartsLeft + 1 := by
  rw [reapMeasure, if_pos hs]

theorem restartsLeft_congr {sys sys' : Sys} (hvm : sys'.vm = sys.vm)
    (hca : sys'.ca = sys.ca)
    (hpids : sys'.kernel.table.pids = sys.kernel.table.pids) :
    sys'.restartsLeft = sys.restartsLeft := by
  refine Nat.le_antisymm (restartsLeft_mono hca ?_)
    (restartsLeft_mono hca.symm ?_)
  · rintro ⟨q, hq, hother, hmem⟩
    exact ⟨q, hca ▸ hq, hvm ▸ hother, hpids ▸ hmem⟩
  · rintro ⟨q, hq, hother, hmem⟩
    exact ⟨q, hca ▸ hq, hvm ▸ hother, hpids ▸ hmem⟩

theorem step_environment_frame (henv : l.isEnvironment = true)
    (hstep : step cfg s l = some t) :
    t.vm = s.vm ∧ t.ca = s.ca ∧
      t.kernel.table.pids = s.kernel.table.pids := by
  have hlabel : l.isQuiet = true ∨ ∃ pid, l = .exit pid := by
    cases l <;> first
      | exact Or.inl rfl
      | exact Or.inr ⟨_, rfl⟩
      | cases henv
  rcases hlabel with hquiet | ⟨pid, rfl⟩
  · have hframe := step_quiet hquiet hstep
    exact ⟨hframe.vm, hframe.ca, congrArg Table.pids hframe.table⟩
  · obtain ⟨-, rfl⟩ := step_exit hstep
    exact ⟨rfl, rfl, Table.pids_exit _⟩

/-- Every step of a call pays for the CA it starts and for the iteration it is
out of what is left. -/
theorem step_reapMeasure (hs : Reaping s) (hstep : step cfg s l = some t) :
    t.sys.restartsLeft + (if crashRestarts s l then 1 else 0) ≤
        s.sys.restartsLeft ∧
      reapMeasure t + (if l.isWaitpid then 1 else 0) ≤ reapMeasure s := by
  rw [reapMeasure_of_reaping hs]
  have hle := reapMeasure_le t
  obtain ⟨term, client, hat⟩ := hs
  rcases step_turn hstep with henv | hturn
  · obtain ⟨hvm, hca, hpids⟩ := step_environment_frame henv hstep
    have hleft : t.sys.restartsLeft = s.sys.restartsLeft :=
      restartsLeft_congr hvm hca hpids
    have hquiet : l.isWaitpid = false ∧ crashRestarts s l = false := by
      cases l <;> first | exact ⟨rfl, rfl⟩ | cases henv
    rw [hpids, hleft] at hle
    simp only [hquiet.1, hquiet.2, hleft]
    simpa using hle
  rw [hat] at hturn
  cases l with
  | waitpid raw env =>
      obtain ⟨term', client', -, hreports, rfl⟩ := step_waitpid hstep
      have hwaits : (Label.waitpid raw env).isWaitpid = true := rfl
      rw [if_pos hwaits]
      cases raw with
      | none =>
          have hleft : ¬ Reaping { s with pc := afterSignals term' client' } := by
            rw [reaping_iff]
            cases term' <;> simp [afterSignals, Pc.isReap]
          have hmeasure :
              reapMeasure { s with pc := afterSignals term' client' } =
                s.kernel.table.pids.length + s.sys.restartsLeft + 0 := by
            rw [reapMeasure, if_neg hleft]
          exact ⟨Nat.le_refl _, Nat.le_of_eq (congrArg (· + 1) hmeasure)⟩
      | some report =>
          obtain ⟨q, status⟩ := report
          have hheld := Table.mem_pids_of_isZombie _ hreports
          rcases reapIteration_some q status env with
            ⟨hreaps, -, hiter⟩ | ⟨hreaps, -, hiter⟩
          · obtain ⟨hleft, hlength⟩ := (handleChildDeath_handles cfg q
              { s.sys with kernel := s.kernel.reap q } env).restartsLeft hheld
            rw [hiter] at hle ⊢
            simp only [crashRestarts, hreaps, Option.any_some,
              decide_eq_true_eq]
            exact ⟨hleft, Nat.le_trans (Nat.add_le_add_right hle 1)
              (Nat.add_le_add_right hlength 1)⟩
          · rw [hiter] at hle ⊢
            have hlength := s.kernel.table.length_pids_reap hheld
            have hleft : Sys.restartsLeft
                { s.sys with kernel := (s.kernel.reap q).emit (.lost q) } ≤
                  s.sys.restartsLeft := by
              refine restartsLeft_mono rfl ?_
              rintro ⟨p, hp, hother, hmem⟩
              exact ⟨p, hp, hother, ((Table.mem_pids_reap _).mp hmem).2⟩
            simp only [crashRestarts, hreaps, Option.any_none]
            refine ⟨hleft, Nat.le_trans (Nat.add_le_add_right hle 1) ?_⟩
            refine Nat.add_le_add_right (Nat.le_trans ?_
              (Nat.add_le_add (Nat.le_of_eq hlength) hleft)) 1
            exact Nat.le_of_eq (Nat.add_right_comm _ _ 1)
  | _ => cases hturn

/-! ## A call that uses up its restarts -/

theorem exists_freeHint (sys : Sys) :
    ∃ hint, hint ≠ 0 ∧ hint ∉ sys.kernel.table.pids ++ sys.kernel.others ∧
      sys.vm.childPid ≠ some hint := by
  let used := sys.kernel.table.pids ++ sys.kernel.others ++
    sys.vm.childPid.toList
  have hfree : ∀ p ∈ used, p ≠ used.foldr max 0 + 1 := by
    intro p hp
    have hle := Table.le_foldr_max hp
    omega
  refine ⟨used.foldr max 0 + 1, Nat.succ_ne_zero _, ?_, ?_⟩
  · intro hmem
    exact hfree _ (List.mem_append_left _ hmem) rfl
  · intro hvm
    refine hfree _ (List.mem_append_right _ ?_) rfl
    rw [hvm]
    exact List.mem_singleton_self _

theorem handleChildDeath_works (cfg : Config) (sys : Sys) {hint : Pid}
    (hvm : sys.vm.childPid ≠ some pid) (hca : sys.ca.childPid = some pid)
    (hfew : sys.ca.crashCount + 1 < 5) (hpos : hint ≠ 0)
    (hfree : hint ∉ sys.kernel.table.pids ++ sys.kernel.others) :
    (handleChildDeath cfg pid sys (.works hint)).vm = sys.vm ∧
      (handleChildDeath cfg pid sys (.works hint)).ca.childPid = some hint ∧
      (handleChildDeath cfg pid sys (.works hint)).ca.crashCount =
        sys.ca.crashCount + 1 ∧
      hint ∈ (handleChildDeath cfg pid sys
        (.works hint)).kernel.table.pids := by
  have hfresh : Table.freshPid (sys.kernel.table.pids ++ sys.kernel.others)
      hint = hint := if_pos ⟨hpos, hfree⟩
  rw [handleChildDeath_restart sys hvm hca hfew]
  refine ⟨rfl, congrArg some hfresh, rfl, ?_⟩
  have htable : (sys.set .ca
      (CaManager.start cfg sys.ca.markDead (sys.kernel.emit (.died .ca pid))
        (.works hint)).1
      (CaManager.start cfg sys.ca.markDead (sys.kernel.emit (.died .ca pid))
        (.works hint)).2.1).kernel.table =
          sys.kernel.table.spawn .ca hint :=
    congrArg (sys.kernel.table.spawn .ca) hfresh
  have hfree : sys.kernel.table.find hint = none :=
    Table.find_eq_none_iff.mpr fun hmem =>
      hfree (List.mem_append_left _ hmem)
  rw [htable, Table.pids_spawn _ hfree]
  exact List.mem_cons_self

theorem exists_waitpid (cfg : Config) (hs : Reaping s) :
    ∃ raw env, (step cfg s (.waitpid raw env)).isSome = true := by
  obtain ⟨term, client, hat⟩ := hs
  have hpossible : ∀ raw, waitpidReports s.kernel raw = true →
      (step cfg s (.waitpid raw (.works 0))).isSome = true := by
    intro raw hreports
    simp only [step, hat, hreports, if_true]
    split <;> rfl
  by_cases halive : s.kernel.table.procs.all Proc.alive = true
  · exact ⟨none, .works 0, hpossible none halive⟩
  · obtain ⟨q, hq, hdead⟩ : ∃ q ∈ s.kernel.table.procs, ¬ q.alive = true := by
      simpa using halive
    refine ⟨some (q.pid, .code 0), .works 0, hpossible _ ?_⟩
    have hfind := Table.find_of_mem hq
    simp [waitpidReports, Table.isZombie, hfind, hdead]

/-- The steps are taken in one call of `reap_children`. -/
def InCall (cfg : Config) (s : Daemon) (ls : List Label) : Prop :=
  Along (step cfg) (fun s _ => Reaping s) s ls

theorem exists_zombie (cfg : Config) (hs : Reaping s)
    (hheld : pid ∈ s.kernel.table.pids) :
    ∃ ls t, exec (step cfg) s ls = some t ∧ InCall cfg s ls ∧ Reaping t ∧
      caStarts cfg s ls = 0 ∧ t.vm = s.vm ∧ t.ca = s.ca ∧
      t.kernel.table.isZombie pid = true := by
  cases halive : s.kernel.table.isAlive pid with
  | true =>
      refine ⟨[.exit pid], s.withKernel (s.kernel.exitProc pid), ?_,
        ⟨hs, fun _ _ => trivial⟩, hs, ?_, rfl, rfl, ?_⟩
      · simp [step, halive]
      · simp [caStarts, totalCost, step, halive, crashRestarts, Label.reaps]
      · obtain ⟨r, hr⟩ := Table.isAlive_iff.mp halive
        have hr : s.kernel.table.find pid = some ⟨pid, r, true⟩ := hr
        refine Table.isZombie_iff.mpr ⟨r, ?_⟩
        change (s.kernel.table.exit pid).find pid = _
        rw [Table.find_exit, hr]
        simp
  | false =>
      refine ⟨[], s, rfl, trivial, hs, rfl, rfl, rfl, ?_⟩
      obtain ⟨q, hq⟩ := Option.isSome_iff_exists.mp
        (Table.find_isSome_iff.mpr hheld)
      simpa [Table.isAlive, Table.isZombie, hq] using halive

theorem exists_crashRestart (cfg : Config) (hs : Reaping s)
    (hdies : s.sys.caCanDie) (hfew : s.ca.crashCount + 1 < 5) :
    ∃ ls t, exec (step cfg) s ls = some t ∧ InCall cfg s ls ∧ Reaping t ∧
      caStarts cfg s ls = 1 ∧ t.sys.caCanDie ∧
      t.ca.crashCount = s.ca.crashCount + 1 := by
  obtain ⟨pid, hca, hvm, hheld⟩ := hdies
  obtain ⟨ls, u, hrun, hinside, hu, hcost, hvm', hca', hzombie⟩ :=
    exists_zombie cfg hs hheld
  obtain ⟨term, client, hat⟩ := hu
  let sys : Sys := { u.sys with kernel := u.kernel.reap pid }
  obtain ⟨hint, hpos, hfree, hother⟩ := exists_freeHint sys
  have hvm : u.sys.vm.childPid ≠ some pid := by
    have hsame : u.sys.vm = s.vm := hvm'
    rwa [hsame]
  have hca : u.sys.ca.childPid = some pid := by
    have hsame : u.sys.ca = s.ca := hca'
    rwa [hsame]
  have hcount : u.sys.ca.crashCount = s.ca.crashCount :=
    congrArg Manager.crashCount hca'
  have hfew : u.sys.ca.crashCount + 1 < 5 := hcount ▸ hfew
  obtain ⟨hsame, hpid, hnext, hmem⟩ := handleChildDeath_works cfg sys
    hvm hca hfew hpos hfree
  let v : Daemon := { u with
    sys := handleChildDeath cfg pid sys (.works hint) }
  have hstep : step cfg u (.waitpid (some (pid, .code 1)) (.works hint)) =
      some v := by
    simp [step, hat, waitpidReports, hzombie, reapIteration, decodeWait, sys, v]
  refine ⟨ls ++ [.waitpid (some (pid, .code 1)) (.works hint)], v,
    exec_append_eq_some_iff.mpr ⟨u, hrun, ?_⟩,
    (along_append_iff hrun).mpr ⟨hinside, ⟨term, client, hat⟩,
      fun _ _ => trivial⟩, ⟨term, client, hat⟩, ?_, ?_, ?_⟩
  · rw [exec_singleton]
    exact hstep
  · unfold caStarts at hcost ⊢
    rw [totalCost_append hrun, hcost]
    simp [totalCost, hstep, crashRestarts, Label.reaps, decodeWait, hvm, hca,
      hfew]
  · exact ⟨hint, hpid, hsame ▸ hother, hmem⟩
  · exact hnext.trans (congrArg (· + 1) hcount)

theorem exists_restarts (cfg : Config) {m : ℕ} (hs : Reaping s)
    (hdies : s.sys.caCanDie) (hm : m + (s.ca.crashCount + 1).toNat ≤ 5) :
    ∃ ls t, exec (step cfg) s ls = some t ∧ InCall cfg s ls ∧
      caStarts cfg s ls = m := by
  induction m generalizing s with
  | zero => exact ⟨[], s, rfl, trivial, rfl⟩
  | succ m ih =>
      have hfew : s.ca.crashCount + 1 < 5 := lt_five_iff.mpr (by omega)
      obtain ⟨ls, u, hrun, hinside, hu, hcost, hdies, hcount⟩ :=
        exists_crashRestart cfg hs hdies hfew
      have hnext : (u.ca.crashCount + 1).toNat =
          (s.ca.crashCount + 1).toNat + 1 := by
        rw [hcount]
        exact toNat_succ hfew
      obtain ⟨ms, t, hrest, hinside', hcost'⟩ := ih hu hdies (by omega)
      refine ⟨ls ++ ms, t, exec_append_eq_some_iff.mpr ⟨u, hrun, hrest⟩,
        (along_append_iff hrun).mpr ⟨hinside, hinside'⟩, ?_⟩
      unfold caStarts at hcost hcost' ⊢
      rw [totalCost_append hrun, hcost, hcost', Nat.add_comm]

/-! ## The loop ends -/

/-- A call of `reap_children` from here on ends after a bounded number of
iterations, each of which is possible, and starts no more than four CAs. -/
structure ReapEnds (cfg : Config) (s : Daemon) : Prop where
  iterations : ∀ ls t, exec (step cfg) s ls = some t → InCall cfg s ls →
    iterations cfg s ls ≤ s.kernel.table.pids.length + 6
  goesOn : ∀ ls t, exec (step cfg) s ls = some t → InCall cfg s ls →
    Reaping t → ∃ raw env, (step cfg t (.waitpid raw env)).isSome = true
  starts : ∀ ls t, exec (step cfg) s ls = some t → InCall cfg s ls →
    caStarts cfg s ls ≤ 4

/-- The reap loop ends, and starts at most four CAs unless the CA can die when
its crash count is about to wrap around. -/
theorem reap_ends_iff (hs : Reaping s) :
    ReapEnds cfg s ↔
      ¬ (s.ca.crashCount.toNat = 2 ^ 32 - 1 ∧ s.sys.caCanDie) := by
  have hadd : (s.ca.crashCount + 1).toNat =
      (s.ca.crashCount.toNat + 1) % 2 ^ 32 := UInt32.toNat_add _ _
  have hbound := s.ca.crashCount.toNat_lt
  constructor
  · rintro hends ⟨hwraps, hdies⟩
    obtain ⟨ls, t, hrun, hinside, hstarts⟩ :=
      exists_restarts cfg (m := 5) hs hdies (by omega)
    have hfew := hends.starts ls t hrun hinside
    omega
  · intro hfits
    have hleft : s.sys.restartsLeft ≤ 4 := by
      apply restartsLeft_le
      intro hdies
      have hcount : s.ca.crashCount.toNat ≠ 2 ^ 32 - 1 :=
        fun hwraps => hfits ⟨hwraps, hdies⟩
      have hadd : (s.sys.ca.crashCount + 1).toNat = _ := hadd
      omega
    constructor
    · intro ls t hrun hinside
      have hpaid : reapMeasure t + Teeproxyd.iterations cfg s ls ≤
          reapMeasure s :=
        Along.totalCost_le (fun s l t hs hstep =>
          (step_reapMeasure hs hstep).2) hinside hrun
      rw [reapMeasure_of_reaping hs] at hpaid
      omega
    · intro ls t _ _ ht
      exact exists_waitpid cfg ht
    · intro ls t hrun hinside
      have hpaid : t.sys.restartsLeft + caStarts cfg s ls ≤
          s.sys.restartsLeft :=
        Along.totalCost_le (fun s l t hs hstep =>
          (step_reapMeasure hs hstep).1) hinside hrun
      omega

/-- The loop ends when CA 200 is reaped on a booted daemon. -/
theorem reap_ends_bootUp :
    ∃ s, after (bootUp ++ caExit) = some s ∧ ReapEnds Config.default s := by
  obtain ⟨s, hafter, hs, hcount⟩ := exists_after (bootUp ++ caExit)
    (P := fun s => Reaping s ∧ s.ca.crashCount.toNat ≠ 2 ^ 32 - 1) (by decide)
  exact ⟨s, hafter, (reap_ends_iff hs).mpr fun h => hcount h.1⟩

/-! ## The crash count wraps around -/

/-- The default configuration without the start at boot. -/
def Config.manual : Config := { Config.default with autoStart := false }

/-- A daemon that has started nothing but CA 200, with this crash count. -/
def crashed (c : UInt32) (log : List (Instant × Event)) : Daemon where
  pc := .poll
  sys :=
    { vm := Manager.new
      ca := { Manager.new with
        state := CaState.running
        childPid := some 200
        crashCount := c }
      kernel :=
        { (init Config.manual 0).kernel with
          table := Table.spawn Table.empty .ca 200
          log := log } }
  startup := .notStarted
  health := HealthMonitor.new Config.manual.caPort
    Config.manual.healthFailThreshold
  lastHealth := 0
  startedAt := 0

/-- A client starts CA 200. -/
def startCa : List Label :=
  [.accept true, .request (.command "start_ca") (.works 100 200) false,
    .startup (.works 100 200), .health (.answers .connected 300), .resetCounts]

theorem exec_first :
    ∃ log, exec (step Config.manual) (init Config.manual 0)
      (.poll .incoming :: startCa) = some (crashed 0 log) := ⟨_, rfl⟩

/-- The same daemon when the CA has died and is about to be reaped. -/
def killed (c : UInt32) (log : List (Instant × Event)) : Daemon :=
  { crashed c log with
    pc := .reap false true
    sys := { (crashed c log).sys with
      kernel := { (crashed c log).kernel with
        table := (Table.spawn Table.empty .ca 200).exit 200 } } }

theorem exec_killed (c : UInt32) (log : List (Instant × Event)) :
    ∃ log', exec (step Config.manual) (crashed c log) caExit =
      some (killed c log') := ⟨_, rfl⟩

/-- The CA is reaped, and a client starts the next one. -/
theorem exec_buried (c : UInt32) (log : List (Instant × Event)) :
    ∃ log', exec (step Config.manual) (killed c log)
      ([.waitpid (some (200, .code 1)) .missing] ++
        (.waitpid none (.works 0) :: startCa)) =
      some (crashed (c + 1) log') := by
  let sys : Sys := { (killed c log).sys with
    kernel := (killed c log).kernel.reap 200 }
  let buried (stage : Stage) (log : List (Instant × Event)) : Daemon :=
    { killed c log with
      sys :=
        { vm := Manager.new
          ca := { Manager.new with state := stage, crashCount := c + 1 }
          kernel := { sys.kernel with log := log } } }
  have hdeath : ∃ stage log', step Config.manual (killed c log)
      (.waitpid (some (200, .code 1)) .missing) = some (buried stage log') := by
    have hstep : step Config.manual (killed c log)
        (.waitpid (some (200, .code 1)) .missing) =
      some { killed c log with
        sys := handleChildDeath Config.manual 200 sys .missing } := rfl
    have hnone : sys.vm.childPid ≠ some 200 := nofun
    by_cases hfew : c + 1 < 5
    · refine ⟨.idle, (0, .died .ca 200) :: log, hstep.trans ?_⟩
      rw [handleChildDeath_restart sys hnone rfl hfew]
      rfl
    · refine ⟨.error, (0, .condemned .ca) :: (0, .died .ca 200) :: log,
        hstep.trans ?_⟩
      rw [handleChildDeath_condemn sys hnone rfl hfew]
      rfl
  obtain ⟨stage, log', hstep⟩ := hdeath
  have hrest : ∃ log'', exec (step Config.manual) (buried stage log')
      (.waitpid none (.works 0) :: startCa) = some (crashed (c + 1) log'') := by
    cases stage <;> exact ⟨_, rfl⟩
  obtain ⟨log'', hrest⟩ := hrest
  exact ⟨log'', exec_append_eq_some_iff.mpr
    ⟨_, (exec_singleton _ _).trans hstep, hrest⟩⟩

/-- There is no bound on the deaths of a CA that a client starts again and
again, so the count takes every value. -/
theorem reachable_crashed (m : ℕ) :
    ∃ log, Reachable Config.manual (crashed (UInt32.ofNat m) log) := by
  induction m with
  | zero =>
      obtain ⟨log, hrun⟩ := exec_first
      exact ⟨log, 0, reachable_of_exec hrun⟩
  | succ m ih =>
      obtain ⟨log, now, hpath⟩ := ih
      obtain ⟨log', hkilled⟩ := exec_killed (UInt32.ofNat m) log
      obtain ⟨log'', hburied⟩ := exec_buried (UInt32.ofNat m) log'
      have hcount : UInt32.ofNat m + 1 = UInt32.ofNat (m + 1) :=
        (UInt32.ofNat_add m 1).symm
      rw [hcount] at hburied
      exact ⟨log'', now, hpath.trans ((reachable_of_exec hkilled).trans
        (reachable_of_exec hburied))⟩

/-- When the count has reached `u32::MAX`, one call of `reap_children` starts
five CAs. -/
theorem reap_starts_five :
    ∃ s, Reachable Config.manual s ∧ Reaping s ∧
      s.ca.crashCount.toNat = 2 ^ 32 - 1 ∧
      ∃ ls t, exec (step Config.manual) s ls = some t ∧
        InCall Config.manual s ls ∧ caStarts Config.manual s ls = 5 := by
  obtain ⟨log, now, hpath⟩ := reachable_crashed (2 ^ 32 - 1)
  obtain ⟨log', hkilled⟩ := exec_killed (UInt32.ofNat (2 ^ 32 - 1)) log
  have hs : Reaping (killed (UInt32.ofNat (2 ^ 32 - 1)) log') := ⟨_, _, rfl⟩
  have hdies : (killed (UInt32.ofNat (2 ^ 32 - 1)) log').sys.caCanDie :=
    ⟨200, rfl, nofun, List.mem_singleton_self 200⟩
  have hwraps : (UInt32.ofNat (2 ^ 32 - 1) + 1).toNat = 0 := by decide
  exact ⟨_, ⟨now, hpath.trans (reachable_of_exec hkilled)⟩, hs, rfl,
    exists_restarts Config.manual hs hdies
      (Nat.le_of_eq (congrArg (5 + ·) hwraps))⟩

end Teeproxyd
