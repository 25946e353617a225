import Teeproxyd.Supervision.SelfPipe
import Teeproxyd.Supervision.Strikes

/-!
# No death is forgotten

A child may die at any point of the main loop: before the drain, between the
drain and the reaping, while the children are reaped, in a client's session or
while a helper process runs.  Its SIGCHLD may be merged with others, and its
byte may be read together with others.  Still, whenever a child is dead and
un-reaped, a SIGCHLD is pending, or a `C` is in the pipe, or `reap_children`
runs and will not end before it has seen the child.
-/

namespace Teeproxyd

open ProcessTable TransitionSystem

variable {cfg : Config} {s t : Daemon} {l : Label} {pid : Pid} {n : ℕ}

/-! ## A zombie -/

/-- The signal finds room in the pipe, and `waitpid` can report the child it
reaps. -/
def Unobstructed (s : Daemon) (l : Label) : Prop :=
  HasRoom s l ∧ l.loses = none

instance : Decidable (Unobstructed s l) := inferInstanceAs (Decidable (_ ∧ _))

/-- The main loop calls `waitpid`. -/
def Reaping (s : Daemon) : Prop := ∃ term client, s.pc = .reap term client

/-- A child that runs was running before, or its pid was free. -/
theorem Happens.aliveOf {f g : Fleet} {te : Instant × Event} {r : Role}
    (h : Happens f te g) (hg : g.table.AliveOf r pid) :
    f.table.AliveOf r pid ∨ f.table.find pid = none := by
  cases h with
  | exited => exact Or.inl ((Table.aliveOf_exit f.table).mp hg).2
  | spawned hfresh =>
      rcases (Table.aliveOf_spawn f.table hfresh).mp hg with ⟨-, rfl⟩ | hold
      · exact Or.inr hfresh
      · exact Or.inl hold
  | died => exact Or.inl ((Table.aliveOf_reap f.table).mp hg).2
  | discarded => exact Or.inl ((Table.aliveOf_reap f.table).mp hg).2
  | lost => exact Or.inl ((Table.aliveOf_reap f.table).mp hg).2
  | _ => exact Or.inl hg

theorem step_isZombie (hleaves : l.leaves pid)
    (hs : s.kernel.table.isZombie pid = true)
    (hstep : step cfg s l = some t) : t.kernel.table.isZombie pid = true := by
  have hheld : t.kernel.table.find pid ≠ none ∧
      ∀ r, ¬ t.kernel.table.AliveOf r pid := by
    refine step_invariant (I := fun _ f =>
      f.table.find pid ≠ none ∧ ∀ r, ¬ f.table.AliveOf r pid)
      (fun _ _ hf => hf) ?_ hstep ?_
    · intro log f te g hcause hte hf
      refine ⟨held_of_cause hleaves hcause hte hf.1, fun r hr => ?_⟩
      rcases hte.aliveOf hr with hr | hfree
      · exact hf.2 r hr
      · exact hf.1 hfree
    · obtain ⟨r, hr⟩ := Table.isZombie_iff.mp hs
      have hfind : s.sys.fleet.table.find pid = some ⟨pid, r, false⟩ := hr
      constructor
      · rw [hfind]
        exact nofun
      · intro q hq
        cases hfind.symm.trans hq
  obtain ⟨q, hq⟩ := Option.ne_none_iff_exists'.mp hheld.1
  obtain rfl : q.pid = pid := Table.find_pid hq
  refine Table.isZombie_iff.mpr ⟨q.owner, ?_⟩
  rw [hq]
  cases halive : q.alive with
  | false => cases q; cases halive; rfl
  | true =>
      refine absurd ?_ (hheld.2 q.owner)
      rw [Table.AliveOf, hq]
      cases q; cases halive; rfl

theorem not_isZombie_of_reports {k : Kernel}
    (hreports : waitpidReports k none = true) :
    ¬ k.table.isZombie pid = true := by
  intro hzombie
  obtain ⟨r, hr⟩ := Table.isZombie_iff.mp hzombie
  have hmem := List.mem_of_find?_eq_some hr
  cases List.all_eq_true.mp hreports _ hmem

theorem step_reaping (hlegal : Unobstructed s l) (hs : Reaping s)
    (hzombie : s.kernel.table.isZombie pid = true)
    (hstep : step cfg s l = some t) : Reaping t ∧ l.endsRound = 0 := by
  obtain ⟨term, client, hat⟩ := hs
  rcases step_turn hstep with henv | hturn
  · refine ⟨⟨term, client, ?_⟩, Label.endsRound_of_isEnvironment henv⟩
    rw [(step_environment henv hlegal.1 hstep).2, hat]
    exact ite_self _
  rw [hat] at hturn
  cases l with
  | waitpid raw env =>
      obtain ⟨term', client', -, hreports, rfl⟩ := step_waitpid hstep
      have hagain : (reapIteration cfg raw s.sys env).2 = true := by
        cases raw with
        | none =>
            exact absurd hzombie (not_isZombie_of_reports hreports)
        | some report =>
            obtain ⟨q, status⟩ := report
            rcases reapIteration_some q status env with
              ⟨-, -, hiter⟩ | ⟨-, hlost, -⟩
            · rw [hiter]
            · cases hlegal.2.symm.trans hlost
      refine ⟨⟨term, client, ?_⟩, rfl⟩
      dsimp only
      rw [if_pos hagain, hat]
  | _ => cases hturn

/-- The zombie is about to be reaped, or a `C` will be read in no more than `n`
iterations. -/
def Noticed (pid : Pid) (n : ℕ) (s : Daemon) : Prop :=
  s.kernel.table.isZombie pid = true ∧
    ((Reaping s ∧ 1 ≤ n) ∨ Queued 'C' n s)

theorem step_noticed (hlegal : Unobstructed s l) (hkept : l.reaps ≠ some pid)
    (hs : Noticed pid n s) (hstep : step cfg s l = some t) :
    Noticed pid (n - l.endsRound) t := by
  obtain ⟨hzombie, hnoticed⟩ := hs
  have hleaves : l.leaves pid := by
    refine ⟨hkept, ?_⟩
    rw [hlegal.2]
    exact nofun
  refine ⟨step_isZombie hleaves hzombie hstep, ?_⟩
  rcases hnoticed with ⟨hreaping, hn⟩ | hqueued
  · obtain ⟨hreaping, hends⟩ := step_reaping hlegal hreaping hzombie hstep
    rw [hends]
    exact Or.inl ⟨hreaping, hn⟩
  rcases step_queued hlegal.1 hqueued hstep with ⟨rfl, hfound⟩ | hnext
  · left
    obtain ⟨client, -, -, hpc⟩ := step_drain hstep
    rw [if_pos (List.contains_iff_mem.mpr hfound)] at hpc
    exact ⟨⟨_, _, hpc⟩, hqueued.pos⟩
  · exact Or.inr hnext

/-! ## The lost wake-up -/

/-- Every zombie makes itself known: by a pending SIGCHLD, by a `C` in the pipe,
or because the loop is reaping already. -/
def Alert (s : Daemon) : Prop :=
  ∀ pid, s.kernel.table.isZombie pid = true →
    s.pc.isRunning = false ∨ Reaping s ∨ s.kernel.chldPending = true ∨
      'C' ∈ s.kernel.pipe

theorem step_chldPending (hroom : HasRoom s l) (hl : l ≠ .deliverChld)
    (hs : s.kernel.chldPending = true) (hstep : step cfg s l = some t) :
    t.kernel.chldPending = true := by
  by_cases hquiet : l.isQuiet = false
  · exact (step_continues hstep).pending hquiet hs
  cases l with
  | tick d =>
      cases hstep
      exact hs
  | crosvmStart parent =>
      simp only [step] at hstep
      split at hstep <;> cases hstep
      exact hs
  | crosvmExit i =>
      cases hstep
      exact hs
  | others pids =>
      simp only [step] at hstep
      split at hstep <;> cases hstep
      exact hs
  | terminate =>
      cases hstep
      exact hs
  | sigchld =>
      cases hstep
      rfl
  | deliverChld => exact absurd rfl hl
  | deliverTerm =>
      have hroom : s.kernel.HasPipeRoom := hroom rfl
      simp only [step] at hstep
      split at hstep <;> cases hstep
      rw [signalHandler_eq
        (s := s.withKernel { s.kernel with termPending := false }) hroom]
      exact hs
  | drain =>
      obtain ⟨client, -, hkernel, -⟩ := step_drain hstep
      rw [hkernel]
      exact hs
  | poll | wake | accept | hangup =>
      rw [step_move rfl hstep]
      exact hs
  | _ => exact absurd rfl hquiet

theorem step_alert (hlegal : Unobstructed s l) (hs : Alert s)
    (hstep : step cfg s l = some t) : Alert t := by
  intro pid hpid
  have hpipe := step_pipe hlegal.1 hstep
  have hnew : s.kernel.table.isZombie pid = true ∨
      t.kernel.chldPending = true := by
    cases hquiet : l.isQuiet with
    | true =>
        rw [(step_quiet hquiet hstep).table] at hpid
        exact Or.inl hpid
    | false => exact (step_continues hstep).zombies hquiet pid hpid
  rcases hnew with hold | hraised
  · rcases hs pid hold with hended | hreaping | hpending | hunread
    · left
      rw [(step_ended hended hstep).1]
      exact hended
    · exact Or.inr (Or.inl (step_reaping hlegal hreaping hold hstep).1)
    · right; right
      by_cases hl : l = .deliverChld
      · subst hl
        right
        rw [hpipe]
        exact List.mem_append_right _ (List.mem_singleton_self _)
      · exact Or.inl (step_chldPending hlegal.1 hl hpending hstep)
    · right
      by_cases hl : l = .drain
      · subst hl
        rw [← List.take_append_drop 64 s.kernel.pipe, List.mem_append] at hunread
        rcases hunread with hread | hrest
        · left
          obtain ⟨client, -, -, hpc⟩ := step_drain hstep
          rw [if_pos (List.contains_iff_mem.mpr hread)] at hpc
          exact ⟨_, _, hpc⟩
        · right; right
          rw [hpipe]
          exact List.mem_append_left _ hrest
      · right; right
        rw [hpipe, Label.drained_of_ne hl]
        exact List.mem_append_left _ hunread
  · exact Or.inr (Or.inr (Or.inl hraised))

theorem reach_unobstructed (hreach : Reach cfg Unobstructed s) :
    Awake s ∧ Alert s := by
  constructor
  · exact reach_awake (reach_mono (fun _ _ h => h.1) hreach)
  · obtain ⟨now, hpath⟩ := hreach
    exact hpath.preserves (I := Alert) (fun _ _ _ => step_alert)
      (fun pid hpid => nomatch hpid)

/-- The label meets the assumptions, and the zombie is not reaped by it. -/
def LeavesZombie (pid : Pid) (s : Daemon) (l : Label) : Prop :=
  Unobstructed s l ∧ l.reaps ≠ some pid

theorem along_noticed {ls : List Label}
    (halong : Along (step cfg) (LeavesZombie pid) s ls)
    (hrun : exec (step cfg) s ls = some t) (hs : Noticed pid n s) :
    Noticed pid (n - rounds ls) t :=
  halong.countdown (I := Noticed pid)
    (fun _ _ _ _ hl hs hstep => step_noticed hl.1 hl.2 hs hstep) hrun hs

theorem Noticed.pos (h : Noticed pid n s) : 1 ≤ n := by
  rcases h.2 with ⟨-, hpos⟩ | hqueued
  · exact hpos
  · exact hqueued.pos

theorem along_awake {ls : List Label}
    (halong : Along (step cfg) (LeavesZombie pid) s ls)
    (hrun : exec (step cfg) s ls = some t) (hs : Awake s) : Awake t :=
  (path_of_exec hrun halong).preserves (I := Awake)
    (fun _ _ _ hl => step_awake hl.1.1) hs

theorem along_isZombie {ls : List Label}
    (halong : Along (step cfg) (LeavesZombie pid) s ls)
    (hrun : exec (step cfg) s ls = some t)
    (hs : s.kernel.table.isZombie pid = true) :
    t.kernel.table.isZombie pid = true := by
  refine (path_of_exec hrun halong).preserves
    (I := fun u => u.kernel.table.isZombie pid = true) ?_ hs
  intro u l v hl hu hstep
  refine step_isZombie ⟨hl.2, ?_⟩ hu hstep
  rw [hl.1.2]
  exact nofun

/-- As long as the zombie is not reaped, few iterations end once a `C` is in the
pipe. -/
theorem rounds_lt (hs : Awake s) (hzombie : s.kernel.table.isZombie pid = true)
    (hunread : Reaping s ∨ 'C' ∈ s.kernel.pipe) {ls : List Label}
    (halong : Along (step cfg) (LeavesZombie pid) s ls)
    (hrun : exec (step cfg) s ls = some t) :
    64 * rounds ls < s.kernel.pipe.length + 64 ∧
      (Reaping t ∨ 'C' ∈ t.kernel.pipe) := by
  -- the number of iterations that it takes to drain the pipe
  let n := (s.kernel.pipe.length + 63) / 64 + 1
  have hn : s.kernel.pipe.length + 64 ≤ 64 * n := by omega
  have hnoticed : Noticed pid n s := by
    refine ⟨hzombie, ?_⟩
    rcases hunread with hreaping | hmem
    · exact Or.inl ⟨hreaping, by omega⟩
    · exact Or.inr (queued_of_mem hs hmem hn)
  have hend := along_noticed halong hrun hnoticed
  constructor
  · have hpos := hend.pos
    omega
  · exact hend.2.imp And.left Queued.mem

/-- No death is forgotten: when the main loop is about to call `poll` and a child
is dead and un-reaped, a SIGCHLD is pending or a `C` is in the pipe.  Once it is
in the pipe, the child is reaped before more iterations end than it takes to
drain what is in the pipe. -/
theorem deaths_wake (hreach : Reach cfg Unobstructed s) (hpc : s.pc = .poll)
    (hzombie : s.kernel.table.isZombie pid = true) :
    (s.kernel.chldPending = true ∨ 'C' ∈ s.kernel.pipe) ∧
    ∀ ls ms t u, (s.kernel.chldPending = true → .deliverChld ∈ ls) →
      Along (step cfg) Unobstructed s (ls ++ ms) →
      exec (step cfg) s ls = some t → exec (step cfg) t ms = some u →
      t.kernel.pipe.length + 64 ≤ 64 * rounds ms →
      ∃ l ∈ ls ++ ms, l.reaps = some pid := by
  obtain ⟨hawake, halert⟩ := reach_unobstructed hreach
  have hknown : s.kernel.chldPending = true ∨ 'C' ∈ s.kernel.pipe := by
    rcases halert pid hzombie with hended | ⟨term, client, hat⟩ | hknown
    · rw [hpc] at hended
      cases hended
    · cases hpc.symm.trans hat
    · exact hknown
  refine ⟨hknown, fun ls ms t u hdelivers halong hls hms hlong => ?_⟩
  by_contra hnever
  have hkept : ∀ l ∈ ls ++ ms, l.reaps ≠ some pid :=
    fun l hl hreaps => hnever ⟨l, hl, hreaps⟩
  obtain ⟨hbefore, hafter⟩ := (along_append_iff hls).mp
    (halong.and (.of_labels hkept s))
  have hunread : Reaping t ∨ 'C' ∈ t.kernel.pipe := by
    by_cases hpending : s.kernel.chldPending = true
    · obtain ⟨ls, ls', rfl⟩ := List.append_of_mem (hdelivers hpending)
      obtain ⟨v, hv, hrest⟩ := exec_append_eq_some_iff.mp hls
      obtain ⟨w, hw, hrest⟩ := exec_cons_eq_some_iff.mp hrest
      obtain ⟨hfirst, hlegal, hthen⟩ := (along_append_iff hv).mp hbefore
      have hmem : 'C' ∈ w.kernel.pipe := by
        rw [step_pipe hlegal.1.1 hw]
        exact List.mem_append_right _ (List.mem_singleton_self _)
      have hzombie : v.kernel.table.isZombie pid = true :=
        along_isZombie hfirst hv hzombie
      refine (rounds_lt (step_awake hlegal.1.1 (along_awake hfirst hv hawake) hw)
        (step_isZombie (l := .deliverChld) ⟨nofun, nofun⟩ hzombie hw)
        (Or.inr hmem) (hthen w hw) hrest).2
    · exact (rounds_lt hawake hzombie (Or.inr (hknown.resolve_left hpending))
        hbefore hls).2
  have hfew := (rounds_lt (along_awake hbefore hls hawake)
    (along_isZombie hbefore hls hzombie) hunread hafter hms).1
  exact absurd hlong (Nat.not_le.mpr hfew)

/-- The iteration in which CA 200 is reaped and restarted, and the next one. -/
def reapingRounds : List Label :=
  [.poll .incoming, .drain, .waitpid (some (200, .code 1)) (.works 201),
    .waitpid none (.works 0), .accept false, .startup (.works 100 200),
    .health (.answers .connected 300), .resetCounts] ++ goodRound

/-- CA 200 dies on a booted daemon. -/
theorem deaths_wake_bootUp :
    ∃ s, after (bootUp ++ [.exit 200]) = some s ∧
      s.kernel.table.isZombie 200 = true ∧
      (s.kernel.chldPending = true ∨ 'C' ∈ s.kernel.pipe) ∧
      ∃ l ∈ [.deliverChld] ++ reapingRounds, l.reaps = some 200 := by
  obtain ⟨s, hafter, hpc, hzombie, hlegal, hrun⟩ := exists_after
    (bootUp ++ [.exit 200])
    (P := fun s => s.pc = .poll ∧ s.kernel.table.isZombie 200 = true ∧
      Along (step Config.default) Unobstructed s
        ([.deliverChld] ++ reapingRounds) ∧
      (exec (step Config.default) s [.deliverChld]).any (fun t =>
        (exec (step Config.default) t reapingRounds).any fun _ =>
          t.kernel.pipe.length + 64 ≤ 64 * rounds reapingRounds) = true)
    (by decide)
  obtain ⟨t, ht, hrun⟩ := (Option.any_eq_true _ _).mp hrun
  obtain ⟨u, hu, hlong⟩ := (Option.any_eq_true _ _).mp hrun
  obtain ⟨hknown, hreaped⟩ :=
    deaths_wake (reach_of_after hafter (by decide)) hpc hzombie
  exact ⟨s, hafter, hzombie, hknown, hreaped [.deliverChld] reapingRounds t u
    (fun _ => List.mem_singleton_self _) hlegal ht hu (of_decide_eq_true hlong)⟩

end Teeproxyd
