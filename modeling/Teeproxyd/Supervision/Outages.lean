import Teeproxyd.Support.Streak
import Teeproxyd.Daemon.Health

/-!
# What the health monitor counts

Both counters of the monitor hold a count over the whole history of outcomes,
modulo their thresholds: the refused probes since the last connection, and the
timed-out ones since the last connection or refusal.  So an outage is reported
on time, and no counter overflows.

A timeout clears neither the count of the refused probes nor interrupts it, so
the probes that get the CA restarted need not be consecutive.
-/

namespace Teeproxyd

open Streak

/-! ## The history of a monitor -/

/-- The monitor after these outcomes, oldest first. -/
def HealthMonitor.after (port : UInt16) (failThreshold : UInt32)
    (outcomes : List Connect) : HealthMonitor :=
  outcomes.foldl (fun h o => (h.probe o).1) (.new port failThreshold)

/-- The result of a probe after these outcomes. -/
def HealthMonitor.verdict (port : UInt16) (failThreshold : UInt32)
    (outcomes : List Connect) (o : Connect) : HealthResult :=
  ((HealthMonitor.after port failThreshold outcomes).probe o).2

/-- What an outcome is for the count of refused probes. -/
def Connect.asRefusal : Connect → Effect
  | .connected => .clear
  | .refused => .count
  | .timedOut => .interrupt
  | .otherError => .ignore

/-- What an outcome is for the count of timed-out probes. -/
def Connect.asTimeout : Connect → Effect
  | .connected => .clear
  | .refused => .clear
  | .timedOut => .count
  | .otherError => .ignore

/-- The refused outcomes since the last successful connection. -/
def refusals (outcomes : List Connect) : ℕ :=
  countSince Connect.asRefusal outcomes

/-- The timeouts since the last successful connection or refusal. -/
def timeouts (outcomes : List Connect) : ℕ :=
  countSince Connect.asTimeout outcomes

/-- `max(1, fail_threshold)`: the threshold 0 acts like 1. -/
def effectiveThreshold (failThreshold : UInt32) : ℕ := max 1 failThreshold.toNat

theorem effectiveThreshold_pos (n : UInt32) : 0 < effectiveThreshold n :=
  Nat.lt_of_lt_of_le Nat.one_pos (Nat.le_max_left _ _)

theorem effectiveThreshold_lt (n : UInt32) : effectiveThreshold n < 2 ^ 32 :=
  Nat.max_lt.mpr ⟨by decide, n.toNat_lt⟩

/-! ## The counters -/

/-- The counters of the monitor are the counts over the history, modulo the
thresholds. -/
structure HealthMonitor.Counting (n : UInt32) (outcomes : List Connect)
    (h : HealthMonitor) : Prop where
  failThreshold : h.failThreshold = n
  timeoutThreshold : h.timeoutThreshold = 10
  failures : h.consecutiveFailures.toNat =
    refusals outcomes % effectiveThreshold n
  timeouts : h.consecutiveTimeouts.toNat = timeouts outcomes % 10

namespace HealthMonitor

variable {n : UInt32} {outcomes : List Connect} {h : HealthMonitor}

theorem Counting.failures_succ (hh : Counting n outcomes h) :
    h.consecutiveFailures.toNat + 1 < 2 ^ 32 ∧
      (h.consecutiveFailures + 1).toNat =
        refusals outcomes % effectiveThreshold n + 1 := by
  have hlt := effectiveThreshold_lt n
  have hround := Nat.mod_lt (refusals outcomes) (effectiveThreshold_pos n)
  have hfits : h.consecutiveFailures.toNat + 1 < 2 ^ 32 := by
    rw [hh.failures]
    omega
  refine ⟨hfits, ?_⟩
  rw [UInt32.toNat_add, ← hh.failures]
  exact Nat.mod_eq_of_lt hfits

theorem Counting.timeouts_succ (hh : Counting n outcomes h) :
    h.consecutiveTimeouts.toNat + 1 < 2 ^ 32 ∧
      (h.consecutiveTimeouts + 1).toNat = Teeproxyd.timeouts outcomes % 10 + 1 := by
  have hround := Nat.mod_lt (Teeproxyd.timeouts outcomes) (by decide : 0 < 10)
  have hfits : h.consecutiveTimeouts.toNat + 1 < 2 ^ 32 := by
    rw [hh.timeouts]
    omega
  refine ⟨hfits, ?_⟩
  rw [UInt32.toNat_add, ← hh.timeouts]
  exact Nat.mod_eq_of_lt hfits

theorem Counting.refused_iff (hh : Counting n outcomes h) :
    h.consecutiveFailures + 1 ≥ h.failThreshold ↔
      effectiveThreshold n ∣ refusals (outcomes ++ [.refused]) := by
  have hround := Nat.mod_lt (refusals outcomes) (effectiveThreshold_pos n)
  have hcount : refusals (outcomes ++ [.refused]) = refusals outcomes + 1 :=
    countSince_count rfl
  rw [hcount, dvd_add_one_iff (effectiveThreshold_pos n), ge_iff_le,
    UInt32.le_iff_toNat_le, hh.failures_succ.2, hh.failThreshold]
  unfold effectiveThreshold at hround ⊢
  omega

theorem Counting.timedOut_iff (hh : Counting n outcomes h) :
    h.consecutiveTimeouts + 1 ≥ h.timeoutThreshold ↔
      10 ∣ Teeproxyd.timeouts (outcomes ++ [.timedOut]) := by
  have hround := Nat.mod_lt (Teeproxyd.timeouts outcomes) (by decide : 0 < 10)
  have hcount : Teeproxyd.timeouts (outcomes ++ [.timedOut]) =
      Teeproxyd.timeouts outcomes + 1 := countSince_count rfl
  have hten : (10 : UInt32).toNat = 10 := rfl
  rw [hcount, dvd_add_one_iff (by decide), ge_iff_le, UInt32.le_iff_toNat_le,
    hh.timeouts_succ.2, hh.timeoutThreshold, hten]
  omega

theorem Counting.probe (hh : Counting n outcomes h) (o : Connect) :
    Counting n (outcomes ++ [o]) (h.probe o).1 := by
  cases o with
  | connected =>
      refine ⟨hh.failThreshold, hh.timeoutThreshold, ?_, ?_⟩
      · rw [refusals, countSince_clear rfl, Nat.zero_mod]
        rfl
      · rw [Teeproxyd.timeouts, countSince_clear rfl]
        rfl
  | refused =>
      have hcleared : (0 : UInt32).toNat =
          Teeproxyd.timeouts (outcomes ++ [.refused]) % 10 := by
        rw [Teeproxyd.timeouts, countSince_clear rfl]
        rfl
      have hcount : refusals (outcomes ++ [.refused]) = refusals outcomes + 1 :=
        countSince_count rfl
      unfold HealthMonitor.probe
      dsimp only
      split
      next hfull =>
        refine ⟨hh.failThreshold, hh.timeoutThreshold, ?_, hcleared⟩
        have hdvd := hh.refused_iff.mp hfull
        rw [Nat.mod_eq_zero_of_dvd hdvd]
        rfl
      next hfull =>
        refine ⟨hh.failThreshold, hh.timeoutThreshold, ?_, hcleared⟩
        have hround := mt hh.refused_iff.mpr hfull
        rw [hcount, dvd_add_one_iff (effectiveThreshold_pos n)] at hround
        rw [hcount, add_one_mod (effectiveThreshold_pos n), if_neg hround]
        exact hh.failures_succ.2
  | timedOut =>
      have hkept : refusals (outcomes ++ [.timedOut]) = refusals outcomes :=
        countSince_other (by decide) (by decide)
      have hcount : Teeproxyd.timeouts (outcomes ++ [.timedOut]) =
          Teeproxyd.timeouts outcomes + 1 := countSince_count rfl
      unfold HealthMonitor.probe
      dsimp only
      split
      next hfull =>
        refine ⟨hh.failThreshold, hh.timeoutThreshold, ?_, ?_⟩
        · rw [hkept]
          exact hh.failures
        · rw [Nat.mod_eq_zero_of_dvd (hh.timedOut_iff.mp hfull)]
          rfl
      next hfull =>
        refine ⟨hh.failThreshold, hh.timeoutThreshold, ?_, ?_⟩
        · rw [hkept]
          exact hh.failures
        · have hround := mt hh.timedOut_iff.mpr hfull
          rw [hcount, dvd_add_one_iff (by decide)] at hround
          rw [hcount, add_one_mod (by decide), if_neg hround]
          exact hh.timeouts_succ.2
  | otherError =>
      refine ⟨hh.failThreshold, hh.timeoutThreshold, ?_, ?_⟩
      · rw [refusals, countSince_other (by decide) (by decide)]
        exact hh.failures
      · rw [Teeproxyd.timeouts, countSince_other (by decide) (by decide)]
        exact hh.timeouts

theorem counting_after (port : UInt16) (n : UInt32) (outcomes : List Connect) :
    Counting n outcomes (after port n outcomes) := by
  induction outcomes using List.reverseRecOn with
  | nil => exact ⟨rfl, rfl, (Nat.zero_mod _).symm, rfl⟩
  | append_singleton outcomes o ih =>
      rw [after, List.foldl_append]
      exact ih.probe o

end HealthMonitor

/-! ## Every outage is detected on time -/

/-- After any history of outcomes, a probe that is refused asks for a restart
when the refused ones since the last connection are a multiple of the threshold
and else reports how far they are beyond one, a probe that times out asks for a
restart at every tenth timeout since the last connection or refusal, and the
other outcomes are fine; the counters stay below their thresholds, and counting
this probe, too, overflows neither. -/
theorem outage_detected (port : UInt16) (failThreshold : UInt32)
    (outcomes : List Connect) :
    let F := effectiveThreshold failThreshold
    let h := HealthMonitor.after port failThreshold outcomes
    (h.probe .refused).2 =
        (if F ∣ refusals (outcomes ++ [.refused]) then .restartNeeded
        else .degraded
          (UInt32.ofNat (refusals (outcomes ++ [.refused]) % F))) ∧
      (h.probe .timedOut).2 =
        (if 10 ∣ timeouts (outcomes ++ [.timedOut]) then .restartNeeded
        else .ok) ∧
      (h.probe .connected).2 = .ok ∧
      (h.probe .otherError).2 = .ok ∧
      (∀ o, (h.probe o).1.consecutiveFailures.toNat < F ∧
        (h.probe o).1.consecutiveTimeouts.toNat < 10) ∧
      h.consecutiveFailures.toNat + 1 < 2 ^ 32 ∧
      h.consecutiveTimeouts.toNat + 1 < 2 ^ 32 := by
  intro F h
  have hh := HealthMonitor.counting_after port failThreshold outcomes
  refine ⟨?_, ?_, rfl, rfl, fun o => ?_, hh.failures_succ.1,
    hh.timeouts_succ.1⟩
  · by_cases hfull : F ∣ refusals (outcomes ++ [.refused])
    · rw [if_pos hfull]
      unfold HealthMonitor.probe
      dsimp only
      rw [if_pos (hh.refused_iff.mpr hfull)]
    · have hcount : (h.consecutiveFailures + 1).toNat =
          refusals (outcomes ++ [.refused]) % F := by
        have hone : refusals (outcomes ++ [.refused]) = refusals outcomes + 1 :=
          countSince_count rfl
        rw [hone, dvd_add_one_iff (effectiveThreshold_pos _)] at hfull
        rw [hone, add_one_mod (effectiveThreshold_pos _), if_neg hfull]
        exact hh.failures_succ.2
      rw [if_neg hfull]
      unfold HealthMonitor.probe
      dsimp only
      rw [if_neg (mt hh.refused_iff.mp hfull), ← hcount, UInt32.ofNat_toNat]
  · unfold HealthMonitor.probe
    dsimp only
    by_cases hfull : 10 ∣ timeouts (outcomes ++ [.timedOut])
    · rw [if_pos hfull, if_pos (hh.timedOut_iff.mpr hfull)]
    · rw [if_neg hfull, if_neg (mt hh.timedOut_iff.mp hfull)]
  · have hnext := hh.probe o
    rw [hnext.failures, hnext.timeouts]
    exact ⟨Nat.mod_lt _ (effectiveThreshold_pos _), Nat.mod_lt _ (by decide)⟩

/-! ## Which restarts rest on consecutive failures -/

/-- The outcomes that the monitor does not leave out. -/
def counted (outcomes : List Connect) : List Connect :=
  outcomes.filter fun o => o ≠ .otherError

/-- The last `max(1, fail_threshold)` outcomes were refused, or the last ten
timed out. -/
def Justified (failThreshold : UInt32) (outcomes : List Connect) : Prop :=
  List.replicate (effectiveThreshold failThreshold) .refused <:+
      counted outcomes ∨
    List.replicate 10 .timedOut <:+ counted outcomes

instance (n : UInt32) (outcomes : List Connect) :
    Decidable (Justified n outcomes) :=
  inferInstanceAs (Decidable (_ ∨ _))

/-- The refused outcomes before the next successful connection. -/
def refusalsAhead (outcomes : List Connect) : ℕ :=
  countUntil Connect.asRefusal outcomes

section Justification

variable {port : UInt16} {n : UInt32} {outcomes : List Connect} {o : Connect}

/-- If only the other errors are ignored, a streak is the end of what is
counted. -/
theorem le_streak_counted_iff {effect : Connect → Effect} {k : ℕ}
    (hignores : ∀ o, effect o = .ignore ↔ o = .otherError)
    (hcounts : ∀ o', effect o' = .count ↔ o' = o) :
    k ≤ streak effect outcomes ↔ List.replicate k o <:+ counted outcomes := by
  have hkept : counted outcomes =
      outcomes.filter fun o => effect o ≠ .ignore := by
    apply List.filter_congr
    intro o _
    simp [hignores]
  rw [hkept]
  exact le_streak_iff hcounts

theorem le_streak_asRefusal_iff {k : ℕ} :
    k ≤ streak Connect.asRefusal outcomes ↔
      List.replicate k .refused <:+ counted outcomes := by
  apply le_streak_counted_iff
  · intro o
    cases o <;> simp [Connect.asRefusal]
  · intro o
    cases o <;> simp [Connect.asRefusal]

theorem le_streak_asTimeout_iff {k : ℕ} :
    k ≤ streak Connect.asTimeout outcomes ↔
      List.replicate k .timedOut <:+ counted outcomes := by
  apply le_streak_counted_iff
  · intro o
    cases o <;> simp [Connect.asTimeout]
  · intro o
    cases o <;> simp [Connect.asTimeout]

theorem verdict_restartNeeded_iff :
    HealthMonitor.verdict port n outcomes o = .restartNeeded ↔
      (o = .refused ∧
        effectiveThreshold n ∣ refusals (outcomes ++ [.refused])) ∨
      (o = .timedOut ∧ 10 ∣ timeouts (outcomes ++ [.timedOut])) := by
  obtain ⟨hrefused, htimedOut, hconnected, hother, -⟩ :=
    outage_detected port n outcomes
  unfold HealthMonitor.verdict
  cases o with
  | connected => simp [hconnected]
  | otherError => simp [hother]
  | refused =>
      rw [hrefused]
      split <;> simp_all
  | timedOut =>
      rw [htimedOut]
      split <;> simp_all

/-- A restart verdict on a refused probe is justified by refused ones. -/
theorem justified_refused_iff :
    Justified n (outcomes ++ [.refused]) ↔
      effectiveThreshold n ≤
        streak Connect.asRefusal (outcomes ++ [.refused]) := by
  rw [le_streak_asRefusal_iff]
  constructor
  · intro h
    apply h.resolve_right
    intro hten
    have hstreak := le_streak_asTimeout_iff.mpr hten
    rw [streak_end (by decide) (by decide)] at hstreak
    omega
  · exact Or.inl

/-- The count of the timeouts is never interrupted. -/
theorem justified_timedOut (hfull : 10 ∣ timeouts (outcomes ++ [.timedOut])) :
    Justified n (outcomes ++ [.timedOut]) := by
  have hnot : ¬ Interrupted Connect.asTimeout 10 (outcomes ++ [.timedOut]) := by
    rintro ⟨b, a, c, -, ha, -⟩
    cases a <;> cases ha
  right
  rw [← le_streak_asTimeout_iff]
  exact (streak_iff_not_interrupted _ _ (by decide)).mpr hnot outcomes
    .timedOut [] rfl rfl hfull

end Justification

/-- Every restart verdict in a sequence of outcomes rests on consecutive
failures exactly if no probe times out in the middle of refused probes that the
monitor counts together: at a timeout, either the refused probes since the last
connection are a multiple of the threshold, or not enough of them follow before
the next connection to reach it. -/
theorem restart_justified_iff (port : UInt16) (failThreshold : UInt32)
    (outcomes : List Connect) :
    (∀ earlier o later, outcomes = earlier ++ o :: later →
      HealthMonitor.verdict port failThreshold earlier o = .restartNeeded →
      Justified failThreshold (earlier ++ [o])) ↔
    ∀ earlier later, outcomes = earlier ++ .timedOut :: later →
      effectiveThreshold failThreshold ∣ refusals earlier ∨
        refusals earlier % effectiveThreshold failThreshold +
          refusalsAhead later < effectiveThreshold failThreshold := by
  have hrounds := streak_iff_not_interrupted Connect.asRefusal outcomes
    (effectiveThreshold_pos failThreshold)
  constructor
  · intro hjustified earlier later hsplit
    have hnot := hrounds.mp fun b a c hsplit ha hfull => by
      obtain rfl : a = .refused := by
        cases a <;> cases ha
        rfl
      rw [← justified_refused_iff]
      exact hjustified b _ c hsplit
        (verdict_restartNeeded_iff.mpr (Or.inl ⟨rfl, hfull⟩))
    by_contra hcondition
    rw [not_or, not_lt, Nat.dvd_iff_mod_eq_zero] at hcondition
    exact hnot
      ⟨earlier, .timedOut, later, hsplit, rfl, hcondition.1, hcondition.2⟩
  · intro hcondition earlier o later hsplit hverdict
    rcases verdict_restartNeeded_iff.mp hverdict with
      ⟨rfl, hfull⟩ | ⟨rfl, hfull⟩
    · rw [justified_refused_iff]
      refine hrounds.mpr ?_ earlier .refused later hsplit rfl hfull
      rintro ⟨b, a, c, hsplit, ha, hopen, hreaches⟩
      obtain rfl : a = .timedOut := by
        cases a <;> cases ha
        rfl
      rcases hcondition b c hsplit with hround | hround
      · exact hopen (Nat.mod_eq_zero_of_dvd hround)
      · exact Nat.not_lt.mpr hreaches hround
    · exact justified_timedOut hfull

/-- Three refused probes, each followed by a timeout, get the CA restarted. -/
theorem restart_unjustified :
    HealthMonitor.verdict 19030 3 [.refused, .timedOut, .refused, .timedOut]
        .refused = .restartNeeded ∧
      ¬ Justified 3
        [.refused, .timedOut, .refused, .timedOut, .refused] := by
  decide

end Teeproxyd
