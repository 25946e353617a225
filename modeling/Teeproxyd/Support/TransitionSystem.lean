import Mathlib.Algebra.GroupWithZero.Nat
import Mathlib.Logic.Relation
import Mathlib.Data.Nat.Find
import Mathlib.Data.Nat.Init
import Mathlib.Data.Int.Notation
import Mathlib.Tactic.Choose

/-!
# Partial transition systems

A system is a partial step function: `step s l = none` says that label `l`
cannot be taken in state `s`.  This file provides finite runs, paths whose
steps all meet a guard, the invariant rules for both, and infinite executions
with the progress rule used for liveness arguments.

Guards may look at the state a step is taken from, so that "every step of the
run meets the condition" is a statement about the run and not about its labels
alone.
-/

namespace TransitionSystem

variable {State Label : Type*}

/-! ## Finite runs -/

/-- Take the labels of a list one after the other. -/
def exec (step : State → Label → Option State) :
    State → List Label → Option State
  | s, [] => some s
  | s, l :: ls => (step s l).bind fun t => exec step t ls

variable {step : State → Label → Option State}

@[simp] theorem exec_nil (s : State) : exec step s [] = some s := rfl

@[simp] theorem exec_singleton (s : State) (l : Label) :
    exec step s [l] = step s l := by
  simp [exec]

theorem exec_cons_eq_some_iff {s t : State} {l : Label} {ls : List Label} :
    exec step s (l :: ls) = some t ↔
      ∃ u, step s l = some u ∧ exec step u ls = some t := by
  simp [exec, Option.bind_eq_some_iff]

theorem exec_append_eq_some_iff {s t : State} {ls ms : List Label} :
    exec step s (ls ++ ms) = some t ↔
      ∃ u, exec step s ls = some u ∧ exec step u ms = some t := by
  induction ls generalizing s with
  | nil => simp
  | cons l ls ih =>
      rw [List.cons_append]
      simp only [exec_cons_eq_some_iff, ih]
      constructor
      · rintro ⟨u, hstep, v, hls, hms⟩
        exact ⟨v, ⟨u, hstep, hls⟩, hms⟩
      · rintro ⟨v, ⟨u, hstep, hls⟩, hms⟩
        exact ⟨u, hstep, v, hls, hms⟩

/-- The renaming rule: if a renaming of the states takes every step of one
system to a step of another, it takes the runs to runs. -/
theorem exec_map {State' : Type*} {step' : State' → Label → Option State'}
    (f : State → State') (hf : ∀ s l, step' (f s) l = (step s l).map f)
    (s : State) (ls : List Label) :
    exec step' (f s) ls = (exec step s ls).map f := by
  induction ls generalizing s with
  | nil => rfl
  | cons l ls ih =>
      simp only [exec, hf]
      cases hstep : step s l with
      | none => rfl
      | some t => exact ih t

/-- The states a finite run passes through. -/
theorem exists_states_of_exec {s t : State} {ls : List Label}
    (hrun : exec step s ls = some t) :
    ∃ state : ℕ → State, state 0 = s ∧ state ls.length = t ∧
      ∀ i (hi : i < ls.length),
        step (state i) (ls.get ⟨i, hi⟩) = some (state (i + 1)) := by
  induction ls generalizing s with
  | nil =>
      refine ⟨fun _ => s, rfl, Option.some.inj hrun, ?_⟩
      intro i hi
      cases hi
  | cons l ls ih =>
      obtain ⟨u, hstep, htail⟩ := exec_cons_eq_some_iff.mp hrun
      obtain ⟨state, rfl, hend, hsteps⟩ := ih htail
      let states : ℕ → State := fun i => Nat.casesOn i s state
      refine ⟨states, rfl, hend, ?_⟩
      intro i hi
      cases i with
      | zero => exact hstep
      | succ i => exact hsteps i (Nat.lt_of_succ_lt_succ hi)

/-- Every step of the run from `s` along the list meets `guard`. -/
def Along (step : State → Label → Option State)
    (guard : State → Label → Prop) : State → List Label → Prop
  | _, [] => True
  | s, l :: ls => guard s l ∧ ∀ t, step s l = some t → Along step guard t ls

instance decidableAlong {guard : State → Label → Prop}
    [∀ s l, Decidable (guard s l)] :
    (s : State) → (ls : List Label) → Decidable (Along step guard s ls)
  | _, [] => isTrue trivial
  | s, l :: ls =>
      match hstep : step s l with
      | none => decidable_of_iff (guard s l) (by simp [Along, hstep])
      | some t =>
          have : Decidable (Along step guard t ls) := decidableAlong t ls
          decidable_of_iff (guard s l ∧ Along step guard t ls)
            (by simp [Along, hstep])

/-- Every state of the run from `s` along the list satisfies `P`, the first
and the last one included. -/
def Throughout (step : State → Label → Option State)
    (P : State → Prop) : State → List Label → Prop
  | s, [] => P s
  | s, l :: ls => P s ∧ ∀ t, step s l = some t → Throughout step P t ls

theorem Throughout.head {P : State → Prop} {s : State} {ls : List Label}
    (h : Throughout step P s ls) : P s := by
  cases ls with
  | nil => exact h
  | cons l ls => exact h.1

theorem Along.mono {G H : State → Label → Prop} (hGH : ∀ s l, G s l → H s l)
    {s : State} {ls : List Label} (h : Along step G s ls) :
    Along step H s ls := by
  induction ls generalizing s with
  | nil => trivial
  | cons l ls ih => exact ⟨hGH s l h.1, fun t ht => ih (h.2 t ht)⟩

/-- What guarded steps preserve may be used of each state that they are taken
from. -/
theorem Along.of_invariant {G H : State → Label → Prop} {I : State → Prop}
    (hI : ∀ s l t, G s l → I s → step s l = some t → I t)
    (hH : ∀ s l, G s l → I s → H s l) {s : State} {ls : List Label} (hs : I s)
    (h : Along step G s ls) : Along step H s ls := by
  induction ls generalizing s with
  | nil => trivial
  | cons l ls ih =>
      constructor
      · exact hH s l h.1 hs
      · intro t ht
        exact ih (hI s l t h.1 hs ht) (h.2 t ht)

theorem Along.of_forall {G : State → Label → Prop} (hG : ∀ s l, G s l)
    (s : State) (ls : List Label) : Along step G s ls := by
  induction ls generalizing s with
  | nil => trivial
  | cons l ls ih => exact ⟨hG s l, fun t _ => ih t⟩

theorem Along.of_labels {G : Label → Prop} {ls : List Label}
    (hG : ∀ l ∈ ls, G l) (s : State) : Along step (fun _ l => G l) s ls := by
  induction ls generalizing s with
  | nil => trivial
  | cons l ls ih =>
      refine ⟨hG l List.mem_cons_self, fun t _ => ih (fun m hm => ?_) t⟩
      exact hG m (List.mem_cons_of_mem l hm)

theorem Along.and {G H : State → Label → Prop} {s : State} {ls : List Label}
    (hG : Along step G s ls) (hH : Along step H s ls) :
    Along step (fun s l => G s l ∧ H s l) s ls := by
  induction ls generalizing s with
  | nil => trivial
  | cons l ls ih =>
      exact ⟨⟨hG.1, hH.1⟩, fun t ht => ih (hG.2 t ht) (hH.2 t ht)⟩

theorem along_append_iff {G : State → Label → Prop} {s t : State}
    {ls ms : List Label} (hrun : exec step s ls = some t) :
    Along step G s (ls ++ ms) ↔ Along step G s ls ∧ Along step G t ms := by
  induction ls generalizing s with
  | nil =>
      obtain rfl : s = t := Option.some.inj hrun
      exact ⟨fun h => ⟨trivial, h⟩, And.right⟩
  | cons l ls ih =>
      obtain ⟨u, hstep, htail⟩ := exec_cons_eq_some_iff.mp hrun
      have hsame : ∀ v, step s l = some v → v = u := by
        intro v hv
        exact Option.some.inj (hv.symm.trans hstep)
      constructor
      · rintro ⟨hl, hrest⟩
        have hu := (ih htail).mp (hrest u hstep)
        refine ⟨⟨hl, fun v hv => ?_⟩, hu.2⟩
        rw [hsame v hv]
        exact hu.1
      · rintro ⟨⟨hl, hrest⟩, hms⟩
        refine ⟨hl, fun v hv => ?_⟩
        rw [hsame v hv]
        exact (ih htail).mpr ⟨hrest u hstep, hms⟩

/-- The countdown rule: if every guarded step takes what it costs from a number
that `I` speaks of, then a run takes the cost of all its steps from it. -/
theorem Along.countdown {G : State → Label → Prop} {I : ℕ → State → Prop}
    {cost : Label → ℕ}
    (hI : ∀ n s l t, G s l → I n s → step s l = some t → I (n - cost l) t)
    {n : ℕ} {s t : State} {ls : List Label} (halong : Along step G s ls)
    (hrun : exec step s ls = some t) (hs : I n s) :
    I (n - (ls.map cost).sum) t := by
  induction ls generalizing n s with
  | nil =>
      obtain rfl : s = t := Option.some.inj hrun
      exact hs
  | cons l ls ih =>
      obtain ⟨u, hstep, htail⟩ := exec_cons_eq_some_iff.mp hrun
      rw [List.map_cons, List.sum_cons, Nat.sub_add_eq]
      exact ih (halong.2 u hstep) htail (hI n s l u halong.1 hs hstep)

/-- What the steps of the run from `s` along the list cost together, each in the
state it is taken from. -/
def totalCost (step : State → Label → Option State)
    (cost : State → Label → ℕ) : State → List Label → ℕ
  | _, [] => 0
  | s, l :: ls =>
      cost s l + (step s l).elim 0 fun t => totalCost step cost t ls

theorem totalCost_append {cost : State → Label → ℕ} {s t : State}
    {ls ms : List Label} (hrun : exec step s ls = some t) :
    totalCost step cost s (ls ++ ms) =
      totalCost step cost s ls + totalCost step cost t ms := by
  induction ls generalizing s with
  | nil =>
      obtain rfl : s = t := Option.some.inj hrun
      simp [totalCost]
  | cons l ls ih =>
      obtain ⟨u, hstep, htail⟩ := exec_cons_eq_some_iff.mp hrun
      simp only [List.cons_append, totalCost, hstep, Option.elim_some]
      rw [ih htail, Nat.add_assoc]

/-- The potential rule: if every guarded step pays its cost out of a potential,
then so does a run. -/
theorem Along.totalCost_le {G : State → Label → Prop} {φ : State → ℕ}
    {cost : State → Label → ℕ}
    (hφ : ∀ s l t, G s l → step s l = some t → φ t + cost s l ≤ φ s)
    {s t : State} {ls : List Label} (halong : Along step G s ls)
    (hrun : exec step s ls = some t) :
    φ t + totalCost step cost s ls ≤ φ s := by
  induction ls generalizing s with
  | nil =>
      obtain rfl : s = t := Option.some.inj hrun
      exact Nat.le_refl _
  | cons l ls ih =>
      obtain ⟨u, hstep, htail⟩ := exec_cons_eq_some_iff.mp hrun
      have hrest := ih (halong.2 u hstep) htail
      have hfirst := hφ s l u halong.1 hstep
      simp only [totalCost, hstep, Option.elim_some]
      omega

/-- The balance rule: if every guarded step pays its cost out of its gain and a
potential, which may be negative, then so does a run. -/
theorem Along.balance {G : State → Label → Prop}
    {cost gain : State → Label → ℕ} (φ : State → ℤ)
    (hφ : ∀ s l t, G s l → step s l = some t →
      φ t + cost s l ≤ φ s + gain s l)
    {s t : State} {ls : List Label} (halong : Along step G s ls)
    (hrun : exec step s ls = some t) :
    φ t + totalCost step cost s ls ≤ φ s + totalCost step gain s ls := by
  induction ls generalizing s with
  | nil =>
      obtain rfl : s = t := Option.some.inj hrun
      simp [totalCost]
  | cons l ls ih =>
      obtain ⟨u, hstep, htail⟩ := exec_cons_eq_some_iff.mp hrun
      have hrest := ih (halong.2 u hstep) htail
      have hfirst := hφ s l u halong.1 hstep
      simp only [totalCost, hstep, Option.elim_some]
      omega

theorem totalCost_add (cost cost' : State → Label → ℕ) (s : State)
    (ls : List Label) :
    totalCost step (fun s l => cost s l + cost' s l) s ls =
      totalCost step cost s ls + totalCost step cost' s ls := by
  induction ls generalizing s with
  | nil => rfl
  | cons l ls ih =>
      cases hstep : step s l with
      | none => simp [totalCost, hstep]
      | some t =>
          have hrest := ih t
          simp only [totalCost, hstep, Option.elim_some, hrest]
          omega

theorem totalCost_mul (n : ℕ) (cost : State → Label → ℕ) (s : State)
    (ls : List Label) :
    totalCost step (fun s l => n * cost s l) s ls =
      n * totalCost step cost s ls := by
  induction ls generalizing s with
  | nil => rfl
  | cons l ls ih =>
      cases hstep : step s l with
      | none => simp [totalCost, hstep]
      | some t =>
          simp only [totalCost, hstep, Option.elim_some, ih t]
          rw [Nat.mul_add]

/-- What depends on the labels alone is counted in the list. -/
theorem totalCost_label (p : Label → Bool) {s t : State} {ls : List Label}
    (hrun : exec step s ls = some t) :
    totalCost step (fun _ l => (p l).toNat) s ls = ls.countP p := by
  induction ls generalizing s with
  | nil => rfl
  | cons l ls ih =>
      obtain ⟨u, hstep, htail⟩ := exec_cons_eq_some_iff.mp hrun
      rw [List.countP_cons, ← ih htail]
      simp only [totalCost, hstep, Option.elim_some]
      cases p l <;> simp [Nat.add_comm]

@[simp] theorem totalCost_zero (s : State) (ls : List Label) :
    totalCost step (fun _ _ => 0) s ls = 0 := by
  induction ls generalizing s with
  | nil => rfl
  | cons l ls ih => cases hstep : step s l <;> simp [totalCost, hstep, ih]

/-- The accounting rule: what every guarded step raises by its cost at most, a
run raises by its total cost at most. -/
theorem Along.le_add_totalCost {G : State → Label → Prop}
    {cost : State → Label → ℕ} (μ : State → ℕ)
    (hμ : ∀ s l t, G s l → step s l = some t → μ t ≤ μ s + cost s l)
    {s t : State} {ls : List Label} (halong : Along step G s ls)
    (hrun : exec step s ls = some t) :
    μ t ≤ μ s + totalCost step cost s ls := by
  have hbalance : (μ t : ℤ) + totalCost step (fun _ _ => 0) s ls ≤
      μ s + totalCost step cost s ls := by
    refine halong.balance (fun s => (μ s : ℤ)) ?_ hrun
    intro s l t hl hstep
    have hrise := hμ s l t hl hstep
    omega
  rw [totalCost_zero] at hbalance
  omega

/-- The progress rule for a clock: what every guarded step raises by its cost at
least, a run raises by its total cost at least. -/
theorem Along.add_totalCost_le {G : State → Label → Prop}
    {cost : State → Label → ℕ} (μ : State → ℕ)
    (hμ : ∀ s l t, G s l → step s l = some t → μ s + cost s l ≤ μ t)
    {s t : State} {ls : List Label} (halong : Along step G s ls)
    (hrun : exec step s ls = some t) :
    μ s + totalCost step cost s ls ≤ μ t := by
  have hbalance : -(μ t : ℤ) + totalCost step cost s ls ≤
      -(μ s : ℤ) + totalCost step (fun _ _ => 0) s ls := by
    refine halong.balance (fun s => -(μ s : ℤ)) ?_ hrun
    intro s l t hl hstep
    have hrise := hμ s l t hl hstep
    omega
  rw [totalCost_zero] at hbalance
  omega

/-- The exact-condition rule, for runs that meet an assumption: if, from a
state satisfying `P`, a step reaches a state satisfying `P` exactly when it
meets the guard, then a run satisfies `P` throughout exactly when all of its
steps meet the guard. -/
theorem throughout_iff_along {I P : State → Prop}
    {A G : State → Label → Prop}
    (hI : ∀ s l t, A s l → I s → step s l = some t → I t)
    (hiff : ∀ s l t, A s l → I s → P s → step s l = some t → (P t ↔ G s l))
    {s t : State} {ls : List Label} (hs : I s) (hP : P s)
    (hassumed : Along step A s ls) (hrun : exec step s ls = some t) :
    Throughout step P s ls ↔ Along step G s ls := by
  induction ls generalizing s with
  | nil => exact ⟨fun _ => trivial, fun _ => hP⟩
  | cons l ls ih =>
      obtain ⟨u, hstep, htail⟩ := exec_cons_eq_some_iff.mp hrun
      obtain ⟨hl, hrest⟩ := hassumed
      have hu : I u := hI s l u hl hs hstep
      have hsame : ∀ v, step s l = some v → v = u := by
        intro v hv
        exact Option.some.inj (hv.symm.trans hstep)
      constructor
      · intro h
        have hPu : P u := (h.2 u hstep).head
        refine ⟨(hiff s l u hl hs hP hstep).mp hPu, ?_⟩
        intro v hv
        rw [hsame v hv]
        exact (ih hu hPu (hrest u hstep) htail).mp (h.2 u hstep)
      · intro h
        have hPu : P u := (hiff s l u hl hs hP hstep).mpr h.1
        refine ⟨hP, ?_⟩
        intro v hv
        rw [hsame v hv]
        exact (ih hu hPu (hrest u hstep) htail).mpr (h.2 u hstep)

/-! ## Guarded paths -/

/-- One step whose label meets `guard` in the state it is taken from. -/
def StepWithin (step : State → Label → Option State)
    (guard : State → Label → Prop) (s t : State) : Prop :=
  ∃ l, guard s l ∧ step s l = some t

/-- Some sequence of steps, all of which meet `guard`, leads from the first
state to the second. -/
abbrev Path (step : State → Label → Option State)
    (guard : State → Label → Prop) : State → State → Prop :=
  Relation.ReflTransGen (StepWithin step guard)

variable {guard : State → Label → Prop}

theorem Path.one {s t : State} {l : Label} (hguard : guard s l)
    (hstep : step s l = some t) : Path step guard s t :=
  Relation.ReflTransGen.single ⟨l, hguard, hstep⟩

theorem Path.mono {G H : State → Label → Prop} (hGH : ∀ s l, G s l → H s l)
    {s t : State} (h : Path step G s t) : Path step H s t := by
  refine Relation.ReflTransGen.mono ?_ s t h
  rintro u v ⟨l, hl, hstep⟩
  exact ⟨l, hGH u l hl, hstep⟩

/-- What every guarded step preserves holds at the end of a guarded path. -/
theorem Path.preserves {I : State → Prop}
    (hI : ∀ s l t, guard s l → I s → step s l = some t → I t)
    {s t : State} (h : Path step guard s t) (hs : I s) : I t := by
  induction h with
  | refl => exact hs
  | tail _ hstep ih =>
      obtain ⟨l, hl, hst⟩ := hstep
      exact hI _ l _ hl ih hst

/-- What every guarded step preserves holds before every step of a guarded
path. -/
theorem Path.within {I : State → Prop}
    (hI : ∀ s l t, guard s l → I s → step s l = some t → I t)
    {s t : State} (h : Path step guard s t) (hs : I s) :
    Path step (fun s l => guard s l ∧ I s) s t := by
  induction h with
  | refl => exact .refl
  | tail hpath hstep ih =>
      obtain ⟨l, hl, hst⟩ := hstep
      exact ih.tail ⟨l, ⟨hl, Path.preserves hI hpath hs⟩, hst⟩

theorem path_of_exec {s t : State} {ls : List Label}
    (hrun : exec step s ls = some t) (halong : Along step guard s ls) :
    Path step guard s t := by
  induction ls generalizing s with
  | nil =>
      obtain rfl : s = t := Option.some.inj hrun
      exact .refl
  | cons l ls ih =>
      obtain ⟨u, hstep, htail⟩ := exec_cons_eq_some_iff.mp hrun
      exact .head ⟨l, halong.1, hstep⟩ (ih htail (halong.2 u hstep))

/-- The states some run reaches, whatever its labels are. -/
abbrev Reachable (step : State → Label → Option State) : State → State → Prop :=
  Path step fun _ _ => True

theorem reachable_of_exec {s t : State} {ls : List Label}
    (hrun : exec step s ls = some t) : Reachable step s t :=
  path_of_exec hrun (Along.of_forall (fun _ _ => trivial) s ls)

theorem Path.reachable {s t : State} (h : Path step guard s t) :
    Reachable step s t :=
  h.mono fun _ _ _ => trivial

/-! ## Runs by index -/

/-- A run of `n` steps: below `n`, every state is reached from the one before it
by the label at its index. -/
structure Run (step : State → Label → Option State) (n : ℕ) where
  state : ℕ → State
  label : ℕ → Label
  step_eq : ∀ i, i < n → step (state i) (label i) = some (state (i + 1))

namespace Run

variable {n : ℕ}

/-- The invariant rule for runs by index: the invariant may speak of the steps
before the index. -/
theorem invariant (run : Run step n) {I : ℕ → State → Prop}
    (h0 : I 0 (run.state 0))
    (hI : ∀ i, i < n → I i (run.state i) → I (i + 1) (run.state (i + 1))) :
    ∀ i, i ≤ n → I i (run.state i) := by
  intro i
  induction i with
  | zero => exact fun _ => h0
  | succ i ih => exact fun hi => hI i hi (ih (Nat.le_of_succ_le hi))

/-- The run of a list of labels. -/
theorem exists_of_exec [Inhabited Label] {s t : State} {ls : List Label}
    (hrun : exec step s ls = some t) :
    ∃ run : Run step ls.length, run.state 0 = s ∧ run.state ls.length = t ∧
      ∀ i, run.label i = ls.getD i default := by
  obtain ⟨state, hfirst, hlast, hsteps⟩ := exists_states_of_exec hrun
  refine ⟨⟨state, fun i => ls.getD i default, fun i hi => ?_⟩, hfirst, hlast,
    fun _ => rfl⟩
  have hlabel : ls.getD i default = ls.get ⟨i, hi⟩ := by simp [hi]
  rw [hlabel]
  exact hsteps i hi

/-- A run that takes the labels of a list takes those of its prefixes. -/
theorem exec_take [Inhabited Label] {ls : List Label}
    (run : Run step ls.length) (hlabel : ∀ i, run.label i = ls.getD i default)
    {i : ℕ} (hi : i ≤ ls.length) :
    exec step (run.state 0) (ls.take i) = some (run.state i) := by
  induction i with
  | zero => rfl
  | succ i ih =>
      have hget : run.label i = ls[i] := by
        rw [hlabel]
        simp [Nat.lt_of_succ_le hi]
      rw [List.take_succ_eq_append_getElem hi, exec_append_eq_some_iff]
      refine ⟨run.state i, ih (Nat.le_of_succ_le hi), ?_⟩
      rw [exec_singleton, ← hget]
      exact run.step_eq i hi

/-- What holds along the list holds of every step of the run. -/
theorem guard_of_along [Inhabited Label] {guard : State → Label → Prop}
    {ls : List Label} (run : Run step ls.length)
    (hlabel : ∀ i, run.label i = ls.getD i default)
    (halong : Along step guard (run.state 0) ls) {i : ℕ} (hi : i < ls.length) :
    guard (run.state i) (run.label i) := by
  have hprefix := run.exec_take hlabel (Nat.le_of_lt hi)
  have hget : run.label i = ls[i] := by
    rw [hlabel]
    simp [hi]
  have hsplit : ls = ls.take i ++ ls[i] :: ls.drop (i + 1) := by
    rw [← List.drop_eq_getElem_cons hi, List.take_append_drop]
  have hrest : Along step guard (run.state 0)
      (ls.take i ++ ls[i] :: ls.drop (i + 1)) := hsplit ▸ halong
  rw [hget]
  exact ((along_append_iff hprefix).mp hrest).2.1

end Run

/-! ## Infinite executions -/

/-- An infinite run: every state is reached from the one before it by the
label at its index. -/
structure Execution (step : State → Label → Option State) where
  state : ℕ → State
  label : ℕ → Label
  step_eq : ∀ n, step (state n) (label n) = some (state (n + 1))

namespace Execution

variable (e : Execution step)

theorem path {i j : ℕ} (hij : i ≤ j)
    (hguard : ∀ n, i ≤ n → n < j → guard (e.state n) (e.label n)) :
    Path step guard (e.state i) (e.state j) := by
  induction j, hij using Nat.le_induction with
  | base => exact .refl
  | succ j hij ih =>
      have hprefix : Path step guard (e.state i) (e.state j) :=
        ih fun n hin hnj => hguard n hin (Nat.lt_succ_of_lt hnj)
      exact hprefix.tail
        ⟨e.label j, hguard j hij (Nat.lt_succ_self j), e.step_eq j⟩

/-- The progress rule.  If a kind of label keeps being taken, and `P` survives
every other label, then `P` still holds when that kind of label is next
taken. -/
theorem exists_turn (turn : Label → Prop) {P : State → Prop} {i : ℕ}
    (hturns : ∀ N, ∃ n, N ≤ n ∧ turn (e.label n))
    (hP : P (e.state i))
    (hkeep : ∀ n, i ≤ n → P (e.state n) → ¬ turn (e.label n) →
      P (e.state (n + 1))) :
    ∃ j, i ≤ j ∧ turn (e.label j) ∧ P (e.state j) := by
  classical
  have hex : ∃ n, i ≤ n ∧ turn (e.label n) := hturns i
  let j := Nat.find hex
  have hj : i ≤ j ∧ turn (e.label j) := Nat.find_spec hex
  have hquiet : ∀ n, i ≤ n → n < j → ¬ turn (e.label n) := by
    intro n hin hnj hturn
    exact Nat.find_min hex hnj ⟨hin, hturn⟩
  refine ⟨j, hj.1, hj.2, ?_⟩
  have hall : ∀ n, i ≤ n → n ≤ j → P (e.state n) := by
    intro n hin
    induction n, hin using Nat.le_induction with
    | base => exact fun _ => hP
    | succ n hin ih =>
        intro hnj
        exact hkeep n hin (ih (by omega)) (hquiet n hin (by omega))
  exact hall j hj.1 (le_refl j)

/-- The ranking rule: what comes to pass or comes nearer, again and again, comes
to pass. -/
theorem exists_of_rank {P : State → Prop} (μ : State → ℕ)
    (hμ : ∀ i, ¬ P (e.state i) → ∃ j, i ≤ j ∧ μ (e.state j) < μ (e.state i))
    (i : ℕ) : ∃ j, i ≤ j ∧ P (e.state j) := by
  induction hn : μ (e.state i) using Nat.strong_induction_on generalizing i with
  | _ n ih =>
      by_cases hP : P (e.state i)
      · exact ⟨i, le_refl i, hP⟩
      obtain ⟨j, hij, hless⟩ := hμ i hP
      obtain ⟨k, hjk, hk⟩ := ih _ (hn ▸ hless) j rfl
      exact ⟨k, le_trans hij hjk, hk⟩

/-- One more step in front of an execution. -/
def cons (e : Execution step) {s : State} {l : Label}
    (hstep : step s l = some (e.state 0)) : Execution step where
  state
    | 0 => s
    | n + 1 => e.state n
  label
    | 0 => l
    | n + 1 => e.label n
  step_eq
    | 0 => hstep
    | n + 1 => e.step_eq n

/-- A finite run can be put in front of an execution; what holds along the
run holds of the steps in front. -/
theorem exists_append (e : Execution step) {G : State → Label → Prop} {s : State}
    {ls : List Label} (hrun : exec step s ls = some (e.state 0))
    (halong : Along step G s ls) :
    ∃ f : Execution step, f.state 0 = s ∧
      (∀ n, f.state (n + ls.length) = e.state n ∧
        f.label (n + ls.length) = e.label n) ∧
      ∀ n, n < ls.length → G (f.state n) (f.label n) := by
  induction ls generalizing s with
  | nil =>
      obtain rfl : s = e.state 0 := Option.some.inj hrun
      refine ⟨e, rfl, fun n => ⟨rfl, rfl⟩, ?_⟩
      intro n hn
      cases hn
  | cons l ls ih =>
      obtain ⟨u, hstep, htail⟩ := exec_cons_eq_some_iff.mp hrun
      obtain ⟨hl, hrest⟩ := halong
      obtain ⟨f, rfl, hsuffix, hprefix⟩ := ih htail (hrest u hstep)
      refine ⟨f.cons hstep, rfl, fun n => hsuffix n, ?_⟩
      intro n hn
      cases n with
      | zero => exact hl
      | succ n => exact hprefix n (Nat.lt_of_succ_lt_succ hn)

/-- A round that can be repeated gives an execution that repeats it for
ever. -/
theorem exists_cycle {I : ℕ → State → Prop} {c : List Label} (hc : 0 < c.length)
    (hround : ∀ m s, I m s → ∃ t, exec step s c = some t ∧ I (m + 1) t)
    {s : State} (hs : I 0 s) :
    ∃ e : Execution step, e.state 0 = s ∧
      (∀ m, I m (e.state (c.length * m))) ∧
      ∀ n, e.label n = c.get ⟨n % c.length, Nat.mod_lt n hc⟩ := by
  have : Nonempty State := ⟨s⟩
  choose! next hnext using hround
  let start : ℕ → State := fun m => Nat.rec s next m
  have hstart : ∀ m, I m (start m) := by
    intro m
    induction m with
    | zero => exact hs
    | succ m ih => exact (hnext m _ ih).2
  have hrun : ∀ m, exec step (start m) c = some (start (m + 1)) :=
    fun m => (hnext m _ (hstart m)).1
  choose state hfirst hlast hsteps using
    fun m => exists_states_of_exec (hrun m)
  have hsucc : ∀ n, state ((n + 1) / c.length) ((n + 1) % c.length) =
      state (n / c.length) (n % c.length + 1) := by
    intro n
    have hi : n % c.length < c.length := Nat.mod_lt n hc
    have hn : c.length * (n / c.length) + n % c.length = n :=
      Nat.div_add_mod n c.length
    generalize n / c.length = m at hn
    generalize n % c.length = i at hi hn
    subst hn
    rcases Nat.lt_or_ge (i + 1) c.length with hnext | hend
    · rw [Nat.add_assoc, Nat.mul_add_div hc, Nat.div_eq_of_lt hnext,
        Nat.add_zero, Nat.mul_add_mod, Nat.mod_eq_of_lt hnext]
    · have hlen : i + 1 = c.length := by omega
      have hwrap : c.length * m + i + 1 = c.length * (m + 1) := by
        rw [Nat.mul_succ]
        omega
      rw [hwrap, Nat.mul_div_cancel_left _ hc, Nat.mul_mod_right, hfirst, hlen,
        hlast]
  let e : Execution step :=
    { state := fun n => state (n / c.length) (n % c.length)
      label := fun n => c.get ⟨n % c.length, Nat.mod_lt n hc⟩
      step_eq := by
        intro n
        rw [hsucc]
        exact hsteps _ _ (Nat.mod_lt n hc) }
  have hbegin : ∀ m, e.state (c.length * m) = start m := by
    intro m
    have hpos : e.state (c.length * m) = state m 0 := by simp [e, hc]
    rw [hpos, hfirst]
  refine ⟨e, ?_, ?_, fun _ => rfl⟩
  · exact hbegin 0
  · intro m
    rw [hbegin]
    exact hstart m

end Execution

end TransitionSystem
