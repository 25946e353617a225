import Mathlib.Data.Finset.Card
import Mathlib.Logic.Function.Basic
import Teeproxyd.Support.ProcessTable

/-!
# Supervised slots

A supervisor keeps, for each of its slots, the pid it has recorded, next to
the table of its un-reaped children.  This file describes the moves that
change the two, and the two properties one wants of them.

* `Slots.Sound`: a recorded pid is an un-reaped child of its slot, so a signal
  sent to it cannot reach a recycled pid.
* `Slots.Exclusive`: a running child is the one its slot records, so no child
  runs untracked and no slot runs two.

Every move keeps `Sound`, except a `lose` of a recorded child; every move keeps
`Exclusive`, except a `launch` into a slot that still has a running child.  Such
a launch makes the recorded child an orphan, and nothing else makes one.
-/

namespace Supervision

open ProcessTable

/-- The recorded pid of every slot, and the un-reaped children. -/
structure Slots (ι : Type*) where
  tracked : ι → Option ℕ
  table : Table ι

/-- What can happen to a supervisor's slots. -/
inductive Move (ι : Type*)
  /-- A running child ends. -/
  | exit (p : ℕ)
  /-- A child is spawned for a slot and recorded there. -/
  | launch (i : ι) (p : ℕ)
  /-- A slot forgets its child, which is no longer running. -/
  | release (i : ι)
  /-- The recorded child of a slot is reaped and forgotten. -/
  | bury (i : ι) (p : ℕ)
  /-- A child that no slot records is reaped. -/
  | discard (p : ℕ)
  /-- A child is reaped without the supervisor being told which. -/
  | lose (p : ℕ)

variable {ι : Type*} [DecidableEq ι]

/-- `Moves a m b`: move `m` is possible in `a` and leads to `b`. -/
inductive Moves : Slots ι → Move ι → Slots ι → Prop
  | exit {a : Slots ι} {i : ι} {p : ℕ} (hrunning : a.table.AliveOf i p) :
      Moves a (.exit p) { a with table := a.table.exit p }
  | launch {a : Slots ι} {i : ι} {p : ℕ} (hfresh : a.table.find p = none) :
      Moves a (.launch i p)
        { tracked := Function.update a.tracked i (some p)
          table := a.table.spawn i p }
  | release {a : Slots ι} {i : ι}
      (hended : ∀ p, a.tracked i = some p → ∀ j, ¬ a.table.AliveOf j p) :
      Moves a (.release i)
        { a with tracked := Function.update a.tracked i none }
  | bury {a : Slots ι} {i : ι} {p : ℕ} (htracked : a.tracked i = some p)
      (hended : ∀ j, ¬ a.table.AliveOf j p) :
      Moves a (.bury i p)
        { tracked := Function.update a.tracked i none
          table := a.table.reap p }
  | discard {a : Slots ι} {p : ℕ} (huntracked : ∀ i, a.tracked i ≠ some p)
      (hended : ∀ j, ¬ a.table.AliveOf j p) :
      Moves a (.discard p) { a with table := a.table.reap p }
  | lose {a : Slots ι} {p : ℕ} (hended : ∀ j, ¬ a.table.AliveOf j p) :
      Moves a (.lose p) { a with table := a.table.reap p }

namespace Slots

/-- A recorded pid is an un-reaped child of the slot that records it. -/
def Sound (a : Slots ι) : Prop :=
  ∀ i p, a.tracked i = some p → a.table.OwnedBy i p

/-- A running child is recorded by its slot. -/
def Exclusive (a : Slots ι) : Prop :=
  ∀ i p, a.table.AliveOf i p → a.tracked i = some p

omit [DecidableEq ι] in
/-- Distinct slots of a sound supervisor record distinct pids. -/
theorem Sound.tracked_injective {a : Slots ι} (h : a.Sound) {i j : ι} {p : ℕ}
    (hi : a.tracked i = some p) (hj : a.tracked j = some p) : i = j :=
  (h i p hi).owner_unique (h j p hj)

omit [DecidableEq ι] in
theorem Exclusive.unique {a : Slots ι} (h : a.Exclusive) {i : ι} {p q : ℕ}
    (hp : a.table.AliveOf i p) (hq : a.table.AliveOf i q) : p = q :=
  Option.some.inj ((h i p hp).symm.trans (h i q hq))

omit [DecidableEq ι] in
theorem Exclusive.not_alive_of_untracked {a : Slots ι} (h : a.Exclusive)
    {i : ι} (hnone : a.tracked i = none) (p : ℕ) : ¬ a.table.AliveOf i p := by
  intro halive
  have htracked := h i p halive
  rw [hnone] at htracked
  contradiction

end Slots

namespace Moves

variable {a b : Slots ι} {m : Move ι}

theorem sound (hmove : Moves a m b)
    (hkept : ∀ p, m = .lose p → ∀ i, a.tracked i ≠ some p)
    (h : a.Sound) : b.Sound := by
  cases hmove with
  | exit hrunning =>
      intro i q hq
      exact (Table.ownedBy_exit a.table).mpr (h i q hq)
  | @launch i p hfresh =>
      intro j q hq
      rw [Table.ownedBy_spawn a.table hfresh]
      by_cases hji : j = i
      · subst hji
        left
        simpa [eq_comm] using hq
      · right
        apply h j q
        simpa [hji] using hq
  | @release i hended =>
      intro j q hq
      by_cases hji : j = i
      · subst hji
        simp at hq
      · apply h j q
        simpa [hji] using hq
  | @bury i p htracked hended =>
      intro j q hq
      by_cases hji : j = i
      · subst hji
        simp at hq
      · have hold : a.tracked j = some q := by simpa [hji] using hq
        have hqp : q ≠ p := by
          rintro rfl
          exact hji (h.tracked_injective hold htracked)
        exact (Table.ownedBy_reap a.table).mpr ⟨hqp, h j q hold⟩
  | @discard p huntracked hended =>
      intro j q hq
      have hqp : q ≠ p := by
        rintro rfl
        exact huntracked j hq
      exact (Table.ownedBy_reap a.table).mpr ⟨hqp, h j q hq⟩
  | @lose p hended =>
      intro j q hq
      have hqp : q ≠ p := by
        rintro rfl
        exact hkept q rfl j hq
      exact (Table.ownedBy_reap a.table).mpr ⟨hqp, h j q hq⟩

/-- A launch keeps the slots exclusive exactly when the slot had no running
child left. -/
theorem exclusive_launch_iff {i : ι} {p : ℕ} (hmove : Moves a (.launch i p) b)
    (h : a.Exclusive) : b.Exclusive ↔ ∀ q, ¬ a.table.AliveOf i q := by
  cases hmove with
  | launch hfresh =>
      constructor
      · intro hb q hq
        have hrunning : (a.table.spawn i p).AliveOf i q :=
          (Table.aliveOf_spawn a.table hfresh).mpr (Or.inr hq)
        have htracked := hb i q hrunning
        obtain rfl : p = q := by simpa using htracked
        exact hq.ownedBy.find_ne_none hfresh
      · intro hclear j q hq
        rcases (Table.aliveOf_spawn a.table hfresh).mp hq with ⟨rfl, rfl⟩ | hold
        · simp
        · have hji : j ≠ i := by
            rintro rfl
            exact hclear q hold
          simpa [hji] using h j q hold

theorem exclusive (hmove : Moves a m b)
    (hclear : ∀ i p, m = .launch i p → ∀ q, ¬ a.table.AliveOf i q)
    (h : a.Exclusive) : b.Exclusive := by
  cases hmove with
  | exit hrunning =>
      intro i q hq
      exact h i q ((Table.aliveOf_exit a.table).mp hq).2
  | @launch i p hfresh =>
      exact (exclusive_launch_iff (.launch hfresh) h).mpr (hclear i p rfl)
  | @release i hended =>
      intro j q hq
      have htracked := h j q hq
      by_cases hji : j = i
      · subst hji
        exact absurd hq (hended q htracked j)
      · simpa [hji] using htracked
  | @bury i p htracked hended =>
      intro j q hq
      obtain ⟨hqp, hq⟩ := (Table.aliveOf_reap a.table).mp hq
      have hold := h j q hq
      by_cases hji : j = i
      · subst hji
        have hpq : p = q := Option.some.inj (htracked.symm.trans hold)
        exact absurd hpq.symm hqp
      · simpa [hji] using hold
  | discard huntracked hended =>
      intro j q hq
      exact h j q ((Table.aliveOf_reap a.table).mp hq).2
  | lose hended =>
      intro j q hq
      exact h j q ((Table.aliveOf_reap a.table).mp hq).2

end Moves

/-! ## Orphans -/

namespace Slots

/-- The running children of a slot that it does not record. -/
def orphans (a : Slots ι) (i : ι) : Finset ℕ :=
  a.table.pids.toFinset.filter fun p =>
    a.table.AliveOf i p ∧ a.tracked i ≠ some p

theorem mem_orphans {a : Slots ι} {i : ι} {p : ℕ} :
    p ∈ a.orphans i ↔ a.table.AliveOf i p ∧ a.tracked i ≠ some p := by
  simp only [orphans, Finset.mem_filter, List.mem_toFinset]
  refine ⟨fun h => h.2, fun h => ⟨?_, h⟩⟩
  rw [← Table.find_isSome_iff, Option.isSome_iff_ne_none]
  exact h.1.ownedBy.find_ne_none

end Slots

namespace Moves

variable {a b : Slots ι} {m : Move ι} {i : ι}

/-- An orphan was one before the move, or it is the child that its slot recorded
when another was launched. -/
theorem orphan_cases (hmove : Moves a m b) {p : ℕ} (hp : p ∈ b.orphans i) :
    p ∈ a.orphans i ∨
      ((∃ q, m = .launch i q) ∧ a.tracked i = some p ∧
        a.table.AliveOf i p) := by
  obtain ⟨halive, huntracked⟩ := Slots.mem_orphans.mp hp
  cases hmove with
  | exit hrunning =>
      left
      exact Slots.mem_orphans.mpr
        ⟨((Table.aliveOf_exit a.table).mp halive).2, huntracked⟩
  | @launch j q hfresh =>
      rcases (Table.aliveOf_spawn a.table hfresh).mp halive with
        ⟨rfl, rfl⟩ | hold
      · simp at huntracked
      by_cases htracked : a.tracked i = some p
      · have hij : i = j := by
          by_contra hij
          exact huntracked (by simpa [hij] using htracked)
        exact Or.inr ⟨⟨q, by rw [hij]⟩, htracked, hold⟩
      · exact Or.inl (Slots.mem_orphans.mpr ⟨hold, htracked⟩)
  | @release j hended =>
      refine Or.inl (Slots.mem_orphans.mpr ⟨halive, fun htracked => ?_⟩)
      by_cases hij : i = j
      · subst hij
        exact hended p htracked i halive
      · exact huntracked (by simpa [hij] using htracked)
  | @bury j q htracked hended =>
      obtain ⟨hpq, hold⟩ := (Table.aliveOf_reap a.table).mp halive
      refine Or.inl (Slots.mem_orphans.mpr ⟨hold, fun hrecorded => ?_⟩)
      by_cases hij : i = j
      · subst hij
        exact hpq (Option.some.inj (hrecorded.symm.trans htracked))
      · exact huntracked (by simpa [hij] using hrecorded)
  | discard _ hended | lose hended =>
      left
      exact Slots.mem_orphans.mpr
        ⟨((Table.aliveOf_reap a.table).mp halive).2, huntracked⟩

/-- A move that does not launch into a slot with a running recorded child makes
no orphan there. -/
theorem card_orphans_le (hmove : Moves a m b)
    (hclear : (∃ q, m = .launch i q) →
      ∀ p, a.tracked i = some p → ¬ a.table.AliveOf i p) :
    (b.orphans i).card ≤ (a.orphans i).card := by
  refine Finset.card_le_card fun p hp => ?_
  rcases hmove.orphan_cases hp with hold | ⟨hlaunch, htracked, halive⟩
  · exact hold
  · exact absurd halive (hclear hlaunch p htracked)

/-- A move makes one orphan at most. -/
theorem card_orphans_le_succ (hmove : Moves a m b) :
    (b.orphans i).card ≤ (a.orphans i).card + 1 := by
  cases htracked : a.tracked i with
  | none =>
      refine Nat.le_succ_of_le (hmove.card_orphans_le fun _ p hp => ?_)
      cases htracked.symm.trans hp
  | some q =>
      have hsubset : b.orphans i ⊆ insert q (a.orphans i) := by
        intro p hp
        rcases hmove.orphan_cases hp with hold | ⟨-, hp, -⟩
        · exact Finset.mem_insert_of_mem hold
        · obtain rfl : q = p := Option.some.inj (htracked.symm.trans hp)
          exact Finset.mem_insert_self _ _
      exact (Finset.card_le_card hsubset).trans (Finset.card_insert_le _ _)

end Moves

end Supervision
