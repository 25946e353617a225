import Mathlib.Data.List.Basic
import Mathlib.Data.List.Nodup

/-!
# The table of a parent's un-reaped children

A child is in the table from the moment it is spawned until its parent waits
for it, so a child that has ended but has not been reaped (a zombie) is still
there and still holds its pid.  No two children share a pid, which the table
carries as a field.  Children carry the owner they were spawned for, over an
arbitrary type of owners.
-/

namespace ProcessTable

/-- A child that has not been reaped. -/
structure Proc (ι : Type*) where
  pid : ℕ
  owner : ι
  alive : Bool
deriving DecidableEq, Repr

/-- The un-reaped children, with distinct pids. -/
structure Table (ι : Type*) where
  procs : List (Proc ι)
  nodup : (procs.map Proc.pid).Nodup

namespace Table

variable {ι : Type*}

def empty : Table ι where
  procs := []
  nodup := List.nodup_nil

/-- The pids the children hold. -/
def pids (t : Table ι) : List ℕ := t.procs.map Proc.pid

/-- The child that holds a pid, if any. -/
def find (t : Table ι) (p : ℕ) : Option (Proc ι) :=
  t.procs.find? fun q => q.pid = p

/-- `p` is a running child of owner `i`. -/
def AliveOf (t : Table ι) (i : ι) (p : ℕ) : Prop := t.find p = some ⟨p, i, true⟩

instance [DecidableEq ι] (t : Table ι) (i : ι) (p : ℕ) :
    Decidable (t.AliveOf i p) :=
  inferInstanceAs (Decidable (_ = _))

/-- `p` is a child of owner `i`, running or a zombie. -/
def OwnedBy (t : Table ι) (i : ι) (p : ℕ) : Prop :=
  ∃ a, t.find p = some ⟨p, i, a⟩

def isAlive (t : Table ι) (p : ℕ) : Bool := (t.find p).any Proc.alive

def isZombie (t : Table ι) (p : ℕ) : Bool := (t.find p).any fun q => !q.alive

/-- Some child of the owner is running. -/
def running [DecidableEq ι] (t : Table ι) (i : ι) : Bool :=
  t.procs.any fun q => q.owner = i && q.alive

/-! ## Looking a pid up -/

theorem find_pid {t : Table ι} {p : ℕ} {q : Proc ι} (h : t.find p = some q) :
    q.pid = p := by
  simpa using List.find?_some h

theorem find_eq_none_iff {t : Table ι} {p : ℕ} :
    t.find p = none ↔ p ∉ t.pids := by
  simp [find, pids, List.find?_eq_none]

theorem find_isSome_iff {t : Table ι} {p : ℕ} :
    (t.find p).isSome ↔ p ∈ t.pids := by
  rw [Option.isSome_iff_ne_none, ne_eq, find_eq_none_iff, not_not]

theorem AliveOf.ownedBy {t : Table ι} {i : ι} {p : ℕ} (h : t.AliveOf i p) :
    t.OwnedBy i p :=
  ⟨true, h⟩

theorem OwnedBy.owner_unique {t : Table ι} {i j : ι} {p : ℕ}
    (hi : t.OwnedBy i p) (hj : t.OwnedBy j p) : i = j := by
  obtain ⟨a, ha⟩ := hi
  obtain ⟨b, hb⟩ := hj
  have hab : some (⟨p, i, a⟩ : Proc ι) = some ⟨p, j, b⟩ := ha.symm.trans hb
  injection hab with hab
  injection hab

theorem OwnedBy.find_ne_none {t : Table ι} {i : ι} {p : ℕ}
    (h : t.OwnedBy i p) : t.find p ≠ none := by
  obtain ⟨a, ha⟩ := h
  simp [ha]

theorem isAlive_iff {t : Table ι} {p : ℕ} :
    t.isAlive p = true ↔ ∃ i, t.AliveOf i p := by
  cases h : t.find p with
  | none => simp [isAlive, AliveOf, h]
  | some q =>
      obtain rfl : q.pid = p := find_pid h
      cases q
      simp [isAlive, AliveOf, h]

theorem isZombie_iff {t : Table ι} {p : ℕ} :
    t.isZombie p = true ↔ ∃ i, t.find p = some ⟨p, i, false⟩ := by
  cases h : t.find p with
  | none => simp [isZombie, h]
  | some q =>
      obtain rfl : q.pid = p := find_pid h
      cases q
      simp [isZombie, h]

theorem find_of_mem {t : Table ι} {q : Proc ι} (h : q ∈ t.procs) :
    t.find q.pid = some q := by
  cases hfind : t.find q.pid with
  | none =>
      have hmem : q.pid ∈ t.pids := List.mem_map_of_mem h
      exact absurd hmem (find_eq_none_iff.mp hfind)
  | some x =>
      have hx : x ∈ t.procs := List.mem_of_find?_eq_some hfind
      rw [List.inj_on_of_nodup_map t.nodup hx h (find_pid hfind)]

theorem running_iff [DecidableEq ι] {t : Table ι} {i : ι} :
    t.running i = true ↔ ∃ p, t.AliveOf i p := by
  simp only [running, List.any_eq_true, Bool.and_eq_true, decide_eq_true_eq]
  constructor
  · rintro ⟨⟨pid, owner, alive⟩, hmem, rfl, halive⟩
    obtain rfl : alive = true := halive
    exact ⟨pid, find_of_mem hmem⟩
  · rintro ⟨p, halive⟩
    exact ⟨⟨p, i, true⟩, List.mem_of_find?_eq_some halive, rfl, rfl⟩

/-! ## Spawning, ending and reaping a child -/

/-- A new running child of owner `i`; a pid already held is left alone. -/
def spawn (t : Table ι) (i : ι) (p : ℕ) : Table ι :=
  if h : p ∈ t.procs.map Proc.pid then t
  else
    { procs := ⟨p, i, true⟩ :: t.procs
      nodup := List.nodup_cons.mpr ⟨h, t.nodup⟩ }

/-- The child that holds `p` ends and becomes a zombie. -/
def exit (t : Table ι) (p : ℕ) : Table ι where
  procs := t.procs.map fun q => if q.pid = p then { q with alive := false } else q
  nodup := by
    have hpids : (t.procs.map fun q =>
        if q.pid = p then { q with alive := false } else q).map Proc.pid =
          t.procs.map Proc.pid := by
      rw [List.map_map]
      apply List.map_congr_left
      intro q _
      simp only [Function.comp_apply]
      split <;> rfl
    rw [hpids]
    exact t.nodup

/-- The parent waits for the child that holds `p`, which frees the pid. -/
def reap (t : Table ι) (p : ℕ) : Table ι where
  procs := t.procs.filter fun q => q.pid ≠ p
  nodup := (List.filter_sublist.map Proc.pid).nodup t.nodup

section Lookup

variable (t : Table ι) {i j : ι} {p q : ℕ}

theorem find_spawn (hfresh : t.find p = none) :
    (t.spawn i p).find q = if q = p then some ⟨p, i, true⟩ else t.find q := by
  have hmem : p ∉ t.procs.map Proc.pid := find_eq_none_iff.mp hfresh
  simp only [spawn, hmem, dite_false, find, List.find?_cons]
  by_cases hqp : q = p
  · simp [hqp]
  · simp [hqp, Ne.symm hqp]

theorem find_exit :
    (t.exit p).find q =
      (t.find q).map fun x => if q = p then { x with alive := false } else x := by
  simp only [exit, find, List.find?_map]
  have hsame : ((fun x : Proc ι => decide (x.pid = q)) ∘ fun x =>
      if x.pid = p then { x with alive := false } else x) =
        fun x => decide (x.pid = q) := by
    funext x
    simp only [Function.comp_apply]
    split <;> rfl
  rw [hsame]
  cases h : t.procs.find? (fun x => x.pid = q) with
  | none => rfl
  | some x =>
      have hx : x.pid = q := find_pid h
      simp [hx]

theorem find_reap :
    (t.reap p).find q = if q = p then none else t.find q := by
  simp only [reap, find, List.find?_filter]
  by_cases hqp : q = p
  · subst hqp
    simp [List.find?_eq_none]
  · simp only [hqp, if_false]
    congr 1
    funext x
    by_cases hx : x.pid = q
    · simp [hx, hqp]
    · simp [hx]

theorem aliveOf_spawn (hfresh : t.find p = none) :
    (t.spawn i p).AliveOf j q ↔ (j = i ∧ q = p) ∨ t.AliveOf j q := by
  rw [AliveOf, find_spawn t hfresh]
  by_cases hqp : q = p
  · subst hqp
    simp [AliveOf, hfresh, eq_comm]
  · simp [hqp, AliveOf]

theorem ownedBy_spawn (hfresh : t.find p = none) :
    (t.spawn i p).OwnedBy j q ↔ (j = i ∧ q = p) ∨ t.OwnedBy j q := by
  simp only [OwnedBy, find_spawn t hfresh]
  by_cases hqp : q = p
  · subst hqp
    simp [hfresh, eq_comm]
  · simp [hqp]

theorem aliveOf_exit : (t.exit p).AliveOf j q ↔ q ≠ p ∧ t.AliveOf j q := by
  rw [AliveOf, find_exit]
  by_cases hqp : q = p
  · subst hqp
    simp
  · simp [hqp, AliveOf]

theorem ownedBy_exit : (t.exit p).OwnedBy j q ↔ t.OwnedBy j q := by
  simp only [OwnedBy, find_exit]
  cases h : t.find q with
  | none => simp
  | some x =>
      obtain rfl : x.pid = q := find_pid h
      cases x with
      | mk pid owner alive =>
          by_cases hqp : pid = p
          · simp [hqp]
          · simp [hqp]

theorem aliveOf_reap : (t.reap p).AliveOf j q ↔ q ≠ p ∧ t.AliveOf j q := by
  rw [AliveOf, find_reap]
  by_cases hqp : q = p
  · simp [hqp]
  · simp [hqp, AliveOf]

theorem ownedBy_reap : (t.reap p).OwnedBy j q ↔ q ≠ p ∧ t.OwnedBy j q := by
  simp only [OwnedBy, find_reap]
  by_cases hqp : q = p
  · simp [hqp]
  · simp [hqp]

end Lookup

/-! ## The pids that are held -/

section Pids

variable (t : Table ι) {i : ι} {p q : ℕ}

theorem nodup_pids : t.pids.Nodup := t.nodup

theorem pids_spawn (hfresh : t.find p = none) :
    (t.spawn i p).pids = p :: t.pids := by
  have hmem : p ∉ t.procs.map Proc.pid := find_eq_none_iff.mp hfresh
  simp [spawn, pids, hmem]

theorem pids_exit : (t.exit p).pids = t.pids := by
  simp only [pids, exit, List.map_map]
  refine List.map_congr_left fun x _ => ?_
  simp only [Function.comp_apply]
  split <;> rfl

theorem mem_pids_reap : q ∈ (t.reap p).pids ↔ q ≠ p ∧ q ∈ t.pids := by
  simp only [← find_isSome_iff, find_reap]
  by_cases hqp : q = p <;> simp [hqp]

/-- Reaping a child frees one pid. -/
theorem length_pids_reap (hheld : p ∈ t.pids) :
    (t.reap p).pids.length + 1 = t.pids.length := by
  have herase : (t.reap p).pids = t.pids.erase p := by
    rw [t.nodup_pids.erase_eq_filter]
    simp only [pids, reap, List.filter_map]
    congr 1
    refine List.filter_congr fun x _ => ?_
    by_cases hx : x.pid = p <;> simp [hx]
  rw [herase, List.length_erase_of_mem hheld]
  exact Nat.sub_add_cancel (List.length_pos_of_mem hheld)

theorem mem_pids_of_isZombie (h : t.isZombie p = true) : p ∈ t.pids := by
  obtain ⟨i, hi⟩ := isZombie_iff.mp h
  rw [← find_isSome_iff, hi]
  rfl

theorem not_isZombie_reap : (t.reap p).isZombie p = false := by
  simp [isZombie, find_reap]

/-- A child that has just been spawned is alive. -/
theorem isZombie_spawn (hfresh : t.find p = none)
    (h : (t.spawn i p).isZombie q = true) : t.isZombie q = true := by
  unfold isZombie at h
  rw [find_spawn t hfresh] at h
  by_cases hqp : q = p
  · simp [hqp] at h
  · rwa [if_neg hqp] at h

end Pids

/-! ## Fresh pids -/

/-- The pid a new child gets: `hint` when it is a positive pid nobody holds,
and some other such pid otherwise.  Every free pid is reached by its own
hint. -/
def freshPid (used : List ℕ) (hint : ℕ) : ℕ :=
  if hint ≠ 0 ∧ hint ∉ used then hint else used.foldr max 0 + 1

theorem le_foldr_max {used : List ℕ} {p : ℕ} (h : p ∈ used) :
    p ≤ used.foldr max 0 := by
  induction used with
  | nil => simp at h
  | cons q used ih =>
      rw [List.foldr_cons]
      rcases List.mem_cons.mp h with rfl | h
      · exact Nat.le_max_left _ _
      · exact Nat.le_trans (ih h) (Nat.le_max_right _ _)

theorem freshPid_notMem (used : List ℕ) (hint : ℕ) :
    freshPid used hint ∉ used := by
  unfold freshPid
  split
  next h => exact h.2
  next =>
    intro hmem
    have hle := le_foldr_max hmem
    omega

end Table

end ProcessTable
