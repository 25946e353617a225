import Mathlib.Data.List.Basic
import Mathlib.Data.Nat.Basic
import Mathlib.Data.Set.Basic

/-!
# Files that are appended to and rotated

A file keeps its identity when it is renamed, and whoever has opened it goes on
writing to it.  A log is rotated by renaming it out of the way once it is larger
than a bound.  As long as nothing else touches the two names, a file of the log
is lost only to one that was created later and is itself larger than the bound.
-/

namespace FileStore

variable {π α : Type*}

/-- Files are numbered in the order of their creation.  A file without a name
still has its content. -/
structure FileTable (π α : Type*) where
  names : π → Option ℕ
  content : ℕ → List α
  created : ℕ
  bounded : ∀ p i, names p = some i → i < created
  fresh : ∀ i, created ≤ i → content i = []

namespace FileTable

variable {f g : FileTable π α} {p q x : π} {i j bound : ℕ}

def empty : FileTable π α := ⟨fun _ => none, fun _ => [], 0, by simp, by simp⟩

/-- The content of the file that has this name. -/
def read (f : FileTable π α) (p : π) : Option (List α) :=
  (f.names p).map f.content

/-- The file with this name is larger than the bound. -/
def oversize (f : FileTable π α) (p : π) (bound : ℕ) : Bool :=
  (f.read p).any fun content => bound < content.length

/-- The file that is opened under this name: the one that has it, or a new
one. -/
def target (f : FileTable π α) (p : π) : ℕ := (f.names p).getD f.created

/-- What is written goes to the end of the file. -/
def append (f : FileTable π α) (i : ℕ) (bytes : List α) : FileTable π α where
  names := f.names
  content j :=
    if j = i ∧ i < f.created then f.content j ++ bytes else f.content j
  created := f.created
  bounded := f.bounded
  fresh j hj := by
    rw [if_neg (by omega)]
    exact f.fresh j hj

theorem oversize_of_none (h : f.names p = none) : f.oversize p bound = false := by
  simp [oversize, read, h]

theorem content_append_self (hi : i < f.created) (bytes : List α) :
    (f.append i bytes).content i = f.content i ++ bytes :=
  if_pos ⟨rfl, hi⟩

theorem content_append_of_ne (hji : j ≠ i) (bytes : List α) :
    (f.append i bytes).content j = f.content j :=
  if_neg fun h => hji h.1

theorem prefix_append (i j : ℕ) (bytes : List α) :
    f.content j <+: (f.append i bytes).content j := by
  unfold append
  dsimp only
  split
  · exact List.prefix_append _ _
  · exact List.prefix_rfl

@[simp] theorem names_append {bytes : List α} :
    (f.append i bytes).names = f.names := rfl

/-! ## Rotated logs -/

/-- The rotated file, if it is none of the first `n` files, is larger than the
bound. -/
def RotatedLarge (f : FileTable π α) (q : π) (n bound : ℕ) : Prop :=
  ∀ j, f.names q = some j → n ≤ j → bound < (f.content j).length

/-- Among the first `n` files, file `i` alone may have the name of the log, and
it has one of the two names unless a file created later is the rotated one. -/
structure Keeps (f : FileTable π α) (p q : π) (n i : ℕ) : Prop where
  created : n ≤ f.created
  current : ∀ c, f.names p = some c → c = i ∨ n ≤ c
  kept : f.names p = some i ∨ ∃ j, f.names q = some j ∧ (j = i ∨ n ≤ j)

theorem rotatedLarge_created (f : FileTable π α) (q : π) (bound : ℕ) :
    RotatedLarge f q f.created bound :=
  fun j hj hnew => absurd (f.bounded q j hj) (Nat.not_lt.mpr hnew)

theorem RotatedLarge.of_names {n : ℕ} (h : RotatedLarge f q n bound)
    (hq : g.names q = f.names q)
    (hcontent : ∀ j, f.content j <+: g.content j) : RotatedLarge g q n bound :=
  fun j hj hnew => (h j (hq ▸ hj) hnew).trans_le (hcontent j).length_le

theorem keeps_of_names (h : f.names p = some i) : Keeps f p q f.created i where
  created := Nat.le_refl _
  current _ hc := Or.inl (Option.some.inj (hc.symm.trans h))
  kept := Or.inl h

theorem Keeps.of_names {n : ℕ} (h : Keeps f p q n i)
    (hcreated : f.created ≤ g.created) (hp : g.names p = f.names p)
    (hq : g.names q = f.names q) : Keeps g p q n i where
  created := h.created.trans hcreated
  current c hc := h.current c (hp ▸ hc)
  kept := by
    rw [hp, hq]
    exact h.kept

/-! ## Operations on names -/

section Names

variable [DecidableEq π]

/-- The file takes the other name, from any file that had it. -/
def rename (f : FileTable π α) (p q : π) : FileTable π α where
  names x :=
    if x = q then (f.names p).or (f.names q)
    else if x = p then none
    else f.names x
  content := f.content
  created := f.created
  bounded x i h := by
    split at h
    · rcases Option.or_eq_some_iff.mp h with h | ⟨-, h⟩
      · exact f.bounded _ i h
      · exact f.bounded _ i h
    · split at h
      · cases h
      · exact f.bounded x i h
  fresh := f.fresh

/-- The name is opened for appending. -/
def openAppend (f : FileTable π α) (p : π) : FileTable π α where
  names x := if x = p then some (f.target p) else f.names x
  content := f.content
  created := max f.created (f.target p + 1)
  bounded x i h := by
    split at h
    · cases h
      omega
    · have := f.bounded x i h
      omega
  fresh i hi := f.fresh i (by omega)

/-- The file is renamed if it is larger than the bound and the system agrees. -/
def rotate (f : FileTable π α) (p q : π) (bound : ℕ) (granted : Bool) :
    FileTable π α :=
  if f.oversize p bound && granted then f.rename p q else f

@[simp] theorem content_rename : (f.rename p q).content = f.content := rfl

@[simp] theorem content_openAppend : (f.openAppend p).content = f.content := rfl

@[simp] theorem content_rotate {granted : Bool} :
    (f.rotate p q bound granted).content = f.content := by
  unfold rotate
  split <;> rfl

@[simp] theorem created_rotate {granted : Bool} :
    (f.rotate p q bound granted).created = f.created := by
  unfold rotate
  split <;> rfl

theorem created_le_openAppend : f.created ≤ (f.openAppend p).created :=
  Nat.le_max_left _ _

theorem names_openAppend_self : (f.openAppend p).names p = some (f.target p) :=
  if_pos rfl

theorem names_openAppend_of_ne (h : x ≠ p) :
    (f.openAppend p).names x = f.names x := if_neg h

theorem names_openAppend_of_some (h : f.names p = some i) :
    (f.openAppend p).names p = some i := by
  rw [names_openAppend_self, target, h, Option.getD_some]

/-- What a rotation does to the two names. -/
theorem rotate_cases (f : FileTable π α) (hpq : p ≠ q) (bound : ℕ)
    (granted : Bool) :
    f.rotate p q bound granted = f ∨
      ∃ i, f.names p = some i ∧ bound < (f.content i).length ∧
        granted = true ∧
        (f.rotate p q bound granted).names p = none ∧
        (f.rotate p q bound granted).names q = some i := by
  unfold rotate
  split
  next h =>
    right
    rw [Bool.and_eq_true] at h
    obtain ⟨hlarge, hgranted⟩ := h
    obtain ⟨content, hread, hbound⟩ := (Option.any_eq_true _ _).mp hlarge
    obtain ⟨i, hi, rfl⟩ := Option.map_eq_some_iff.mp hread
    refine ⟨i, hi, of_decide_eq_true hbound, hgranted, ?_, ?_⟩
    · simp [rename, hpq]
    · simp [rename, hi]
  next => exact Or.inl rfl

theorem names_rotate_of_ne {granted : Bool} (hp : x ≠ p)
    (hq : x ≠ q) : (f.rotate p q bound granted).names x = f.names x := by
  unfold rotate
  split
  · simp [rename, hp, hq]
  · rfl

theorem rotate_of_small {granted : Bool}
    (h : granted = true → f.oversize p bound = false) :
    f.rotate p q bound granted = f := by
  cases granted with
  | false => simp [FileTable.rotate]
  | true => simp [FileTable.rotate, h rfl]

/-- A rotated log is not oversize. -/
theorem oversize_of_rotate (hpq : p ≠ q) {granted : Bool}
    (h : (f.rotate p q bound granted).oversize p bound = true) :
    f.oversize p bound = true := by
  rcases f.rotate_cases hpq bound granted with
    hsame | ⟨c, -, -, -, hp, -⟩
  · rwa [hsame] at h
  · rw [oversize_of_none hp] at h
    cases h

theorem oversize_of_openAppend
    (h : (f.openAppend p).oversize p bound = true) :
    f.oversize p bound = true := by
  cases hname : f.names p with
  | none =>
      have hempty : f.content f.created = [] := f.fresh _ (Nat.le_refl _)
      simp [oversize, read, names_openAppend_self, target, hname, hempty] at h
  | some c =>
      simpa [oversize, read, names_openAppend_of_some hname, hname] using h

/-- A file that is too large is rotated, and a new one is opened. -/
theorem rotate_openAppend_of_large (hpq : p ≠ q) (h : f.names p = some i)
    (hlarge : bound < (f.content i).length) :
    ((f.rotate p q bound true).openAppend p).names p = some f.created ∧
      ((f.rotate p q bound true).openAppend p).names q = some i ∧
      ((f.rotate p q bound true).openAppend p).created = f.created + 1 := by
  have hrotates : f.rotate p q bound true = f.rename p q := by
    simp [FileTable.rotate, oversize, read, h, hlarge]
  have htarget : (f.rename p q).target p = f.created := by
    simp [target, rename, hpq]
  rw [hrotates]
  refine ⟨?_, ?_, ?_⟩
  · rw [names_openAppend_self, htarget]
  · rw [names_openAppend_of_ne hpq.symm]
    simp [rename, h]
  · change max f.created ((f.rename p q).target p + 1) = _
    rw [htarget]
    exact Nat.max_eq_right (Nat.le_succ _)

theorem RotatedLarge.rotate {n : ℕ} (h : RotatedLarge f q n bound) (hpq : p ≠ q)
    (granted : Bool) : RotatedLarge (f.rotate p q bound granted) q n bound := by
  rcases f.rotate_cases hpq bound granted with
    hsame | ⟨c, hc, hlarge, -, -, hq⟩
  · rwa [hsame]
  · intro j hj _
    obtain rfl : c = j := Option.some.inj (hq.symm.trans hj)
    rwa [content_rotate]

theorem RotatedLarge.openAppend {n : ℕ} (h : RotatedLarge f q n bound)
    (hpq : p ≠ q) : RotatedLarge (f.openAppend p) q n bound :=
  h.of_names (names_openAppend_of_ne hpq.symm) fun _ => List.prefix_rfl

theorem Keeps.rotate {n : ℕ} (h : Keeps f p q n i) (hpq : p ≠ q)
    (granted : Bool) : Keeps (f.rotate p q bound granted) p q n i := by
  rcases f.rotate_cases hpq bound granted with
    hsame | ⟨c, hc, -, -, hp, hq⟩
  · rwa [hsame]
  · refine ⟨?_, fun c' hc' => ?_, Or.inr ⟨c, hq, h.current c hc⟩⟩
    · rw [created_rotate]
      exact h.created
    · cases hp.symm.trans hc'

theorem Keeps.openAppend {n : ℕ} (h : Keeps f p q n i) (hpq : p ≠ q) :
    Keeps (f.openAppend p) p q n i := by
  refine ⟨h.created.trans created_le_openAppend, fun c hc => ?_, ?_⟩
  · rw [names_openAppend_self] at hc
    obtain rfl : f.target p = c := Option.some.inj hc
    cases hname : f.names p with
    | none =>
        rw [target, hname]
        exact Or.inr h.created
    | some c =>
        rw [target, hname]
        exact h.current c hname
  · rcases h.kept with hi | ⟨j, hj, hij⟩
    · exact Or.inl (names_openAppend_of_some hi)
    · exact Or.inr ⟨j, (names_openAppend_of_ne hpq.symm).trans hj, hij⟩

end Names

end FileTable

end FileStore
