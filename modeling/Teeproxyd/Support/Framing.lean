import Mathlib.Algebra.GroupWithZero.Nat
import Mathlib.Algebra.NeZero
import Mathlib.Data.List.Basic
import Mathlib.Data.Nat.Notation

/-!
# Reading lines with a cap

A reader takes elements off a list up to and including a delimiter, but no more
than a cap allows.  A line that is longer than the cap reaches it in pieces.
This file says which pieces: all but the last are as long as the cap, and only
the last one ends with the delimiter.
-/

namespace Framing

variable {α : Type*}

section Reading

variable [DecidableEq α]

/-- Take elements up to and including `d`, but no more than `n` of them; and
what is left. -/
def readUntil (d : α) : ℕ → List α → List α × List α
  | 0, l => ([], l)
  | _ + 1, [] => ([], [])
  | n + 1, a :: l =>
      if a = d then ([a], l)
      else (a :: (readUntil d n l).1, (readUntil d n l).2)

variable {d : α} {n : ℕ} {l rest : List α}

@[simp] theorem readUntil_nil : readUntil d n [] = ([], []) := by
  cases n <;> rfl

theorem readUntil_cons_ne {a : α} (ha : a ≠ d) :
    readUntil d (n + 1) (a :: l) =
      (a :: (readUntil d n l).1, (readUntil d n l).2) :=
  if_neg ha

/-- A line within the cap is read with its delimiter. -/
theorem readUntil_line (hl : d ∉ l) (hn : l.length < n) :
    readUntil d n (l ++ d :: rest) = (l ++ [d], rest) := by
  induction l generalizing n with
  | nil =>
      obtain ⟨m, rfl⟩ := Nat.exists_eq_succ_of_ne_zero (Nat.ne_of_gt hn)
      exact if_pos rfl
  | cons a l ih =>
      obtain ⟨m, rfl⟩ :=
        Nat.exists_eq_succ_of_ne_zero (Nat.ne_of_gt (Nat.zero_lt_of_lt hn))
      have ha : a ≠ d := fun h => hl (h ▸ List.mem_cons_self)
      have htail : d ∉ l := fun h => hl (List.mem_cons_of_mem a h)
      rw [List.cons_append, readUntil_cons_ne ha,
        ih htail (Nat.lt_of_succ_lt_succ hn)]
      rfl

/-- A line that reaches the cap is cut there. -/
theorem readUntil_cut (hl : d ∉ l) (hn : n ≤ l.length) :
    readUntil d n (l ++ rest) = (l.take n, l.drop n ++ rest) := by
  induction l generalizing n with
  | nil =>
      obtain rfl : n = 0 := Nat.le_zero.mp hn
      rfl
  | cons a l ih =>
      cases n with
      | zero => rfl
      | succ n =>
          have ha : a ≠ d := fun h => hl (h ▸ List.mem_cons_self)
          have htail : d ∉ l := fun h => hl (List.mem_cons_of_mem a h)
          rw [List.cons_append, readUntil_cons_ne ha,
            ih htail (Nat.le_of_succ_le_succ hn)]
          rfl

/-- What is left when no delimiter comes is read whole. -/
theorem readUntil_end (hl : d ∉ l) (hn : l.length ≤ n) :
    readUntil d n l = (l, []) := by
  induction l generalizing n with
  | nil => exact readUntil_nil
  | cons a l ih =>
      obtain ⟨m, rfl⟩ := Nat.exists_eq_succ_of_ne_zero
        (Nat.ne_of_gt (Nat.lt_of_lt_of_le (Nat.succ_pos _) hn))
      have ha : a ≠ d := fun h => hl (h ▸ List.mem_cons_self)
      have htail : d ∉ l := fun h => hl (List.mem_cons_of_mem a h)
      rw [readUntil_cons_ne ha, ih htail (Nat.le_of_succ_le_succ hn)]

theorem readUntil_rest_lt (hn : n ≠ 0) (hl : l ≠ []) :
    (readUntil d n l).2.length < l.length := by
  induction l generalizing n with
  | nil => exact absurd rfl hl
  | cons a l ih =>
      obtain ⟨m, rfl⟩ := Nat.exists_eq_succ_of_ne_zero hn
      by_cases ha : a = d
      · rw [show readUntil d (m + 1) (a :: l) = ([a], l) from if_pos ha]
        exact Nat.lt_succ_self _
      rw [readUntil_cons_ne ha]
      cases m with
      | zero => exact Nat.lt_succ_self _
      | succ m =>
          by_cases hnil : l = []
          · subst hnil
            exact Nat.lt_succ_self _
          · exact Nat.lt_succ_of_lt (ih (Nat.succ_ne_zero m) hnil)

/-- Nothing is lost or added by reading. -/
theorem readUntil_append (n : ℕ) (l : List α) :
    (readUntil d n l).1 ++ (readUntil d n l).2 = l := by
  induction l generalizing n with
  | nil => simp
  | cons a l ih =>
      cases n with
      | zero => rfl
      | succ n =>
          by_cases ha : a = d
          · rw [show readUntil d (n + 1) (a :: l) = ([a], l) from if_pos ha]
            rfl
          · rw [readUntil_cons_ne ha, List.cons_append, ih]

/-- A read sees no more of the list than its cap. -/
theorem readUntil_take (n : ℕ) (l : List α) :
    (readUntil d n (l.take n)).1 = (readUntil d n l).1 := by
  induction l generalizing n with
  | nil => rw [List.take_nil]
  | cons a l ih =>
      cases n with
      | zero => rfl
      | succ n =>
          rw [List.take_succ_cons]
          by_cases ha : a = d
          · rw [readUntil, readUntil, if_pos ha, if_pos ha]
          · rw [readUntil_cons_ne ha, readUntil_cons_ne ha, ih]

/-- A read that does not come to the end of the list ends with the delimiter or
at the cap. -/
theorem readUntil_full (hn : n ≤ l.length) :
    n ≤ (readUntil d n l).1.length ∨ (readUntil d n l).1.getLast? = some d := by
  induction l generalizing n with
  | nil => exact Or.inl (Nat.le_trans hn (Nat.zero_le _))
  | cons a l ih =>
      cases n with
      | zero => exact Or.inl (Nat.zero_le _)
      | succ n =>
          by_cases ha : a = d
          · rw [show readUntil d (n + 1) (a :: l) = ([a], l) from if_pos ha]
            exact Or.inr (congrArg some ha)
          · rw [readUntil_cons_ne ha]
            rcases ih (Nat.le_of_succ_le_succ hn) with hcap | hlast
            · exact Or.inl (Nat.succ_le_succ hcap)
            · right
              rw [List.getLast?_cons, hlast]
              rfl

end Reading

/-! ## The pieces of a line -/

/-- The pieces in which a line reaches a reader with this cap, without the
delimiter after the last one. -/
def pieces (cap : ℕ) [NeZero cap] (l : List α) : List (List α) :=
  if l.length < cap then [l] else l.take cap :: pieces cap (l.drop cap)
termination_by l.length
decreasing_by
  have hcap : cap ≠ 0 := NeZero.ne cap
  rw [List.length_drop]
  omega

variable {cap : ℕ} [NeZero cap] {l : List α}

theorem pieces_short (h : l.length < cap) : pieces cap l = [l] := by
  rw [pieces, if_pos h]

theorem pieces_long (h : cap ≤ l.length) :
    pieces cap l = l.take cap :: pieces cap (l.drop cap) := by
  rw [pieces, if_neg (Nat.not_lt.mpr h)]

/-! ## The lines of a text -/

@[elab_as_elim]
theorem lines_induction (d : α) {motive : List α → Prop}
    (last : ∀ l, d ∉ l → motive l)
    (line : ∀ l rest, d ∉ l → motive rest → motive (l ++ d :: rest))
    (l : List α) : motive l := by
  induction hn : l.length using Nat.strongRecOn generalizing l with
  | _ n ih =>
      by_cases hmem : d ∈ l
      · obtain ⟨first, rest, rfl, hfirst⟩ := List.eq_append_cons_of_mem hmem
        have hless : rest.length < n := by
          rw [← hn, List.length_append, List.length_cons]
          omega
        exact line first rest hfirst (ih _ hless rest rfl)
      · exact last l hmem

theorem notMem_of_mem_splitOn [DecidableEq α] {d : α} {l text : List α}
    (hl : l ∈ text.splitOn d) : d ∉ l := by
  induction text using lines_induction d with
  | last text htext =>
      rw [List.splitOn_eq_singleton htext, List.mem_singleton] at hl
      exact hl ▸ htext
  | line first rest hfirst ih =>
      rw [List.splitOn_append_cons_self_of_not_mem hfirst] at hl
      rcases List.mem_cons.mp hl with rfl | hrest
      · exact hfirst
      · exact ih hrest

/-- Lines that each end with the delimiter are found again. -/
theorem splitOn_flatMap [DecidableEq α] {d : α} {ls : List (List α)}
    (hls : ∀ l ∈ ls, d ∉ l) :
    (ls.flatMap fun l => l ++ [d]).splitOn d = ls ++ [[]] := by
  induction ls with
  | nil => exact List.splitOn_nil d
  | cons l ls ih =>
      have hl : d ∉ l := hls l List.mem_cons_self
      have htail : ∀ l ∈ ls, d ∉ l :=
        fun l hmem => hls l (List.mem_cons_of_mem _ hmem)
      rw [List.flatMap_cons, List.append_assoc, List.singleton_append,
        List.splitOn_append_cons_self_of_not_mem hl, ih htail]
      rfl

end Framing
