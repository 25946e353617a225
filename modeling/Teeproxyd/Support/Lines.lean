import Teeproxyd.Support.Framing

/-!
# Lines and their joins

A text over any alphabet is split after each delimiter, so that the pieces put
one after the other are the text again.  A last delimiter ends a line and does
not start one.  This file relates the pieces to the number of lines, to the
places where a line may start, and to the lines joined with delimiters between
them.
-/

namespace Lines

variable {α : Type*} {d : α} {l p s rest : List α}

/-! ## Boundaries -/

/-- The text ends where a line may start. -/
def AtBoundary (d : α) (l : List α) : Prop := l = [] ∨ l.getLast? = some d

theorem getLast?_line (hne : rest ≠ []) :
    (l ++ d :: rest).getLast? = rest.getLast? := by
  rw [List.getLast?_append, List.getLast?_cons,
    List.getLast?_eq_some_getLast hne]
  rfl

theorem getLast?_ne (hl : d ∉ l) : l.getLast? ≠ some d :=
  fun h => hl (List.mem_of_getLast? h)

theorem atBoundary_nil : AtBoundary d [] := Or.inl rfl

theorem atBoundary_last (hl : d ∉ l) : AtBoundary d l ↔ l = [] :=
  or_iff_left (getLast?_ne hl)

theorem atBoundary_line : AtBoundary d (l ++ d :: rest) ↔ AtBoundary d rest := by
  unfold AtBoundary
  by_cases hnil : rest = []
  · simp [hnil]
  · rw [getLast?_line hnil]
    simp [hnil]

/-- The last lines are one line without a delimiter only if there is one. -/
theorem intercalate_drop_eq_iff {ls : List (List α)} {n : ℕ} (hne : l ≠ [])
    (hl : d ∉ l) (hn : n ≤ ls.length) :
    List.intercalate [d] (ls.drop (ls.length - n)) = l ↔
      n = 1 ∧ ls.getLast? = some l := by
  have hlength : (ls.drop (ls.length - n)).length = n := by
    rw [List.length_drop]
    omega
  have hlast : n ≠ 0 →
      (ls.drop (ls.length - n)).getLast? = ls.getLast? := by
    intro hpos
    rw [List.getLast?_drop, if_neg (by omega)]
  generalize ls.drop (ls.length - n) = lines at hlength hlast
  match lines, hlength with
  | [], hlength =>
      refine iff_of_false (fun h => hne h.symm) (fun h => ?_)
      have hzero : (0 : ℕ) = 1 := hlength.trans h.1
      cases hzero
  | [line], hlength =>
      obtain rfl : 1 = n := hlength
      rw [List.intercalate_singleton, ← hlast Nat.one_ne_zero]
      simp
  | first :: second :: more, hlength =>
      refine iff_of_false (fun h => ?_) (fun h => ?_)
      · apply hl
        rw [← h, List.intercalate_cons_cons, List.append_assoc]
        exact List.mem_append_right _ List.mem_cons_self
      · rw [h.1] at hlength
        simp at hlength

/-! ## Splitting -/

variable [DecidableEq α]

instance (d : α) (l : List α) : Decidable (AtBoundary d l) :=
  inferInstanceAs (Decidable (_ ∨ _))

/-- The lines of a text, each with the delimiter that ends it. -/
def split (d : α) : List α → List (List α)
  | [] => []
  | a :: l =>
      if a = d then [a] :: split d l
      else
        match split d l with
        | [] => [[a]]
        | line :: rest => (a :: line) :: rest

/-- The number of lines. -/
def count (d : α) (l : List α) : ℕ :=
  l.count d + if AtBoundary d l then 0 else 1

/-- The delimiter at the end of the text, if there is one. -/
def ending (d : α) (l : List α) : List α :=
  if l.getLast? = some d then [d] else []

/-- A line without the delimiter that ends it. -/
def chomp (d : α) (l : List α) : List α :=
  if l.getLast? = some d then l.dropLast else l

theorem split_last (hl : d ∉ l) (hne : l ≠ []) : split d l = [l] := by
  induction l with
  | nil => exact absurd rfl hne
  | cons a l ih =>
      have ha : a ≠ d := fun h => hl (h ▸ List.mem_cons_self)
      have htail : d ∉ l := fun h => hl (List.mem_cons_of_mem a h)
      rw [split, if_neg ha]
      by_cases hnil : l = []
      · rw [hnil]
        rfl
      · rw [ih htail hnil]

theorem split_line (hl : d ∉ l) :
    split d (l ++ d :: rest) = (l ++ [d]) :: split d rest := by
  induction l with
  | nil => exact if_pos rfl
  | cons a l ih =>
      have ha : a ≠ d := fun h => hl (h ▸ List.mem_cons_self)
      have htail : d ∉ l := fun h => hl (List.mem_cons_of_mem a h)
      rw [List.cons_append, split, if_neg ha, ih htail]
      rfl

/-- Nothing is lost or added by splitting. -/
theorem flatten_split (d : α) (l : List α) : (split d l).flatten = l := by
  induction l using Framing.lines_induction d with
  | last l hl =>
      by_cases hnil : l = []
      · rw [hnil]
        rfl
      · rw [split_last hl hnil, List.flatten_singleton]
  | line l rest hl ih =>
      rw [split_line hl, List.flatten_cons, ih, List.append_assoc,
        List.singleton_append]

/-! ## Ends -/

theorem ending_last (hl : d ∉ l) : ending d l = [] := if_neg (getLast?_ne hl)

theorem ending_line (hne : rest ≠ []) :
    ending d (l ++ d :: rest) = ending d rest := by
  unfold ending
  rw [getLast?_line hne]

theorem ending_append (hne : s ≠ []) : ending d (p ++ s) = ending d s := by
  unfold ending
  rw [List.getLast?_append, List.getLast?_eq_some_getLast hne]
  rfl

theorem chomp_last (hl : d ∉ l) : chomp d l = l := if_neg (getLast?_ne hl)

theorem chomp_line : chomp d (l ++ [d]) = l := by
  simp [chomp]

/-! ## The number of lines -/

theorem count_last (hl : d ∉ l) (hne : l ≠ []) : count d l = 1 := by
  rw [count, if_neg (fun h => hne ((atBoundary_last hl).mp h)),
    List.count_eq_zero_of_not_mem hl]

theorem count_line (hl : d ∉ l) :
    count d (l ++ d :: rest) = count d rest + 1 := by
  simp only [count, atBoundary_line, List.count_append, List.count_cons_self,
    List.count_eq_zero_of_not_mem hl]
  omega

/-- Splitting finds each line. -/
theorem length_split (d : α) (l : List α) : (split d l).length = count d l := by
  induction l using Framing.lines_induction d with
  | last l hl =>
      by_cases hnil : l = []
      · rw [hnil]
        rfl
      · rw [split_last hl hnil, count_last hl hnil]
        rfl
  | line l rest hl ih =>
      rw [split_line hl, count_line hl, List.length_cons, ih]

theorem count_eq_zero_iff : count d l = 0 ↔ l = [] := by
  constructor
  · intro h
    rw [← flatten_split d l, List.eq_nil_of_length_eq_zero
      ((length_split d l).trans h)]
    rfl
  · rintro rfl
    rfl

/-! ## Cutting -/

/-- At a boundary the lines before and after it are put one after the other. -/
theorem split_append (hp : AtBoundary d p) :
    split d (p ++ s) = split d p ++ split d s := by
  induction p using Framing.lines_induction d with
  | last l hl =>
      rw [(atBoundary_last hl).mp hp]
      rfl
  | line l rest hl ih =>
      rw [List.append_assoc, List.cons_append, split_line hl, split_line hl,
        ih (atBoundary_line.mp hp)]
      rfl

/-- A cut between two lines is a cut of the text. -/
theorem exists_cut (d : α) (l : List α) (k : ℕ) :
    ∃ p s, l = p ++ s ∧ (s ≠ [] → AtBoundary d p) ∧
      split d s = (split d l).drop k := by
  induction l using Framing.lines_induction d generalizing k with
  | last l hl =>
      cases k with
      | zero => exact ⟨[], l, rfl, fun _ => atBoundary_nil, rfl⟩
      | succ k =>
          refine ⟨l, [], (List.append_nil l).symm, fun h => absurd rfl h, ?_⟩
          by_cases hnil : l = []
          · rw [hnil]
            rfl
          · rw [split_last hl hnil, List.drop_succ_cons, List.drop_nil]
            rfl
  | line l rest hl ih =>
      cases k with
      | zero => exact ⟨[], l ++ d :: rest, rfl, fun _ => atBoundary_nil, rfl⟩
      | succ k =>
          obtain ⟨p, s, hrest, hboundary, hdrop⟩ := ih k
          refine ⟨l ++ d :: p, s, ?_, ?_, ?_⟩
          · rw [hrest, List.append_assoc, List.cons_append]
          · intro hne
            exact atBoundary_line.mpr (hboundary hne)
          · rw [split_line hl, List.drop_succ_cons]
            exact hdrop

/-! ## Joining -/

/-- The lines joined are the text again, but for the delimiter at its end. -/
theorem join_split (d : α) (l : List α) :
    List.intercalate [d] ((split d l).map (chomp d)) ++ ending d l = l := by
  induction l using Framing.lines_induction d with
  | last l hl =>
      rw [ending_last hl, List.append_nil]
      by_cases hnil : l = []
      · rw [hnil]
        rfl
      · rw [split_last hl hnil, List.map_singleton, chomp_last hl,
          List.intercalate_singleton]
  | line l rest hl ih =>
      rw [split_line hl, List.map_cons, chomp_line]
      cases hsplit : split d rest with
      | nil =>
          have hnil : rest = [] := by
            rw [← flatten_split d rest, hsplit]
            rfl
          subst hnil
          simp [ending]
      | cons line lines =>
          have hne : rest ≠ [] := by
            rintro rfl
            cases hsplit
          rw [hsplit, List.map_cons] at ih
          rw [List.map_cons, List.intercalate_cons_cons, ending_line hne,
            List.append_assoc, ih, List.append_assoc, List.singleton_append]

/-- The last `n` lines, each after `f`, joined. -/
def joinLast (d : α) (f : List α → List α) (n : ℕ) (l : List α) : List α :=
  List.intercalate [d]
    (((split d l).map f).drop (((split d l).map f).length - n))

/-- The last lines do not depend on what stands before a boundary. -/
theorem joinLast_append {f : List α → List α} {n : ℕ} (hp : AtBoundary d p)
    (hn : n ≤ count d s) : joinLast d f n (p ++ s) = joinLast d f n s := by
  unfold joinLast
  rw [split_append hp, List.map_append]
  have hlength : n ≤ ((split d s).map f).length := by
    rw [List.length_map, length_split]
    exact hn
  congr 1
  rw [List.length_append, Nat.add_sub_assoc hlength, List.drop_append]
  simp

/-- A part of no lines at the end of a text ends in nothing, any other part as
the text does. -/
theorem ending_of_cut {n : ℕ} (hcut : l = p ++ s)
    (hcount : count d s = min n (count d l)) :
    ending d s = if n = 0 ∨ count d l = 0 then [] else ending d l := by
  by_cases hs : s = []
  · have hzero : count d s = 0 := count_eq_zero_iff.mpr hs
    rw [if_pos (by omega), hs]
    rfl
  · have hpos : count d s ≠ 0 := fun h => hs (count_eq_zero_iff.mp h)
    rw [if_neg (by omega), hcut, ending_append hs]

/-- The last lines are the end of the text, from a place where a line may start,
but for the delimiter at the end. -/
theorem joinLast_spec (d : α) (n : ℕ) (l : List α) :
    ∃ p s, l = p ++ s ∧ (n ≠ 0 → AtBoundary d p) ∧
      count d s = min n (count d l) ∧
      joinLast d (chomp d) n l ++ ending d s = s := by
  obtain ⟨p, s, hcut, hboundary, hdrop⟩ :=
    exists_cut d l ((split d l).length - n)
  have hcount : count d s = min n (count d l) := by
    rw [← length_split, hdrop, List.length_drop, length_split]
    omega
  refine ⟨p, s, hcut, ?_, hcount, ?_⟩
  · intro hn
    by_cases hs : s = []
    · have hnone : count d l = 0 := by
        rw [hs] at hcount
        have hzero : count d ([] : List α) = 0 := rfl
        omega
      rw [count_eq_zero_iff.mp hnone] at hcut
      rw [(List.append_eq_nil_iff.mp hcut.symm).1]
      exact atBoundary_nil
    · exact hboundary hs
  · unfold joinLast
    rw [List.length_map, ← List.map_drop, ← hdrop]
    exact join_split d s

end Lines
