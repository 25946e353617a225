import Mathlib.Data.List.DropRight
import Mathlib.Data.List.Induction

/-!
# Counters that are meant to measure streaks

A counter watches a history, oldest element first.  Some elements clear it,
some it counts, and it starts again when it reaches a threshold `n`, so it holds
the count since the last element that clears it, modulo `n`.  One would like it
to reach `n` only when the last `n` elements all count.  That is so exactly when
no element that neither counts nor clears falls into a round that the counter
completes.
-/

namespace Streak

/-- What an element of the history is for the counter.  An element that
interrupts is one the counter does not see, although it ends the streak; an
element that is ignored belongs to no streak. -/
inductive Effect
  | clear
  | count
  | interrupt
  | ignore
deriving DecidableEq, Repr

variable {α : Type*} (effect : α → Effect)

/-- The elements that count after the last one that clears. -/
def countSince (h : List α) : ℕ :=
  (h.rtakeWhile fun a => effect a ≠ .clear).countP fun a => effect a = .count

/-- The elements that count before the first one that clears. -/
def countUntil (h : List α) : ℕ :=
  (h.takeWhile fun a => effect a ≠ .clear).countP fun a => effect a = .count

/-- How many of the last elements count, those that are ignored left out. -/
def streak (h : List α) : ℕ :=
  ((h.filter fun a => effect a ≠ .ignore).rtakeWhile fun a =>
    effect a = .count).length

variable {effect} {h : List α} {a : α} {n : ℕ}

/-! ## One element more -/

theorem countSince_clear (ha : effect a = .clear) :
    countSince effect (h ++ [a]) = 0 := by
  rw [countSince, List.rtakeWhile_concat_neg _ _ _ (by simp [ha])]
  rfl

theorem countSince_keep (ha : effect a ≠ .clear) :
    countSince effect (h ++ [a]) =
      countSince effect h + if effect a = .count then 1 else 0 := by
  rw [countSince, List.rtakeWhile_concat_pos _ _ _ (by simp [ha]),
    List.countP_append, List.countP_singleton]
  simp [countSince]

theorem countSince_count (ha : effect a = .count) :
    countSince effect (h ++ [a]) = countSince effect h + 1 := by
  rw [countSince_keep (by simp [ha]), if_pos ha]

theorem countSince_other (hclear : effect a ≠ .clear)
    (hcount : effect a ≠ .count) :
    countSince effect (h ++ [a]) = countSince effect h := by
  rw [countSince_keep hclear, if_neg hcount, Nat.add_zero]

theorem streak_count (ha : effect a = .count) :
    streak effect (h ++ [a]) = streak effect h + 1 := by
  have hlast : [a].filter (fun b => effect b ≠ .ignore) = [a] := by simp [ha]
  rw [streak, List.filter_append, hlast,
    List.rtakeWhile_concat_pos _ _ _ (by simp [ha]), List.length_append]
  rfl

theorem streak_ignore (ha : effect a = .ignore) :
    streak effect (h ++ [a]) = streak effect h := by
  have hlast : [a].filter (fun b => effect b ≠ .ignore) = [] := by simp [ha]
  rw [streak, List.filter_append, hlast, List.append_nil, streak]

theorem streak_end (hcount : effect a ≠ .count) (hignore : effect a ≠ .ignore) :
    streak effect (h ++ [a]) = 0 := by
  have hlast : [a].filter (fun b => effect b ≠ .ignore) = [a] := by
    simp [hignore]
  rw [streak, List.filter_append, hlast,
    List.rtakeWhile_concat_neg _ _ _ (by simp [hcount])]
  rfl

/-- More elements without one that clears. -/
theorem countSince_append {h' : List α} (hclear : ∀ b ∈ h', effect b ≠ .clear) :
    countSince effect (h ++ h') =
      countSince effect h + h'.countP fun b => effect b = .count := by
  induction h' using List.reverseRecOn with
  | nil => simp
  | append_singleton h' b ih =>
      have hb : effect b ≠ .clear := hclear b (by simp)
      have hrest : ∀ c ∈ h', effect c ≠ .clear := by
        intro c hc
        exact hclear c (List.mem_append_left _ hc)
      rw [← List.append_assoc, countSince_keep hb, ih hrest, List.countP_append,
        List.countP_singleton, Nat.add_assoc]
      simp

/-- A streak does not reach behind an element that interrupts it. -/
theorem streak_le_of_interrupt {h' : List α} (ha : effect a = .interrupt) :
    streak effect (h ++ a :: h') ≤ h'.countP fun b => effect b = .count := by
  induction h' using List.reverseRecOn with
  | nil =>
      exact Nat.le_of_eq (streak_end (by simp [ha]) (by simp [ha]))
  | append_singleton h' b ih =>
      have hsplit : h ++ a :: (h' ++ [b]) = (h ++ a :: h') ++ [b] := by simp
      rw [hsplit, List.countP_append, List.countP_singleton]
      by_cases hb : effect b = .count
      · rw [streak_count hb, if_pos (by simp [hb])]
        exact Nat.succ_le_succ ih
      · by_cases hignore : effect b = .ignore
        · rw [streak_ignore hignore]
          exact Nat.le_add_right_of_le ih
        · rw [streak_end hb hignore]
          exact Nat.zero_le _

/-- The last `n` elements, those ignored left out, are all `a`. -/
theorem le_streak_iff [DecidableEq α] (ha : ∀ b, effect b = .count ↔ b = a) :
    n ≤ streak effect h ↔
      List.replicate n a <:+ h.filter fun b => effect b ≠ .ignore := by
  rw [streak]
  generalize h.filter (fun b => effect b ≠ .ignore) = l
  induction l using List.reverseRecOn generalizing n with
  | nil => simp [List.suffix_nil, List.replicate_eq_nil_iff]
  | append_singleton l b ih =>
      cases n with
      | zero => simp
      | succ n =>
          rw [List.replicate_succ', List.suffix_concat_iff]
          by_cases hb : b = a
          · subst hb
            rw [List.rtakeWhile_concat_pos _ _ _ (by simp [ha]),
              List.length_append, List.length_singleton, Nat.succ_le_succ_iff,
              ih]
            simp
          · rw [List.rtakeWhile_concat_neg _ _ _ (by simp [ha, hb])]
            simp [Ne.symm hb]

/-! ## Rounds of the counter -/

/-- The counter goes up by one, or starts again when it reaches `n`. -/
theorem add_one_mod (hn : 0 < n) (k : ℕ) :
    (k + 1) % n = if k % n + 1 = n then 0 else k % n + 1 := by
  have hlt : k % n < n := Nat.mod_lt k hn
  rw [← Nat.mod_add_mod]
  split
  next hfull => rw [hfull, Nat.mod_self]
  next hfull => exact Nat.mod_eq_of_lt (by omega)

theorem dvd_add_one_iff (hn : 0 < n) (k : ℕ) :
    n ∣ k + 1 ↔ k % n + 1 = n := by
  rw [Nat.dvd_iff_mod_eq_zero, add_one_mod hn]
  split <;> simp_all

theorem countUntil_append {h' : List α} (hclear : ∀ b ∈ h, effect b ≠ .clear) :
    countUntil effect (h ++ h') =
      (h.countP fun b => effect b = .count) + countUntil effect h' := by
  have hall : ∀ b ∈ h, decide (effect b ≠ .clear) = true := by
    intro b hb
    exact decide_eq_true (hclear b hb)
  rw [countUntil, List.takeWhile_append_of_pos hall, List.countP_append]
  rfl

/-- The element that counts after `n` others that do. -/
theorem exists_of_lt_countUntil (hn : n < countUntil effect h) :
    ∃ b a c, h = b ++ a :: c ∧ effect a = .count ∧
      (∀ x ∈ b, effect x ≠ .clear) ∧
      (b.countP fun x => effect x = .count) = n := by
  induction h generalizing n with
  | nil => cases hn
  | cons x h ih =>
      by_cases hclear : effect x = .clear
      · simp [countUntil, hclear] at hn
      have hstep : countUntil effect (x :: h) =
          (if effect x = .count then 1 else 0) + countUntil effect h := by
        have hone : countUntil effect ([x] ++ h) = _ :=
          countUntil_append (by simpa using hclear)
        simpa [List.countP_singleton] using hone
      by_cases hcount : effect x = .count
      · cases n with
        | zero => exact ⟨[], x, h, rfl, hcount, by simp, rfl⟩
        | succ n =>
            rw [hstep, if_pos hcount] at hn
            obtain ⟨b, a, c, rfl, ha, hb, hn⟩ := ih (n := n) (by omega)
            refine ⟨x :: b, a, c, rfl, ha, ?_, ?_⟩
            · simpa [hclear] using hb
            · simp [hcount, hn]
      · rw [hstep, if_neg hcount, Nat.zero_add] at hn
        obtain ⟨b, a, c, rfl, ha, hb, hn⟩ := ih hn
        refine ⟨x :: b, a, c, rfl, ha, ?_, ?_⟩
        · simpa [hclear] using hb
        · simp [hcount, hn]

/-- The round that the history ends in was interrupted. -/
def Broken (effect : α → Effect) (n : ℕ) (h : List α) : Prop :=
  ∃ b a c, h = b ++ a :: c ∧ effect a = .interrupt ∧
    countSince effect b % n ≠ 0 ∧ (∀ x ∈ c, effect x ≠ .clear) ∧
    countSince effect b % n + (c.countP fun x => effect x = .count) =
      countSince effect h % n

theorem Broken.concat (h' : Broken effect n h) (hclear : effect a ≠ .clear)
    (hround : countSince effect (h ++ [a]) % n = countSince effect h % n +
      if effect a = .count then 1 else 0) : Broken effect n (h ++ [a]) := by
  obtain ⟨b, x, c, hsplit, hx, hopen, hc, hcount⟩ := h'
  refine ⟨b, x, c ++ [a], by simp [hsplit], hx, hopen, ?_, ?_⟩
  · intro y hy
    rcases List.mem_append.mp hy with hy | hy
    · exact hc y hy
    · rw [List.mem_singleton.mp hy]
      exact hclear
  · rw [hround, ← hcount, List.countP_append, List.countP_singleton]
    simp [Nat.add_assoc]

/-- The round that the history ends in is part of the streak, unless it was
interrupted. -/
theorem round_le_streak_or (hn : 0 < n) :
    countSince effect h % n ≤ streak effect h ∨ Broken effect n h := by
  induction h using List.reverseRecOn with
  | nil => exact Or.inl (Nat.le_of_eq (Nat.zero_mod n))
  | append_singleton h x ih =>
      cases hx : effect x with
      | clear =>
          left
          rw [countSince_clear hx, Nat.zero_mod]
          exact Nat.zero_le _
      | count =>
          have hround : countSince effect (h ++ [x]) % n = _ :=
            (congrArg (· % n) (countSince_count hx)).trans (add_one_mod hn _)
          by_cases hfull : countSince effect h % n + 1 = n
          · left
            rw [hround, if_pos hfull]
            exact Nat.zero_le _
          · rw [if_neg hfull] at hround
            refine ih.imp (fun hle => ?_) fun hbroken => ?_
            · rw [hround, streak_count hx]
              exact Nat.succ_le_succ hle
            · exact hbroken.concat (by simp [hx]) (by rw [hround, if_pos hx])
      | interrupt =>
          have hsame : countSince effect (h ++ [x]) = countSince effect h :=
            countSince_other (by simp [hx]) (by simp [hx])
          by_cases hopen : countSince effect h % n = 0
          · left
            rw [hsame, hopen]
            exact Nat.zero_le _
          · refine Or.inr ⟨h, x, [], rfl, hx, hopen, by simp, ?_⟩
            rw [hsame]
            rfl
      | ignore =>
          have hsame : countSince effect (h ++ [x]) = countSince effect h :=
            countSince_other (by simp [hx]) (by simp [hx])
          refine ih.imp (fun hle => ?_) fun hbroken => ?_
          · rw [hsame, streak_ignore hx]
            exact hle
          · exact hbroken.concat (by simp [hx]) (by simp [hsame, hx])

/-- An element interrupts a round that the counter completes later. -/
def Interrupted (effect : α → Effect) (n : ℕ) (h : List α) : Prop :=
  ∃ b a c, h = b ++ a :: c ∧ effect a = .interrupt ∧
    countSince effect b % n ≠ 0 ∧
    n ≤ countSince effect b % n + countUntil effect c

/-- Whenever the counter completes a round, the last `n` elements count,
exactly if no completed round is interrupted. -/
theorem streak_iff_not_interrupted (effect : α → Effect) (h : List α)
    (hn : 0 < n) :
    (∀ b a c, h = b ++ a :: c → effect a = .count →
      n ∣ countSince effect (b ++ [a]) → n ≤ streak effect (b ++ [a])) ↔
      ¬ Interrupted effect n h := by
  constructor
  · rintro hstreak ⟨b, a, c, rfl, ha, hopen, hfull⟩
    have hround : countSince effect b % n < n := Nat.mod_lt _ hn
    -- the element that completes the round
    have hlater : n - countSince effect b % n - 1 < countUntil effect c := by
      omega
    obtain ⟨c, x, d, rfl, hx, hclear, hcount⟩ := exists_of_lt_countUntil hlater
    have hcount' : countSince effect ((b ++ a :: c) ++ [x]) =
        countSince effect b + (n - countSince effect b % n) := by
      have hac : ∀ y ∈ a :: c, effect y ≠ .clear := by
        simpa [ha] using hclear
      rw [countSince_count hx, countSince_append hac, List.countP_cons, hcount]
      simp [ha]
      omega
    have hdvd : n ∣ countSince effect ((b ++ a :: c) ++ [x]) := by
      rw [hcount']
      exact ⟨countSince effect b / n + 1, by
        rw [Nat.mul_add, Nat.mul_one]
        have := Nat.div_add_mod (countSince effect b) n
        omega⟩
    have hlong := hstreak (b ++ a :: c) x d (by simp) hx hdvd
    have hshort : streak effect (b ++ a :: (c ++ [x])) ≤ _ :=
      streak_le_of_interrupt ha
    rw [List.countP_append, List.countP_singleton, if_pos (by simp [hx]),
      hcount] at hshort
    rw [List.append_assoc, List.cons_append] at hlong
    have hpos := Nat.pos_of_ne_zero hopen
    omega
  · rintro hnot b a c rfl ha hdvd
    rw [countSince_count ha] at hdvd
    have hround : countSince effect b % n + 1 = n :=
      (dvd_add_one_iff hn _).mp hdvd
    rw [streak_count ha]
    have hor : countSince effect b % n ≤ streak effect b ∨
        Broken effect n b := round_le_streak_or hn
    rcases hor with hle | ⟨b', a', c', rfl, ha', hopen, hclear, hcount⟩
    · omega
    · refine absurd ⟨b', a', c' ++ a :: c, by simp, ha', hopen, ?_⟩ hnot
      have hone : countUntil effect (a :: c) = 1 + countUntil effect c := by
        have h : countUntil effect ([a] ++ c) = _ :=
          countUntil_append (by simp [ha])
        simpa [List.countP_singleton, ha] using h
      rw [countUntil_append hclear, hone]
      omega

end Streak
