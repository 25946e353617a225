import Mathlib.Data.List.Basic

/-!
# Event logs

A log, newest event first, is the story of how one state became another: each
of its events happened in the state the older ones led to.  A story may also
record that every event had a cause in the state it happened in.

Some events must not come unannounced: such an event needs a herald among the
older ones, and nothing in between that makes the herald void.
-/

namespace EventLog

variable {State Event : Type*}

/-- `Story happens cause s log t`: the events of `log` lead from `s` to `t`,
and each had a cause when it happened. -/
inductive Story (happens : State → Event → State → Prop)
    (cause : State → Event → Prop) : State → List Event → State → Prop
  | nil (s : State) : Story happens cause s [] s
  | cons {s t u : State} {e : Event} {log : List Event}
      (before : Story happens cause s log t) (why : cause t e)
      (now : happens t e u) : Story happens cause s (e :: log) u

namespace Story

variable {happens : State → Event → State → Prop}
  {cause cause' : State → Event → Prop}
  {s t u : State} {e : Event} {log log' : List Event}

theorem single (why : cause s e) (now : happens s e t) :
    Story happens cause s [e] t :=
  .cons (.nil s) why now

theorem append (h : Story happens cause s log t)
    (h' : Story happens cause t log' u) :
    Story happens cause s (log' ++ log) u := by
  induction h' with
  | nil => exact h
  | cons _ why now ih => exact .cons ih why now

theorem mono (hcause : ∀ s e, cause s e → cause' s e)
    (h : Story happens cause s log t) : Story happens cause' s log t := by
  induction h with
  | nil => exact .nil _
  | cons _ why now ih => exact .cons ih (hcause _ _ why) now

/-- The invariant rule: what every event preserves holds at the end. -/
theorem preserves {I : State → Prop}
    (hI : ∀ s e t, cause s e → happens s e t → I s → I t)
    (h : Story happens cause s log t) (hs : I s) : I t := by
  induction h with
  | nil => exact hs
  | cons _ why now ih => exact hI _ _ _ why now ih

/-- The invariant rule for properties of the state and the whole log. -/
theorem preserves_log {I : List Event → State → Prop}
    (hI : ∀ log s e t, cause s e → happens s e t → I log s → I (e :: log) t)
    (h : Story happens cause s log t) (hs : I log' s) :
    I (log ++ log') t := by
  induction h with
  | nil => exact hs
  | cons _ why now ih => exact hI _ _ _ _ why now ih

/-- The refinement rule: if every event is an event of a second system as well,
or nothing to it, a story is a story of the second system. -/
theorem simulates {State' Event' : Type*}
    {happens' : State' → Event' → State' → Prop} (abs : State → State')
    (move : Event → Option Event')
    (hmove : ∀ s e t, happens s e t →
      (∃ m, move e = some m ∧ happens' (abs s) m (abs t)) ∨
        (move e = none ∧ abs t = abs s))
    (h : Story happens cause s log t) :
    Story happens' (fun _ _ => True) (abs s) (log.filterMap move) (abs t) := by
  induction h with
  | nil => exact .nil _
  | cons _ why now ih =>
      rcases hmove _ _ _ now with ⟨m, hm, hnow⟩ | ⟨hnone, hsame⟩
      · rw [List.filterMap_cons_some hm]
        exact .cons ih trivial hnow
      · rw [List.filterMap_cons_none hnone, hsame]
        exact ih

/-- The replay rule: where an event leaves no choice of what it leads to, a
story can be read off its log. -/
theorem eq_foldr {replay : Event → State → State}
    (hreplay : ∀ s e t, happens s e t → t = replay e s)
    (h : Story happens cause s log t) : t = log.foldr replay s := by
  induction h with
  | nil => rfl
  | cons _ why now ih =>
      rw [List.foldr_cons, ← ih]
      exact hreplay _ _ _ now

end Story

/-! ## Heralds -/

section Heralds

variable {needs : Event → Prop} {heralds voids : Event → Event → Prop}
  {e : Event} {log log' : List Event}

/-- Some event of the log heralds `e`, and nothing since then makes it void. -/
def HasHerald (heralds voids : Event → Event → Prop) (e : Event)
    (log : List Event) : Prop :=
  ∃ since herald earlier, log = since ++ herald :: earlier ∧
    heralds herald e ∧ ∀ e' ∈ since, ¬ voids e' e

/-- Every event of the log that needs a herald has one. -/
def Heralded (needs : Event → Prop) (heralds voids : Event → Event → Prop) :
    List Event → Prop
  | [] => True
  | e :: log =>
      (needs e → HasHerald heralds voids e log) ∧
        Heralded needs heralds voids log

theorem HasHerald.append (h : HasHerald heralds voids e log)
    (older : List Event) : HasHerald heralds voids e (log ++ older) := by
  obtain ⟨since, herald, earlier, rfl, hheralds, hsince⟩ := h
  exact ⟨since, herald, earlier ++ older, by simp, hheralds, hsince⟩

/-- What does not make the herald void may come in between. -/
theorem HasHerald.later (h : HasHerald heralds voids e log)
    (hnew : ∀ e' ∈ log', ¬ voids e' e) :
    HasHerald heralds voids e (log' ++ log) := by
  obtain ⟨since, herald, earlier, rfl, hheralds, hsince⟩ := h
  refine ⟨log' ++ since, herald, earlier, by simp, hheralds, ?_⟩
  intro e' he'
  rcases List.mem_append.mp he' with he' | he'
  · exact hnew e' he'
  · exact hsince e' he'

theorem Heralded.append (h' : Heralded needs heralds voids log')
    (h : Heralded needs heralds voids log) :
    Heralded needs heralds voids (log' ++ log) := by
  induction log' with
  | nil => exact h
  | cons e log' ih => exact ⟨fun he => (h'.1 he).append log, ih h'.2⟩

theorem heralded_of_forall_not (h : ∀ e ∈ log, ¬ needs e) :
    Heralded needs heralds voids log := by
  induction log with
  | nil => trivial
  | cons e log ih =>
      refine ⟨fun he => absurd he (h e List.mem_cons_self), ih fun e' he' => ?_⟩
      exact h e' (List.mem_cons_of_mem e he')

/-- Every event of a heralded log, with the older ones. -/
theorem heralded_iff :
    Heralded needs heralds voids log ↔
      ∀ newer e older, log = newer ++ e :: older → needs e →
        HasHerald heralds voids e older := by
  induction log with
  | nil => simp [Heralded]
  | cons e log ih =>
      constructor
      · rintro ⟨hfirst, hrest⟩ (_ | ⟨e', newer⟩) e'' older hlog he
        · cases hlog
          exact hfirst he
        · cases hlog
          exact ih.mp hrest newer e'' older rfl he
      · intro h
        refine ⟨h [] e log rfl, ih.mpr fun newer e' older hlog he' => ?_⟩
        exact h (e :: newer) e' older (by rw [hlog]; rfl) he'

end Heralds

end EventLog
