import Teeproxyd.Ipc.Answers

/-!
# Clients that do not let go

A stream of bytes need not end.  `handle_client` returns when a read finds no
line or a response cannot be written, and neither is up to the daemon: the read
timeout is for each read, the cap for each line, and a write has no timeout.
Nothing bounds the number of iterations.
-/

namespace Teeproxyd

open Framing TransitionSystem Utf8

/-! ## The loop on a stream that need not end -/

/-- What the read of a byte finds: the byte, when it has waited so long for it,
or the end of the stream, or an error. -/
inductive Arrival
  | byte (wait : ℕ) (b : UInt8)
  | eof
  | error
deriving DecidableEq, Repr

/-- What `set_read_timeout` is given for an accepted stream. -/
def readTimeout : ℕ := fromSecs 5

def Arrival.read : Arrival → Except StreamEnd UInt8
  | byte wait b => if wait < readTimeout then .ok b else .error .error
  | eof => .error .eof
  | error => .error .error

/-- A client as `handle_client` sees it. -/
structure Client where
  /-- What the read of the nth byte finds. -/
  arrival : ℕ → Arrival
  /-- Whether the write of the nth response comes to an end, well or not. -/
  takes : ℕ → Bool

namespace Client

variable (client : Client)

/-- The bytes from the `p`th on, but no more than `n` of them, and what comes
behind them if they are less. -/
def ahead : ℕ → ℕ → List UInt8 × StreamEnd
  | 0, _ => ([], .eof)
  | n + 1, p =>
      match (client.arrival p).read with
      | .error ending => ([], ending)
      | .ok b => (b :: (ahead n (p + 1)).1, (ahead n (p + 1)).2)

/-- `read_line` on the reader that `take` limits, when `p` bytes have been read:
the line, and how many have been read then. -/
def readLine (p : ℕ) : Option (List Char × ℕ) :=
  (Teeproxyd.readLine (client.ahead maxRequestLineBytes p).2
    (client.ahead maxRequestLineBytes p).1).map fun (line, _) =>
      (line, p + (encode line).length)

/-- The read that follows, unless the loop ends with it. -/
def nextLine (p : ℕ) : Option (List Char × ℕ) :=
  match client.readLine p with
  | some (ch :: line, q) => some (ch :: line, q)
  | _ => none

/-- The lines that the first `n` reads bring, and how many bytes they take. -/
def linesTo : ℕ → Option (List (List Char) × ℕ)
  | 0 => some ([], 0)
  | n + 1 =>
      (linesTo n).bind fun (lines, p) =>
        (client.nextLine p).map fun (line, q) => (lines ++ [line], q)

end Client

/-- A session with a client. -/
structure Attendance where
  session : Session
  /-- How many bytes have been read. -/
  position : ℕ
  /-- The write of a response does not come to an end. -/
  stuck : Bool

namespace Attendance

/-- The loop goes on. -/
def Goes (a : Attendance) : Prop :=
  a.session.status = .serving ∧ a.stuck = false

instance (a : Attendance) : Decidable a.Goes :=
  inferInstanceAs (Decidable (_ ∧ _))

/-- `handle_client` has returned. -/
def Returned (a : Attendance) : Prop :=
  a.session.status = .closed ∧ a.stuck = false

end Attendance

namespace ClientCall

variable (c : ClientCall) (client : Client)

/-- One iteration of the loop. -/
def attend (a : Attendance) : Attendance :=
  if a.Goes then
    match client.nextLine a.position with
    | none => { a with session := { a.session with status := .closed } }
    | some (line, position) =>
        let s := c.handleLine line a.session
        let n := a.session.responses.length
        ⟨s, position, n < s.responses.length && !client.takes n⟩
  else a

/-- The session when it begins. -/
def accept (sys : Sys) : Attendance := ⟨start sys [], 0, false⟩

/-- The session after `k` iterations. -/
def attended (sys : Sys) (k : ℕ) : Attendance :=
  (c.attend client)^[k] (accept sys)

/-- `handle_client` returns, and dispatches `n` requests at most. -/
def ReturnsWithin (sys : Sys) (n : ℕ) : Prop :=
  ∃ k, (c.attended client sys k).Returned ∧
    (c.attended client sys k).session.requests.length ≤ n

end ClientCall

/-! ## When a client lets go -/

/-- The lines that are not blank, without their ends. -/
def textsIn (lines : List (List Char)) : List (List Char) :=
  (lines.map trimLine).filter (· ≠ [])

namespace ClientCall

variable (c : ClientCall) (client : Client)

/-- The requests among the lines. -/
def requestsIn (lines : List (List Char)) : List Value :=
  (textsIn lines).filterMap c.parse

/-- Answering the lines makes the daemon not panic, and the writes of the
responses come to an end. -/
structure Clean (sys : Sys) (lines : List (List Char)) : Prop where
  answered : ∃ served responses,
    c.answerAll ⟨sys, []⟩ (textsIn lines) = .ok (served, responses)
  taken : ∀ j < (textsIn lines).length, client.takes j = true

/-- After some clean lines with no more than `n` requests, a read finds no line,
or the response to one of the requests could not be written. -/
def LetsGo (sys : Sys) (n : ℕ) : Prop :=
  ∃ k lines p, client.linesTo k = some (lines, p) ∧
    c.Clean client sys lines ∧ (c.requestsIn lines).length ≤ n ∧
    (client.nextLine p = none ∨
      ∃ j < (c.requestsIn lines).length, c.reply j ≠ none)

variable {c : ClientCall} {client : Client} {sys : Sys} {s : Session}
  {a : Attendance} {lines : List (List Char)} {k n p : ℕ}

/-! ## One line -/

theorem textsIn_append (lines lines' : List (List Char)) :
    textsIn (lines ++ lines') = textsIn lines ++ textsIn lines' := by
  simp [textsIn]

theorem textsIn_blank {line : List Char} (hblank : trimLine line = []) :
    textsIn [line] = [] := by
  simp [textsIn, hblank]

theorem textsIn_text {line : List Char} (htext : trimLine line ≠ []) :
    textsIn [line] = [trimLine line] := by
  simp [textsIn, htext]

/-- The managers and the kernel, the requests and the responses of the session
are these. -/
structure Holds (s : Session) (served : Served) (responses : List Value) :
    Prop where
  sys : s.sys = served.sys
  requests : s.requests = served.requests
  responses : s.responses = responses

/-- A line does what answering it does; whether the session goes on after that
is a matter of the response to a request in it. -/
theorem handleLine_answered {line : List Char} {served : Served}
    {vs : List Value} (hs : s.status = .serving)
    (hwritten : ∀ j < s.requests.length, c.reply j = none)
    (hanswer : c.answerAll ⟨s.sys, s.requests⟩ (textsIn [line]) =
      .ok (served, vs)) :
    Holds (c.handleLine line s) served (s.responses ++ vs) ∧
      (((c.handleLine line s).status = .serving ∧
          ∀ j < served.requests.length, c.reply j = none) ∨
        ((c.handleLine line s).status = .closed ∧
          ∃ j < served.requests.length, c.reply j ≠ none)) := by
  by_cases hblank : trimLine line = []
  · rw [textsIn_blank hblank] at hanswer
    cases hanswer
    have hskip : c.handleLine line s = s := if_pos hblank
    rw [hskip]
    exact ⟨⟨rfl, rfl, (List.append_nil _).symm⟩, Or.inl ⟨hs, hwritten⟩⟩
  rw [textsIn_text hblank] at hanswer
  obtain ⟨mid, v, vs', hline, hnil, rfl⟩ := answerAll_cons hanswer
  cases hnil
  obtain ⟨result, status, hsession, hwrite⟩ := handleLine_ok hblank hline
  rw [hsession]
  refine ⟨⟨rfl, rfl, rfl⟩, ?_⟩
  rcases hwrite with ⟨hsame, -, rfl⟩ | ⟨hcount, rfl, rfl⟩
  · rw [hsame]
    exact Or.inl ⟨hs, hwritten⟩
  rw [hcount]
  by_cases hreply : c.reply s.requests.length = none
  · left
    constructor
    · exact if_pos hreply
    · intro j hj
      rcases Nat.lt_succ_iff_lt_or_eq.mp hj with hlt | rfl
      · exact hwritten j hlt
      · exact hreply
  · right
    constructor
    · exact if_neg hreply
    · exact ⟨s.requests.length, Nat.lt_succ_self _, hreply⟩

theorem handleLine_panics {line : List Char} {e : Kernel}
    (hanswer : c.answerAll ⟨s.sys, s.requests⟩ (textsIn [line]) = .error e) :
    (c.handleLine line s).status = .panicked := by
  by_cases hblank : trimLine line = []
  · rw [textsIn_blank hblank] at hanswer
    cases hanswer
  rw [textsIn_text hblank] at hanswer
  cases hline : c.answer ⟨s.sys, s.requests⟩ (trimLine line) with
  | error e' => exact (handleLine_error hblank hline).1
  | ok result =>
      rw [answerAll_ok hline] at hanswer
      cases hanswer

/-! ## Many lines -/

theorem Clean.of_append {lines' : List (List Char)}
    (h : c.Clean client sys (lines ++ lines')) : c.Clean client sys lines := by
  obtain ⟨⟨served, responses, hanswer⟩, htaken⟩ := h
  constructor
  · cases hfirst : c.answerAll ⟨sys, []⟩ (textsIn lines) with
    | error e =>
        rw [textsIn_append, answerAll_append, hfirst] at hanswer
        cases hanswer
    | ok result => exact ⟨result.1, result.2, rfl⟩
  · intro j hj
    apply htaken
    rw [textsIn_append, List.length_append]
    exact Nat.lt_add_right _ hj

/-- The loop goes on after these lines: they have been answered, and every
response has been written. -/
structure GoesAfter (c : ClientCall) (client : Client) (sys : Sys)
    (lines : List (List Char)) (a : Attendance) : Prop where
  goes : a.Goes
  answered : c.answerAll ⟨sys, []⟩ (textsIn lines) =
    .ok (⟨a.session.sys, a.session.requests⟩, a.session.responses)
  taken : ∀ j < (textsIn lines).length, client.takes j = true
  written : ∀ j < a.session.requests.length, c.reply j = none

theorem GoesAfter.clean (h : GoesAfter c client sys lines a) :
    c.Clean client sys lines :=
  ⟨⟨_, _, h.answered⟩, h.taken⟩

theorem GoesAfter.requests (h : GoesAfter c client sys lines a) :
    a.session.requests = c.requestsIn lines :=
  answerAll_requests h.answered

theorem GoesAfter.responses (h : GoesAfter c client sys lines a) :
    a.session.responses.length = (textsIn lines).length :=
  answerAll_length h.answered

theorem attend_goes (h : a.Goes) {line : List Char} {q : ℕ}
    (hline : client.nextLine a.position = some (line, q)) :
    c.attend client a =
      ⟨c.handleLine line a.session, q,
        a.session.responses.length <
            (c.handleLine line a.session).responses.length &&
          !client.takes a.session.responses.length⟩ := by
  rw [attend, if_pos h, hline]

theorem attend_ended (h : ¬ a.Goes) : c.attend client a = a := if_neg h

theorem length_textsIn (line : List Char) : (textsIn [line]).length ≤ 1 := by
  by_cases hblank : trimLine line = []
  · rw [textsIn_blank hblank]
    exact Nat.zero_le 1
  · rw [textsIn_text hblank]
    exact Nat.le_refl 1

section NextLine

variable {line : List Char} {q : ℕ} {served : Served} {vs : List Value}

/-- One more line is answered where the lines so far have left the session. -/
theorem GoesAfter.answerAll_line (h : GoesAfter c client sys lines a)
    (line : List Char) :
    c.answerAll ⟨sys, []⟩ (textsIn (lines ++ [line])) =
      (c.answerAll ⟨a.session.sys, a.session.requests⟩ (textsIn [line])).map
        fun result => (result.1, a.session.responses ++ result.2) := by
  rw [textsIn_append, answerAll_append, h.answered]
  rfl

/-- The loop is not stuck after a line if the client takes the response, should
there be one. -/
theorem GoesAfter.free_iff (h : GoesAfter c client sys lines a)
    (hline : client.nextLine a.position = some (line, q))
    (hanswer : c.answerAll ⟨a.session.sys, a.session.requests⟩
      (textsIn [line]) = .ok (served, vs)) :
    (c.attend client a).stuck = false ↔
      ∀ j < (textsIn (lines ++ [line])).length, client.takes j = true := by
  have hcount : (c.handleLine line a.session).responses.length =
      (textsIn (lines ++ [line])).length := by
    obtain ⟨hholds, -⟩ := handleLine_answered h.goes.1 h.written hanswer
    have hall := h.answerAll_line line
    rw [hanswer] at hall
    rw [hholds.responses]
    exact answerAll_length hall
  rw [attend_goes h.goes hline, hcount, h.responses]
  constructor
  · intro hfree j hj
    rcases Nat.lt_or_ge j (textsIn lines).length with hold | hnew
    · exact h.taken j hold
    · -- it is the response to this line
      have hone := length_textsIn line
      have hlength : (textsIn (lines ++ [line])).length =
          (textsIn lines).length + (textsIn [line]).length := by
        rw [textsIn_append, List.length_append]
      obtain rfl : j = (textsIn lines).length := by omega
      simpa [hj] using hfree
  · intro htaken
    by_cases hgrows : (textsIn lines).length <
        (textsIn (lines ++ [line])).length
    · simp [htaken _ hgrows]
    · simp [hgrows]

/-- A clean line is answered.  After it the loop goes on, or it has come to an
end because the response could not be written. -/
theorem GoesAfter.attend (h : GoesAfter c client sys lines a)
    (hline : client.nextLine a.position = some (line, q))
    (hclean : c.Clean client sys (lines ++ [line])) :
    (c.attend client a).session.requests = c.requestsIn (lines ++ [line]) ∧
      (GoesAfter c client sys (lines ++ [line]) (c.attend client a) ∨
        ((c.attend client a).Returned ∧
          ∃ j < (c.requestsIn (lines ++ [line])).length,
            c.reply j ≠ none)) := by
  obtain ⟨⟨served, responses, hall⟩, htaken⟩ := hclean
  have hanswer := h.answerAll_line line
  rw [hall] at hanswer
  cases hone : c.answerAll ⟨a.session.sys, a.session.requests⟩
      (textsIn [line]) with
  | error e =>
      rw [hone] at hanswer
      cases hanswer
  | ok result =>
      obtain ⟨served', vs⟩ := result
      rw [hone] at hanswer
      cases hanswer
      have hfree : (c.attend client a).stuck = false :=
        (h.free_iff hline hone).mpr htaken
      obtain ⟨hholds, hstatus⟩ := handleLine_answered h.goes.1 h.written hone
      have hsession : (c.attend client a).session =
          c.handleLine line a.session := by
        rw [attend_goes h.goes hline]
      have hrequests : served'.requests = c.requestsIn (lines ++ [line]) :=
        answerAll_requests hall
      rw [hrequests] at hstatus
      constructor
      · rw [hsession, hholds.requests, hrequests]
      rcases hstatus with ⟨hgoes, hwritten⟩ | ⟨hclosed, hunwritten⟩
      · left
        refine ⟨⟨hsession ▸ hgoes, hfree⟩, ?_, htaken, ?_⟩
        · rw [hsession, hall, hholds.sys, hholds.requests, hholds.responses]
        · rw [hsession, hholds.requests, hrequests]
          exact hwritten
      · exact Or.inr ⟨⟨hsession ▸ hclosed, hfree⟩, hunwritten⟩

/-- A line that is not clean does not let the loop go on or return. -/
theorem GoesAfter.attend_held (h : GoesAfter c client sys lines a)
    (hline : client.nextLine a.position = some (line, q))
    (hfoul : ¬ c.Clean client sys (lines ++ [line])) :
    (c.attend client a).session.status = .panicked ∨
      (c.attend client a).stuck = true := by
  cases hone : c.answerAll ⟨a.session.sys, a.session.requests⟩
      (textsIn [line]) with
  | error e =>
      left
      rw [attend_goes h.goes hline]
      exact handleLine_panics hone
  | ok result =>
      right
      by_contra hfree
      apply hfoul
      constructor
      · have hall := h.answerAll_line line
        rw [hone] at hall
        exact ⟨_, _, hall⟩
      · rw [Bool.not_eq_true] at hfree
        exact (h.free_iff hline hone).mp hfree

end NextLine

/-! ## The whole session -/

theorem attended_succ (k : ℕ) : c.attended client sys (k + 1) =
    c.attend client (c.attended client sys k) :=
  Function.iterate_succ_apply' _ _ _

theorem linesTo_succ {line : List Char} {q : ℕ}
    (hlines : client.linesTo k = some (lines, p))
    (hline : client.nextLine p = some (line, q)) :
    client.linesTo (k + 1) = some (lines ++ [line], q) := by
  rw [Client.linesTo, hlines, Option.bind_some]
  dsimp only
  rw [hline]
  rfl

theorem goesAfter_nil : GoesAfter c client sys [] (accept sys) where
  goes := ⟨rfl, rfl⟩
  answered := rfl
  taken j hj := absurd hj (Nat.not_lt_zero j)
  written j hj := absurd hj (Nat.not_lt_zero j)

theorem attend_end (h : a.Goes) (hend : client.nextLine a.position = none) :
    (c.attend client a).Returned ∧
      (c.attend client a).session.requests = a.session.requests := by
  rw [attend, if_pos h, hend]
  exact ⟨⟨rfl, h.2⟩, rfl⟩

theorem exists_goesAfter (hgoes : (c.attended client sys k).Goes) :
    ∃ lines,
      client.linesTo k = some (lines, (c.attended client sys k).position) ∧
      GoesAfter c client sys lines (c.attended client sys k) := by
  induction k with
  | zero => exact ⟨[], rfl, goesAfter_nil⟩
  | succ k ih =>
      rw [attended_succ] at hgoes ⊢
      have hbefore : (c.attended client sys k).Goes := by
        by_contra hended
        rw [attend_ended hended] at hgoes
        exact hended hgoes
      obtain ⟨lines, hlines, hafter⟩ := ih hbefore
      cases hline : client.nextLine (c.attended client sys k).position with
      | none =>
          have hclosed := (attend_end (c := c) hbefore hline).1.1
          cases hgoes.1.symm.trans hclosed
      | some next =>
          obtain ⟨line, q⟩ := next
          have hposition : (c.attend client
              (c.attended client sys k)).position = q := by
            rw [attend_goes hbefore hline]
          refine ⟨lines ++ [line], hposition ▸ linesTo_succ hlines hline, ?_⟩
          by_cases hclean : c.Clean client sys (lines ++ [line])
          · rcases (hafter.attend hline hclean).2 with hgo | ⟨hreturned, -⟩
            · exact hgo
            · cases hgoes.1.symm.trans hreturned.1
          · rcases hafter.attend_held hline hclean with hpanic | hstuck
            · cases hgoes.1.symm.trans hpanic
            · cases hgoes.2.symm.trans hstuck

/-- The loop has come to an end in these lines, because the response to one of
their requests could not be written. -/
structure ReturnsIn (c : ClientCall) (lines : List (List Char)) (a : Attendance) :
    Prop where
  returned : a.Returned
  few : a.session.requests.length ≤ (c.requestsIn lines).length
  unwritten : ∃ j < (c.requestsIn lines).length, c.reply j ≠ none

theorem ReturnsIn.append (h : ReturnsIn c lines a) (lines' : List (List Char)) :
    ReturnsIn c (lines ++ lines') a := by
  obtain ⟨hreturned, hfew, j, hj, hreply⟩ := h
  have hmore : (c.requestsIn lines).length ≤
      (c.requestsIn (lines ++ lines')).length := by
    rw [requestsIn, requestsIn, textsIn_append, List.filterMap_append,
      List.length_append]
    exact Nat.le_add_right _ _
  exact ⟨hreturned, Nat.le_trans hfew hmore, j, Nat.lt_of_lt_of_le hj hmore,
    hreply⟩

theorem attended_of_clean (hlines : client.linesTo k = some (lines, p))
    (hclean : c.Clean client sys lines) :
    (GoesAfter c client sys lines (c.attended client sys k) ∧
        (c.attended client sys k).position = p) ∨
      ReturnsIn c lines (c.attended client sys k) := by
  induction k generalizing lines p with
  | zero =>
      cases hlines
      exact Or.inl ⟨goesAfter_nil, rfl⟩
  | succ k ih =>
      obtain ⟨⟨before, q⟩, hbefore, hnext⟩ := Option.bind_eq_some_iff.mp hlines
      obtain ⟨⟨line, p'⟩, hline, heq⟩ := Option.map_eq_some_iff.mp hnext
      cases heq
      rw [attended_succ]
      rcases ih hbefore hclean.of_append with ⟨hgo, hposition⟩ | hreturn
      · rw [← hposition] at hline
        obtain ⟨hrequests, hafter⟩ := hgo.attend hline hclean
        rcases hafter with hgo' | ⟨hreturned, hunwritten⟩
        · refine Or.inl ⟨hgo', ?_⟩
          rw [attend_goes hgo.goes hline]
        · exact Or.inr ⟨hreturned, Nat.le_of_eq (congrArg _ hrequests),
            hunwritten⟩
      · have hended : ¬ (c.attended client sys k).Goes := by
          rintro ⟨hserving, -⟩
          cases hserving.symm.trans hreturn.returned.1
        rw [attend_ended hended]
        exact Or.inr (hreturn.append [line])

/-- The iteration with which `handle_client` returns shows how the client has
let go. -/
theorem letsGo_of_last (hgoes : (c.attended client sys k).Goes)
    (hreturned : (c.attended client sys (k + 1)).Returned)
    (hfew : (c.attended client sys (k + 1)).session.requests.length ≤ n) :
    c.LetsGo client sys n := by
  rw [attended_succ] at hreturned hfew
  obtain ⟨lines, hlines, hafter⟩ := exists_goesAfter hgoes
  cases hline : client.nextLine (c.attended client sys k).position with
  | none =>
      rw [(attend_end hgoes hline).2, hafter.requests] at hfew
      exact ⟨k, lines, _, hlines, hafter.clean, hfew, Or.inl hline⟩
  | some next =>
      obtain ⟨line, q⟩ := next
      have hclean : c.Clean client sys (lines ++ [line]) := by
        by_contra hfoul
        rcases hafter.attend_held hline hfoul with hpanic | hstuck
        · cases hreturned.1.symm.trans hpanic
        · cases hreturned.2.symm.trans hstuck
      obtain ⟨hrequests, hends⟩ := hafter.attend hline hclean
      rw [hrequests] at hfew
      rcases hends with hgo | ⟨-, hunwritten⟩
      · cases hreturned.1.symm.trans hgo.goes.1
      · exact ⟨k + 1, lines ++ [line], q, linesTo_succ hlines hline, hclean,
          hfew, Or.inr hunwritten⟩

theorem returnsWithin_of_letsGo (h : c.LetsGo client sys n) :
    c.ReturnsWithin client sys n := by
  obtain ⟨k, lines, p, hlines, hclean, hfew, hend⟩ := h
  rcases attended_of_clean hlines hclean with ⟨hgo, hposition⟩ | hreturn
  · rcases hend with hend | ⟨j, hj, hreply⟩
    · rw [← hposition] at hend
      obtain ⟨hreturned, hrequests⟩ := attend_end (c := c) hgo.goes hend
      refine ⟨k + 1, ?_⟩
      rw [attended_succ, hrequests, hgo.requests]
      exact ⟨hreturned, hfew⟩
    · rw [← hgo.requests] at hj
      exact absurd (hgo.written j hj) hreply
  · exact ⟨k, hreturn.returned, Nat.le_trans hreturn.few hfew⟩

/-- For every client and every bound: `handle_client` returns within the bound
exactly if the client lets go within it. -/
theorem handleClient_returnsWithin_iff (c : ClientCall) (client : Client)
    (sys : Sys) (n : ℕ) :
    c.ReturnsWithin client sys n ↔ c.LetsGo client sys n := by
  constructor
  · rintro ⟨k, hreturned, hfew⟩
    induction k with
    | zero => cases hreturned.1
    | succ k ih =>
        by_cases hgoes : (c.attended client sys k).Goes
        · exact letsGo_of_last hgoes hreturned hfew
        · rw [attended_succ, attend_ended hgoes] at hreturned hfew
          exact ih hreturned hfew
  · exact returnsWithin_of_letsGo

end ClientCall

/-! ## Streams that end -/

def StreamEnd.arrival : StreamEnd → Arrival
  | eof => .eof
  | error => .error

/-- A client that sends these bytes, and no more. -/
def Client.ofBytes (bytes : List UInt8) (ending : StreamEnd) : Client where
  arrival n :=
    match bytes[n]? with
    | some b => .byte 0 b
    | none => ending.arrival
  takes _ := true

namespace Client

variable {bytes : List UInt8} {ending : StreamEnd}

theorem ahead_ofBytes (n p : ℕ) :
    (ofBytes bytes ending).ahead n p =
      ((bytes.drop p).take n,
        if (bytes.drop p).length < n then ending else .eof) := by
  induction n generalizing p with
  | zero => simp [ahead]
  | succ n ih =>
      rw [ahead]
      cases hbyte : bytes[p]? with
      | none =>
          have hread : ((ofBytes bytes ending).arrival p).read =
              .error ending := by
            simp only [ofBytes, hbyte]
            cases ending <;> rfl
          have hnil : bytes.drop p = [] := by
            rw [List.drop_eq_nil_iff]
            exact List.getElem?_eq_none_iff.mp hbyte
          rw [hread, hnil]
          rfl
      | some b =>
          have hread : ((ofBytes bytes ending).arrival p).read = .ok b := by
            simp only [ofBytes, hbyte]
            rfl
          obtain ⟨hp, rfl⟩ := List.getElem?_eq_some_iff.mp hbyte
          rw [hread, ih, List.drop_eq_getElem_cons hp]
          simp only [List.take_succ_cons, List.length_cons,
            Nat.add_lt_add_iff_right]

theorem readLine_ofBytes (bytes : List UInt8) (ending : StreamEnd) (p : ℕ) :
    (ofBytes bytes ending).readLine p =
      (Teeproxyd.readLine ending (bytes.drop p)).map fun (line, _) =>
        (line, p + (encode line).length) := by
  have hfirst : ∀ o : Option (List Char × List UInt8),
      (o.map fun (line, _) => (line, p + (encode line).length)) =
        (o.map Prod.fst).map fun line => (line, p + (encode line).length) := by
    intro o
    rw [Option.map_map]
    rfl
  rw [readLine, ahead_ofBytes, hfirst, hfirst, ClientCall.readLine_take]

end Client

namespace ClientCall

variable {c : ClientCall} {client : Client} {sys : Sys} {s : Session}
  {a : Attendance} {input : List UInt8} {k n : ℕ}

/-- The two loops are at the same point of the stream. -/
structure Mirrors (input : List UInt8) (a : Attendance) (s : Session) :
    Prop where
  session : s = a.session.withInput s.input
  free : a.stuck = false
  position : s.status = .serving → s.input = input.drop a.position

theorem Mirrors.next (h : Mirrors input a s) :
    Mirrors input (c.attend (.ofBytes input c.ending) a) (c.next s) := by
  obtain ⟨hsession, hfree, hposition⟩ := h
  have hstatus : a.session.status = s.status := by rw [hsession]; rfl
  by_cases hs : s.status = .serving
  · have hgoes : a.Goes := ⟨hstatus.trans hs, hfree⟩
    have hread := Client.readLine_ofBytes input c.ending a.position
    rw [← hposition hs] at hread
    have hclosed : Mirrors input
        { a with session := { a.session with status := .closed } }
        { s with status := .closed } := by
      refine ⟨?_, hfree, SessionStatus.noConfusion⟩
      rw [hsession]
      rfl
    rw [c.next_serving hs, iterate, attend, if_pos hgoes, Client.nextLine,
      hread]
    cases hline : Teeproxyd.readLine c.ending s.input with
    | none => exact hclosed
    | some result =>
        obtain ⟨line, rest⟩ := result
        cases line with
        | nil => exact hclosed
        | cons ch line =>
            have hsame : { s with input := rest } =
                a.session.withInput rest := by
              rw [hsession]
              rfl
            dsimp only [Option.map_some]
            rw [hsame, handleLine_input]
            refine ⟨rfl, ?_, fun _ => ?_⟩
            · simp [Client.ofBytes]
            · rw [Session.withInput_input, readLine_drop hline,
                hposition hs, List.drop_drop]
  · have hended : ¬ a.Goes := fun hgoes => hs (hstatus.symm.trans hgoes.1)
    rw [c.next_ended hs, attend_ended hended]
    exact ⟨hsession, hfree, hposition⟩

theorem mirrors_attended (c : ClientCall) (sys : Sys) (input : List UInt8)
    (k : ℕ) :
    Mirrors input (c.attended (.ofBytes input c.ending) sys k)
      (c.next^[k] (start sys input)) := by
  induction k with
  | zero => exact ⟨rfl, rfl, fun _ => rfl⟩
  | succ k ih =>
      rw [attended_succ, Function.iterate_succ_apply']
      exact ih.next

/-- On a stream that ends, the loop is the one of `handleClient`. -/
theorem returnsWithin_ofBytes_iff :
    c.ReturnsWithin (.ofBytes input c.ending) sys n ↔
      (c.handleClient sys input).status = .closed ∧
        (c.handleClient sys input).requests.length ≤ n := by
  constructor
  · rintro ⟨k, ⟨hclosed, -⟩, hfew⟩
    have hsession := (mirrors_attended c sys input k).session
    have hstatus : (c.next^[k] (start sys input)).status = .closed := by
      rw [hsession]
      exact hclosed
    have hended : (c.next^[k] (start sys input)).status ≠ .serving := by
      rw [hstatus]
      exact SessionStatus.noConfusion
    rw [handleClient_eq hended]
    refine ⟨hstatus, ?_⟩
    rw [hsession]
    exact hfew
  · rintro ⟨hclosed, hfew⟩
    obtain ⟨hsession, hfree, -⟩ :=
      mirrors_attended c sys input (input.length + 1)
    change handleClient c sys input = _ at hsession
    refine ⟨input.length + 1, ⟨?_, hfree⟩, ?_⟩
    · rw [hsession] at hclosed
      exact hclosed
    · rw [hsession] at hfew
      exact hfew

/-! ## A client that never stops -/

/-- As long as no write hangs, the session is a run of the daemon with one
request label for each request. -/
theorem attended_run {d : Daemon} (hmade : c.MadeBy d) (hpc : d.pc = .session)
    (hfree : (c.attended client d.sys k).stuck = false) :
    ∃ ls, exec (step c.cfg) d ls =
        some (d.during (c.attended client d.sys k).session) ∧
      ls.filterMap Label.cmd =
        (c.attended client d.sys k).session.requests.map requestCmd := by
  induction k with
  | zero =>
      refine ⟨[], ?_, rfl⟩
      have hsame : d.during (start d.sys []) = d := by
        rw [Daemon.during, start, SessionStatus.pc, ← hpc]
      exact congrArg some hsame.symm
  | succ k ih =>
      rw [attended_succ] at hfree ⊢
      by_cases hgoes : (c.attended client d.sys k).Goes
      · obtain ⟨ls, hrun, hcmds⟩ := ih hgoes.2
        have hstep : ∃ ms,
            exec (step c.cfg) (d.during (c.attended client d.sys k).session)
              ms = some (d.during
                (c.attend client (c.attended client d.sys k)).session) ∧
            (c.attend client (c.attended client d.sys k)).session.requests.map
                requestCmd =
              (c.attended client d.sys k).session.requests.map requestCmd ++
                ms.filterMap Label.cmd := by
          cases hline : client.nextLine (c.attended client d.sys k).position with
          | none =>
              rw [attend, if_pos hgoes, hline]
              exact ⟨[.hangup], exec_hangup c.cfg d hgoes.1, by simp [Label.cmd]⟩
          | some next =>
              rw [attend_goes hgoes hline]
              exact handleLine_run hmade hgoes.1 next.1
        obtain ⟨ms, hnext, hmore⟩ := hstep
        refine ⟨ls ++ ms, ?_, ?_⟩
        · rw [exec_append_eq_some_iff]
          exact ⟨_, hrun, hnext⟩
        · rw [List.filterMap_append, hcmds, hmore]
      · rw [attend_ended hgoes] at hfree ⊢
        exact ih hfree

end ClientCall

namespace Client

variable {client : Client} {p : ℕ}

/-- Reads find these bytes from the `p`th on. -/
def Sends (client : Client) (p : ℕ) (bytes : List UInt8) : Prop :=
  ∀ i b, bytes[i]? = some b → (client.arrival (p + i)).read = .ok b

theorem ahead_sends {bytes : List UInt8} (hsends : client.Sends p bytes)
    (n : ℕ) :
    (client.ahead (bytes.length + n) p).1 =
      bytes ++ (client.ahead n (p + bytes.length)).1 := by
  induction bytes generalizing p with
  | nil => rw [List.length_nil, Nat.zero_add]; rfl
  | cons b bytes ih =>
      have hfirst : (client.arrival p).read = .ok b := hsends 0 b rfl
      have htail : client.Sends (p + 1) bytes := by
        intro i b' hb'
        rw [Nat.add_right_comm]
        exact hsends (i + 1) b' hb'
      have hcount : (b :: bytes).length + n = (bytes.length + n) + 1 :=
        Nat.succ_add _ _
      rw [hcount, ahead, hfirst]
      dsimp only
      rw [ih htail, List.length_cons, Nat.add_assoc p, Nat.add_comm 1,
        List.cons_append]

theorem nextLine_sends {line : List Char} (hline : '\n' ∉ line)
    (hcap : (encode line).length < maxRequestLineBytes)
    (hsends : client.Sends p (encode line ++ [lineFeed])) :
    client.nextLine p =
      some (line ++ ['\n'], p + (encode (line ++ ['\n'])).length) := by
  obtain ⟨n, hn⟩ := Nat.exists_eq_add_of_le hcap
  have hahead : ∃ rest, (client.ahead maxRequestLineBytes p).1 =
      encode line ++ lineFeed :: rest := by
    have hlength : (encode line ++ [lineFeed]).length + n =
        maxRequestLineBytes := by
      rw [List.length_append, List.length_singleton]
      exact hn.symm
    have hsent := ahead_sends hsends n
    rw [hlength, List.append_assoc] at hsent
    exact ⟨_, hsent⟩
  obtain ⟨rest, hahead⟩ := hahead
  have hdecode : decode (encode line ++ [lineFeed]) = some (line ++ ['\n']) := by
    rw [decode_append_lineFeed, decode_encode]
    rfl
  have hread : client.readLine p =
      some (line ++ ['\n'], p + (encode (line ++ ['\n'])).length) := by
    rw [readLine, hahead, ClientCall.readLine_eq,
      readUntil_line (lineFeed_notMem_encode hline) hcap, if_neg, hdecode]
    · rfl
    · rintro ⟨-, -, hlast⟩
      exact hlast List.getLast?_concat
  rw [nextLine, hread]
  cases line <;> rfl

end Client

/-- A ping. -/
def pingText : List Char := "\x7b\x22cmd\x22:\x22ping\x22\x7d".toList

/-- A client that sends a byte of a ping each second, one ping after the other,
and reads the responses. -/
def pinging : Client where
  arrival n :=
    .byte (fromSecs 1)
      ((encode (pingText ++ ['\n'])).getD
        (n % (encode (pingText ++ ['\n'])).length) 0)
  takes _ := true

/-- The daemon's first call, when it has not started the VM yet. -/
def firstCall : ClientCall := { sampleCall with startup := .vmStarting }

theorem pinging_sends (k : ℕ) :
    pinging.Sends ((encode (pingText ++ ['\n'])).length * k)
      (encode pingText ++ [lineFeed]) := by
  intro i b hb
  have hbytes : encode pingText ++ [lineFeed] = encode (pingText ++ ['\n']) := by
    rw [encode_append, encode_cons, encode_lineFeed]
    rfl
  rw [hbytes] at hb
  obtain ⟨hi, rfl⟩ := List.getElem?_eq_some_iff.mp hb
  have htimely : fromSecs 1 < readTimeout := by decide
  have hbyte : (encode (pingText ++ ['\n'])).getD
      (((encode (pingText ++ ['\n'])).length * k + i) %
        (encode (pingText ++ ['\n'])).length) 0 =
      (encode (pingText ++ ['\n']))[i] := by
    rw [Nat.mul_add_mod, Nat.mod_eq_of_lt hi, List.getD_eq_getElem?_getD,
      List.getElem?_eq_getElem hi, Option.getD_some]
  simp only [pinging, Arrival.read, if_pos htimely, hbyte]

/-- Every iteration of the daemon's first call dispatches a ping. -/
theorem attended_pinging (sys : Sys) (k : ℕ) :
    let a := firstCall.attended pinging sys k
    a.Goes ∧ a.session.requests = List.replicate k (.command "ping") ∧
      a.position = (encode (pingText ++ ['\n'])).length * k := by
  induction k with
  | zero => exact ⟨⟨rfl, rfl⟩, rfl, rfl⟩
  | succ k ih =>
      obtain ⟨hgoes, hrequests, hposition⟩ := ih
      have hline : pinging.nextLine
          (firstCall.attended pinging sys k).position =
            some (pingText ++ ['\n'],
              (encode (pingText ++ ['\n'])).length * k +
                (encode (pingText ++ ['\n'])).length) := by
        rw [hposition]
        exact Client.nextLine_sends (by decide) (by decide) (pinging_sends k)
      have hanswer : ∃ served v, firstCall.answerAll
          ⟨(firstCall.attended pinging sys k).session.sys,
            (firstCall.attended pinging sys k).session.requests⟩
          (textsIn [pingText ++ ['\n']]) = .ok (served, [v]) ∧
          served.requests = _ ++ [.command "ping"] := ⟨_, _, rfl, rfl⟩
      obtain ⟨served, v, hanswer, hserved⟩ := hanswer
      obtain ⟨hholds, hstatus⟩ := ClientCall.handleLine_answered hgoes.1
        (fun _ _ => rfl) hanswer
      dsimp only
      rw [ClientCall.attended_succ, ClientCall.attend_goes hgoes hline]
      refine ⟨⟨?_, ?_⟩, ?_, ?_⟩
      · rcases hstatus with ⟨hserving, -⟩ | ⟨-, j, -, hreply⟩
        · exact hserving
        · exact absurd rfl hreply
      · exact Bool.and_false _
      · rw [hholds.requests, hserved, hrequests, List.replicate_succ']
      · exact (Nat.mul_succ _ k).symm

/-- The first client holds the daemon for ever if it sends pings for ever: the
loop has not ended after any number of iterations, each with its request, and
the daemon stays in the session, where it starts no VM. -/
theorem handleClient_held :
    ∃ d, Reachable Config.default d ∧ d.pc = .session ∧ firstCall.MadeBy d ∧
      (∀ k, (firstCall.attended pinging d.sys k).Goes ∧
        (firstCall.attended pinging d.sys k).session.requests.length = k ∧
        ∃ ls, exec (step Config.default) d ls =
            some (d.during (firstCall.attended pinging d.sys k).session) ∧
          ls.filterMap Label.cmd = List.replicate k .ping) ∧
      ¬ ∃ n, ∀ client, firstCall.ReturnsWithin client d.sys n := by
  obtain ⟨d, hafter, hpc, hstartup, hstarted⟩ := exists_after
    [.poll .incoming, .accept true]
    (P := fun s => s.pc = .session ∧ s.startup = .vmStarting ∧
      s.startedAt = 0) (by decide)
  have hmade : firstCall.MadeBy d := by
    refine ⟨hstartup.symm, hstarted.symm, fun n e he => ⟨[], ?_, rfl⟩⟩
    intro l hl
    cases hl
  refine ⟨d, reach_of_after hafter (.of_forall (fun _ _ => trivial) _ _), hpc,
    hmade, fun k => ?_, ?_⟩
  · obtain ⟨hgoes, hrequests, -⟩ := attended_pinging d.sys k
    refine ⟨hgoes, ?_, ?_⟩
    · rw [hrequests, List.length_replicate]
    · have hfree : (firstCall.attended pinging d.sys k).stuck = false :=
        hgoes.2
      obtain ⟨ls, hrun, hcmds⟩ := ClientCall.attended_run hmade hpc hfree
      refine ⟨ls, hrun, ?_⟩
      rw [hcmds, hrequests, List.map_replicate]
      rfl
  · rintro ⟨n, hreturns⟩
    obtain ⟨k, ⟨hclosed, -⟩, -⟩ := hreturns pinging
    obtain ⟨⟨hserving, -⟩, -⟩ := attended_pinging d.sys k
    cases hserving.symm.trans hclosed

end Teeproxyd
