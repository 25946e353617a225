import Teeproxyd.Ipc.Session
import Teeproxyd.Supervision.NoLeak

/-!
# Every request line is answered once

A stream of text whose lines stay within the cap is served line by line: the
session is the fold of the lines' effects, whatever the reader's pieces are.
The carriage returns at the end of a line do not count towards the cap.
-/

namespace Teeproxyd

open Framing Utf8

/-- The lines of a text that are not blank, without their carriage returns. -/
def requestLines (text : List Char) : List (List Char) :=
  ((text.splitOn '\n').map stripReturns).filter (· ≠ [])

/-- What the requests of a session have led to. -/
structure Served where
  sys : Sys
  requests : List Value

namespace ClientCall

variable (c : ClientCall)

/-- What one line leads to, and its answer. -/
def answer (served : Served) (line : List Char) :
    Except Kernel (Served × Value) :=
  match c.serde.fromStr (String.ofList line) with
  | .error e => .ok (served, errorMsg e)
  | .ok req =>
      let n := served.requests.length
      let sys :=
        { served.sys with kernel := c.meanwhile n served.sys.kernel }
      match dispatch c.cfg c.startup c.startedAt req sys (c.answers n) with
      | .error k => .error k
      | .ok (sys, response) =>
          let kernel := sys.kernel.emit (.handled (requestCmd req))
          .ok (⟨{ sys with kernel := kernel }, served.requests ++ [req]⟩,
            response)

/-- The lines one after the other, until the daemon panics. -/
def answerAll (served : Served) :
    List (List Char) → Except Kernel (Served × List Value)
  | [] => .ok (served, [])
  | line :: lines =>
      match c.answer served line with
      | .error k => .error k
      | .ok (served, response) =>
          match answerAll served lines with
          | .error k => .error k
          | .ok (served, responses) => .ok (served, response :: responses)

/-- The request in a line, if it is JSON. -/
def parse (line : List Char) : Option Value :=
  (c.serde.fromStr (String.ofList line)).toOption

/-- The line is not JSON, or it has no known `cmd`. -/
def refuses (line : List Char) : Bool :=
  match c.serde.fromStr (String.ofList line) with
  | .error _ => true
  | .ok req =>
      match requestCmd req with
      | .unknown _ => true
      | _ => false

end ClientCall

/-- `to_string` gives a line of its own for this value, which `from_str` reads
back. -/
def Serde.Inverts (serde : Serde) (v : Value) : Prop :=
  ∃ line, serde.toStr v = some line ∧ '\n' ∉ line.toList ∧
    serde.fromStr line = .ok v

/-- The session when the lines have been answered and every write has ended
well. -/
def Session.after (s : Session) (serde : Serde) (served : Served)
    (responses : List Value) : Session :=
  { s with
    sys := served.sys
    requests := served.requests
    responses := s.responses ++ responses
    output := s.output ++ responses.flatMap (writeResponse serde none) }

/-- The session has become what answering the lines leads to. -/
def Session.Becomes (s t : Session) (serde : Serde) :
    Except Kernel (Served × List Value) → Prop
  | .error k => t.status = .panicked ∧ t.sys.kernel = k
  | .ok (served, responses) => t = s.after serde served responses

/-! ## Carriage returns -/

theorem encode_returns (k : ℕ) :
    encode (List.replicate k '\r') = List.replicate k 13 :=
  encode_replicate (by decide) k

theorem stripReturns_append_returns (text : List Char) (k : ℕ) :
    stripReturns (text ++ List.replicate k '\r') = stripReturns text := by
  induction k with
  | zero => rw [List.replicate_zero, List.append_nil]
  | succ k ih =>
      rw [List.replicate_succ', ← List.append_assoc, stripReturns,
        List.rdropWhile_concat_pos _ _ _ (by decide)]
      exact ih

theorem exists_returns (line : List Char) :
    ∃ k, line = stripReturns line ++ List.replicate k '\r' := by
  refine ⟨(line.rtakeWhile (· = '\r')).length, ?_⟩
  have hall : line.rtakeWhile (· = '\r') =
      List.replicate (line.rtakeWhile (· = '\r')).length '\r' := by
    rw [List.eq_replicate_iff]
    refine ⟨rfl, ?_⟩
    intro b hb
    have hreturn := List.mem_rtakeWhile_imp hb
    exact of_decide_eq_true hreturn
  rw [← hall]
  exact List.rdropWhile_append_rtakeWhile.symm

theorem stripReturns_subset {line : List Char} {a : Char}
    (ha : a ∈ stripReturns line) : a ∈ line :=
  (List.rdropWhile_prefix _ _).subset ha

theorem trimLine_returns {text : List Char} (htext : '\n' ∉ text) (k : ℕ) :
    trimLine (text ++ List.replicate k '\r') = stripReturns text := by
  have hboth : '\n' ∉ text ++ List.replicate k '\r' := by
    rw [List.mem_append, List.mem_replicate]
    rintro (h | ⟨-, h⟩)
    · exact htext h
    · cases h
  rw [trimLine_of_notMem hboth, stripReturns_append_returns]

/-- When a text within the cap is followed by carriage returns, these are all
that its pieces hold from the second one on. -/
theorem pieces_returns {text : List Char} {k : ℕ}
    (hcap : (encode text).length ≤ maxRequestLineBytes) :
    ∃ a ps, pieces maxRequestLineBytes
        (encode (text ++ List.replicate k '\r')) =
          encode (text ++ List.replicate a '\r') :: ps ∧
      ∀ p ∈ ps, ∃ b, p = encode (List.replicate b '\r') := by
  induction hn : (encode text).length + k using Nat.strongRecOn
    generalizing text k with | _ n ih =>
  have hlength : (encode (text ++ List.replicate k '\r')).length = n := by
    rw [encode_append, encode_returns, List.length_append,
      List.length_replicate, hn]
  by_cases hshort : n < maxRequestLineBytes
  · refine ⟨k, [], pieces_short (hlength ▸ hshort), ?_⟩
    intro p hp
    cases hp
  -- the first piece holds the text and some of the carriage returns
  have hlong : maxRequestLineBytes ≤ n := Nat.le_of_not_lt hshort
  have hcappos : 0 < maxRequestLineBytes := Nat.pos_of_ne_zero (NeZero.ne _)
  have htake : (encode (text ++ List.replicate k '\r')).take
      maxRequestLineBytes =
        encode (text ++ List.replicate
          (maxRequestLineBytes - (encode text).length) '\r') := by
    rw [encode_append, encode_append, encode_returns, encode_returns,
      List.take_append, List.take_of_length_le hcap, List.take_replicate,
      Nat.min_eq_left (by omega)]
  have hdrop : (encode (text ++ List.replicate k '\r')).drop
      maxRequestLineBytes =
        encode ([] ++ List.replicate (n - maxRequestLineBytes) '\r') := by
    have hcount : k - (maxRequestLineBytes - (encode text).length) =
        n - maxRequestLineBytes := by omega
    rw [encode_append, encode_append, encode_returns, encode_returns,
      List.drop_append, List.drop_of_length_le hcap, List.drop_replicate,
      hcount, encode_nil]
  have hless : n - maxRequestLineBytes < n :=
    Nat.sub_lt (Nat.lt_of_lt_of_le hcappos hlong) hcappos
  have hempty : (encode []).length ≤ maxRequestLineBytes := Nat.zero_le _
  have hleft : (encode []).length + (n - maxRequestLineBytes) =
      n - maxRequestLineBytes := Nat.zero_add _
  obtain ⟨a, ps, hrest, hblank⟩ := ih _ hless hempty hleft
  refine ⟨_, _, by rw [pieces_long (hlength ▸ hlong), htake], ?_⟩
  rw [hdrop, hrest]
  exact List.forall_mem_cons.mpr ⟨⟨a, rfl⟩, hblank⟩

namespace ClientCall

variable {c : ClientCall} {s : Session}

/-- Carriage returns at its end make no difference to a piece. -/
theorem receive_append_returns {text : List Char} (htext : '\n' ∉ text)
    (k : ℕ) :
    c.receive s (encode (text ++ List.replicate k '\r')) =
      c.receive s (encode text) := by
  have htrim : trimLine (text ++ List.replicate k '\r') = trimLine text := by
    rw [trimLine_returns htext, trimLine_of_notMem htext]
  by_cases hs : s.status = .serving
  · rw [receive_decode hs (decode_encode _), receive_decode hs (decode_encode _),
      handleLine, handleLine, htrim]
  · rw [receive_ended hs, receive_ended hs]

theorem receive_returns (k : ℕ) :
    c.receive s (encode (List.replicate k '\r')) = s := by
  have hsame := receive_append_returns (c := c) (s := s) List.not_mem_nil k
  rw [List.nil_append, encode_nil, receive_nil] at hsame
  exact hsame

/-- A line is one request however many carriage returns follow, as long as the
rest of it is within the cap. -/
theorem deliver_append_returns {text : List Char} {k : ℕ} (htext : '\n' ∉ text)
    (hcap : (encode text).length ≤ maxRequestLineBytes) :
    c.deliver s (encode (text ++ List.replicate k '\r')) =
      c.receive s (encode text) := by
  obtain ⟨a, ps, hpieces, hblank⟩ := pieces_returns (k := k) hcap
  rw [deliver, hpieces, List.foldl_cons, receive_append_returns htext]
  generalize c.receive s (encode text) = t
  clear hpieces
  induction ps with
  | nil => rfl
  | cons p ps ih =>
      obtain ⟨b, rfl⟩ := hblank p List.mem_cons_self
      rw [List.foldl_cons, receive_returns]
      exact ih fun q hq => hblank q (List.mem_cons_of_mem _ hq)

/-! ## From lines to sessions -/

theorem stripReturns_stripReturns (line : List Char) :
    stripReturns (stripReturns line) = stripReturns line :=
  List.rdropWhile_idempotent _ _

theorem deliver_line {line : List Char} (hs : s.status = .serving)
    (hline : '\n' ∉ line)
    (hcap : (encode (stripReturns line)).length ≤ maxRequestLineBytes) :
    c.deliver s (encode line) = c.handleLine line s := by
  have hstrip : '\n' ∉ stripReturns line :=
    fun h => hline (stripReturns_subset h)
  have htrim : trimLine (stripReturns line) = trimLine line := by
    rw [trimLine_of_notMem hstrip, trimLine_of_notMem hline,
      stripReturns_stripReturns]
  obtain ⟨k, hk⟩ := exists_returns line
  calc
    c.deliver s (encode line) =
        c.deliver s (encode (stripReturns line ++ List.replicate k '\r')) := by
      rw [← hk]
    _ = c.receive s (encode (stripReturns line)) :=
      deliver_append_returns hstrip hcap
    _ = c.handleLine (stripReturns line) s :=
      receive_decode hs (decode_encode _)
    _ = c.handleLine line s := by
      rw [handleLine, handleLine, htrim]

theorem after_nil (s : Session) (serde : Serde) :
    s.after serde ⟨s.sys, s.requests⟩ [] = s := by
  simp [Session.after]

theorem after_after (s : Session) (serde : Serde) (served served' : Served)
    (vs vs' : List Value) :
    (s.after serde served vs).after serde served' vs' =
      s.after serde served' (vs ++ vs') := by
  simp [Session.after]

theorem becomes_cons {t : Session} {serde : Serde} {served : Served}
    {v : Value} {outcome : Except Kernel (Served × List Value)}
    (h : (s.after serde served [v]).Becomes t serde outcome) :
    s.Becomes t serde (outcome.map fun result => (result.1, v :: result.2)) := by
  cases outcome with
  | error k => exact h
  | ok result => exact Eq.trans h (after_after s serde served result.1 [v] _)

theorem handleLine_error {line : List Char} {k : Kernel}
    (htext : trimLine line ≠ [])
    (hanswer : c.answer ⟨s.sys, s.requests⟩ (trimLine line) = .error k) :
    (c.handleLine line s).status = .panicked ∧
      (c.handleLine line s).sys.kernel = k := by
  unfold answer at hanswer
  unfold handleLine
  dsimp only
  rw [if_neg htext]
  cases hparse : c.serde.fromStr (String.ofList (trimLine line)) with
  | error e =>
      rw [hparse] at hanswer
      cases hanswer
  | ok req =>
      rw [hparse] at hanswer
      dsimp only [handleRequest] at hanswer ⊢
      cases hdispatch : dispatch c.cfg c.startup c.startedAt req
          { s.sys with kernel := c.meanwhile s.requests.length s.sys.kernel }
          (c.answers s.requests.length) with
      | error k' =>
          rw [hdispatch] at hanswer
          cases hanswer
          exact ⟨rfl, rfl⟩
      | ok result =>
          rw [hdispatch] at hanswer
          cases hanswer

/-- A line that is not blank is answered.  Only the write of the response to a
request can end the session. -/
theorem handleLine_ok {line : List Char} {served : Served} {v : Value}
    (htext : trimLine line ≠ [])
    (hanswer : c.answer ⟨s.sys, s.requests⟩ (trimLine line) =
      .ok (served, v)) :
    ∃ result status,
      c.handleLine line s =
        { s with
          sys := served.sys
          requests := served.requests
          responses := s.responses ++ [v]
          output := s.output ++ writeResponse c.serde result v
          status := status } ∧
      ((served.requests = s.requests ∧ result = c.refusal s.responses.length ∧
          status = s.status) ∨
        (served.requests.length = s.requests.length + 1 ∧
          result = c.reply s.requests.length ∧
          status = if result = none then .serving else .closed)) := by
  unfold answer at hanswer
  unfold handleLine
  dsimp only
  rw [if_neg htext]
  cases hparse : c.serde.fromStr (String.ofList (trimLine line)) with
  | error e =>
      rw [hparse] at hanswer
      cases hanswer
      exact ⟨_, _, rfl, Or.inl ⟨rfl, rfl, rfl⟩⟩
  | ok req =>
      rw [hparse] at hanswer
      dsimp only [handleRequest] at hanswer ⊢
      cases hdispatch : dispatch c.cfg c.startup c.startedAt req
          { s.sys with kernel := c.meanwhile s.requests.length s.sys.kernel }
          (c.answers s.requests.length) with
      | error k =>
          rw [hdispatch] at hanswer
          cases hanswer
      | ok result =>
          rw [hdispatch] at hanswer
          cases hanswer
          exact ⟨_, _, rfl, Or.inr ⟨List.length_append, rfl, rfl⟩⟩

/-- When every write ends well, the session goes on with what has been
answered. -/
theorem handleLine_becomes {line : List Char} (hs : s.status = .serving)
    (hreply : ∀ n, c.reply n = none) (hrefusal : ∀ n, c.refusal n = none)
    (hblank : trimLine line ≠ []) :
    s.Becomes (c.handleLine line s) c.serde
      ((c.answer ⟨s.sys, s.requests⟩ (trimLine line)).map fun result =>
        (result.1, [result.2])) := by
  cases hanswer : c.answer ⟨s.sys, s.requests⟩ (trimLine line) with
  | error k => exact handleLine_error hblank hanswer
  | ok answered =>
      obtain ⟨served, v⟩ := answered
      obtain ⟨result, status, hline, hwrite⟩ := handleLine_ok hblank hanswer
      have hwell : result = none ∧ status = s.status := by
        rcases hwrite with ⟨-, hresult, hstatus⟩ | ⟨-, hresult, hstatus⟩
        · exact ⟨hresult.trans (hrefusal _), hstatus⟩
        · have hnone : result = none := hresult.trans (hreply _)
          rw [if_pos hnone] at hstatus
          exact ⟨hnone, hstatus.trans hs.symm⟩
      obtain ⟨rfl, rfl⟩ := hwell
      change c.handleLine line s = s.after c.serde served [v]
      rw [hline]
      simp [Session.after]

theorem answerAll_error {served : Served} {line : List Char}
    {lines : List (List Char)} {k : Kernel}
    (hline : c.answer served line = .error k) :
    c.answerAll served (line :: lines) = .error k := by
  rw [answerAll, hline]

theorem answerAll_ok {served served' : Served} {line : List Char}
    {lines : List (List Char)} {v : Value}
    (hline : c.answer served line = .ok (served', v)) :
    c.answerAll served (line :: lines) =
      (c.answerAll served' lines).map fun result =>
        (result.1, v :: result.2) := by
  rw [answerAll, hline]
  dsimp only
  cases c.answerAll served' lines <;> rfl

theorem answerAll_append (served : Served) (lines lines' : List (List Char)) :
    c.answerAll served (lines ++ lines') =
      (c.answerAll served lines).bind fun first =>
        (c.answerAll first.1 lines').map fun result =>
          (result.1, first.2 ++ result.2) := by
  induction lines generalizing served with
  | nil =>
      change c.answerAll served lines' = (c.answerAll served lines').map id
      cases c.answerAll served lines' <;> rfl
  | cons line lines ih =>
      rw [List.cons_append]
      cases hline : c.answer served line with
      | error e => rw [answerAll_error hline, answerAll_error hline]; rfl
      | ok result =>
          obtain ⟨mid, v⟩ := result
          rw [answerAll_ok hline, answerAll_ok hline, ih]
          cases c.answerAll mid lines with
          | error e => rfl
          | ok first =>
              change ((c.answerAll first.1 lines').map _).map _ =
                (c.answerAll first.1 lines').map _
              cases c.answerAll first.1 lines' <;> rfl

/-- What the loop does with a list of lines. -/
def deliverAll (c : ClientCall) (s : Session) (lines : List (List Char)) :
    Session :=
  lines.foldl (fun s line => c.deliver s (encode line)) s

theorem deliverAll_ended (hs : s.status ≠ .serving) (lines : List (List Char)) :
    c.deliverAll s lines = s := by
  induction lines with
  | nil => rfl
  | cons line lines ih =>
      rw [deliverAll, List.foldl_cons, deliver_ended hs]
      exact ih

theorem deliverAll_becomes {lines : List (List Char)} (hs : s.status = .serving)
    (hreply : ∀ n, c.reply n = none) (hrefusal : ∀ n, c.refusal n = none)
    (hlines : ∀ line ∈ lines, '\n' ∉ line ∧
      (encode (stripReturns line)).length ≤ maxRequestLineBytes) :
    s.Becomes (c.deliverAll s lines) c.serde
      (c.answerAll ⟨s.sys, s.requests⟩
        ((lines.map stripReturns).filter (· ≠ []))) := by
  induction lines generalizing s with
  | nil => exact (after_nil s c.serde).symm
  | cons line lines ih =>
      obtain ⟨hline, hcap⟩ := hlines line List.mem_cons_self
      have htail : ∀ line ∈ lines, '\n' ∉ line ∧
          (encode (stripReturns line)).length ≤ maxRequestLineBytes :=
        fun line hmem => hlines line (List.mem_cons_of_mem _ hmem)
      have hstep : c.deliverAll s (line :: lines) =
          c.deliverAll (c.handleLine line s) lines := by
        rw [deliverAll, List.foldl_cons, deliver_line hs hline hcap]
        rfl
      rw [hstep, List.map_cons]
      by_cases hblank : stripReturns line = []
      · have hskip : c.handleLine line s = s := by
          rw [handleLine]
          exact if_pos ((trimLine_of_notMem hline).trans hblank)
        rw [hskip, List.filter_cons_of_neg (by simp [hblank])]
        exact ih hs htail
      · rw [List.filter_cons_of_pos (by simp [hblank])]
        have htrim : trimLine line ≠ [] := by
          rwa [trimLine_of_notMem hline]
        have hanswer := handleLine_becomes hs hreply hrefusal htrim
        rw [trimLine_of_notMem hline] at hanswer
        cases hresult : c.answer ⟨s.sys, s.requests⟩ (stripReturns line) with
        | error k =>
            rw [hresult] at hanswer
            have hended : (c.handleLine line s).status ≠ .serving := by
              rw [hanswer.1]
              exact SessionStatus.noConfusion
            rw [answerAll_error hresult, deliverAll_ended hended]
            exact hanswer
        | ok result =>
            obtain ⟨served, v⟩ := result
            rw [hresult] at hanswer
            have hafter : c.handleLine line s = s.after c.serde served [v] :=
              hanswer
            rw [answerAll_ok hresult, hafter]
            have hgoes : (s.after c.serde served [v]).status = .serving := hs
            have hrest : (s.after c.serde served [v]).Becomes _ c.serde
                (c.answerAll served
                  ((lines.map stripReturns).filter (· ≠ []))) :=
              ih hgoes htail
            exact becomes_cons hrest

/-! ## From streams to lines -/

/-- A stream of text is served line by line. -/
theorem next_text (hending : c.ending = .eof) (hs : s.status = .serving)
    (text : List Char) :
    ∃ k r, ((c.deliverAll s (text.splitOn '\n')).status = .serving → r = []) ∧
      c.next^[k] (s.withInput (encode text)) =
        (c.deliverAll s (text.splitOn '\n')).withInput r := by
  induction text using lines_induction '\n' generalizing s with
  | last line hline =>
      rw [List.splitOn_eq_singleton hline]
      exact next_last hending hs (lineFeed_notMem_encode hline)
  | line line rest hline ih =>
      rw [List.splitOn_append_cons_self_of_not_mem hline, deliverAll,
        List.foldl_cons]
      change ∃ k r, ((c.deliverAll (c.deliver s (encode line)) _).status = _ →
        _) ∧ _ = (c.deliverAll (c.deliver s (encode line)) _).withInput r
      have hbytes : encode (line ++ '\n' :: rest) =
          encode line ++ lineFeed :: encode rest := by
        rw [encode_append, encode_cons, encode_lineFeed]
        rfl
      obtain ⟨k, r, hend, hnext⟩ := next_line (c := c) hs
        (lineFeed_notMem_encode hline)
      have hfirst := (hnext (encode rest)).1
      by_cases hgoes : (c.deliver s (encode line)).status = .serving
      · rw [hend hgoes, List.nil_append] at hfirst
        obtain ⟨m, r', hend', hrest⟩ := ih hgoes
        refine ⟨m + k, r', hend', ?_⟩
        rw [Function.iterate_add_apply, hbytes, hfirst, hrest]
      · rw [deliverAll_ended hgoes]
        refine ⟨k, r ++ encode rest, fun h => absurd h hgoes, ?_⟩
        rw [hbytes, hfirst]

/-- After the lines of a stream of text, the session ends with the stream. -/
theorem handleClient_serving {sys : Sys} {text : List Char}
    (hending : c.ending = .eof)
    (hgoes : (c.deliverAll (start sys []) (text.splitOn '\n')).status =
      .serving) :
    c.handleClient sys (encode text) =
      { (c.deliverAll (start sys []) (text.splitOn '\n')).withInput [] with
        status := .closed } := by
  have hs : (start sys []).status = .serving := rfl
  obtain ⟨k, r, hend, hnext⟩ := next_text hending hs text
  rw [hend hgoes] at hnext
  have hlast : c.next^[k + 1] (start sys (encode text)) =
      { (c.deliverAll (start sys []) (text.splitOn '\n')).withInput [] with
        status := .closed } := by
    rw [Function.iterate_succ_apply']
    exact (congrArg c.next hnext).trans (next_nil hgoes)
  rw [← hlast]
  apply handleClient_eq
  rw [hlast]
  exact SessionStatus.noConfusion

/-- If the session has ended before, nothing more comes of the stream. -/
theorem handleClient_not_serving {sys : Sys} {text : List Char}
    (hending : c.ending = .eof)
    (hended : (c.deliverAll (start sys []) (text.splitOn '\n')).status ≠
      .serving) :
    ∃ r, c.handleClient sys (encode text) =
      (c.deliverAll (start sys []) (text.splitOn '\n')).withInput r := by
  have hs : (start sys []).status = .serving := rfl
  obtain ⟨k, r, -, hnext⟩ := next_text hending hs text
  refine ⟨r, ?_⟩
  rw [← hnext]
  apply handleClient_eq
  change (c.next^[k] ((start sys []).withInput (encode text))).status ≠ _
  rw [hnext]
  exact hended

/-! ## What the answers are -/

theorem answerAll_cons {served served' : Served} {line : List Char}
    {lines : List (List Char)} {vs : List Value}
    (h : c.answerAll served (line :: lines) = .ok (served', vs)) :
    ∃ mid v vs', c.answer served line = .ok (mid, v) ∧
      c.answerAll mid lines = .ok (served', vs') ∧ vs = v :: vs' := by
  cases hline : c.answer served line with
  | error k =>
      rw [answerAll_error hline] at h
      cases h
  | ok result =>
      obtain ⟨mid, v⟩ := result
      rw [answerAll_ok hline] at h
      cases hrest : c.answerAll mid lines with
      | error k =>
          rw [hrest] at h
          cases h
      | ok result =>
          obtain ⟨served'', vs'⟩ := result
          rw [hrest] at h
          cases h
          exact ⟨mid, v, vs', rfl, hrest, rfl⟩

theorem answer_requests {served served' : Served} {line : List Char} {v : Value}
    (h : c.answer served line = .ok (served', v)) :
    served'.requests = served.requests ++ (c.parse line).toList := by
  unfold answer at h
  unfold parse
  split at h
  next e hparse =>
    cases h
    rw [hparse]
    exact (List.append_nil _).symm
  next req hparse =>
    dsimp only at h
    split at h
    next => cases h
    next =>
      cases h
      rw [hparse]
      rfl

theorem answer_refused {served served' : Served} {line : List Char} {v : Value}
    (hrefused : c.refuses line = true)
    (h : c.answer served line = .ok (served', v)) :
    v.index "ok" = .bool false := by
  have herror : ∀ e, (errorMsg e).index "ok" = .bool false := by
    intro e
    simp [errorMsg, Value.index]
  unfold answer at h
  unfold refuses at hrefused
  split at h
  next e hparse =>
    cases h
    exact herror e
  next req hparse =>
    rw [hparse] at hrefused
    dsimp only at hrefused h
    split at hrefused
    next cmd hcmd =>
      unfold dispatch at h
      rw [hcmd] at h
      cases h
      exact herror _
    next => cases hrefused

theorem answerAll_requests {served served' : Served}
    {lines : List (List Char)} {vs : List Value}
    (h : c.answerAll served lines = .ok (served', vs)) :
    served'.requests = served.requests ++ lines.filterMap c.parse := by
  induction lines generalizing served vs with
  | nil =>
      cases h
      exact (List.append_nil _).symm
  | cons line lines ih =>
      obtain ⟨mid, v, vs', hline, hrest, -⟩ := answerAll_cons h
      rw [ih hrest, answer_requests hline, List.append_assoc,
        List.filterMap_cons]
      cases c.parse line <;> rfl

/-- Every line has its answer, at its place. -/
theorem answerAll_split {served served' : Served}
    {earlier later : List (List Char)} {line : List Char} {vs : List Value}
    (h : c.answerAll served (earlier ++ line :: later) = .ok (served', vs)) :
    ∃ before after v vs₁ vs₂, vs = vs₁ ++ v :: vs₂ ∧
      vs₁.length = earlier.length ∧
      c.answerAll served earlier = .ok (before, vs₁) ∧
      c.answer before line = .ok (after, v) := by
  induction earlier generalizing served vs with
  | nil =>
      obtain ⟨mid, v, vs', hline, -, rfl⟩ := answerAll_cons h
      exact ⟨served, mid, v, [], vs', rfl, rfl, rfl, hline⟩
  | cons first earlier ih =>
      obtain ⟨mid, u, vs', hfirst, hrest, rfl⟩ := answerAll_cons h
      obtain ⟨before, after, v, vs₁, vs₂, rfl, hcount, hearlier, hline⟩ :=
        ih hrest
      refine ⟨before, after, v, u :: vs₁, vs₂, rfl, ?_, ?_, hline⟩
      · rw [List.length_cons, hcount, List.length_cons]
      · rw [answerAll_ok hfirst, hearlier]
        rfl

theorem answerAll_length {served served' : Served}
    {lines : List (List Char)} {vs : List Value}
    (h : c.answerAll served lines = .ok (served', vs)) :
    vs.length = lines.length := by
  induction lines generalizing served vs with
  | nil =>
      cases h
      rfl
  | cons line lines ih =>
      obtain ⟨mid, v, vs', -, hrest, rfl⟩ := answerAll_cons h
      rw [List.length_cons, ih hrest, List.length_cons]

/-- What has been written is a line for each response. -/
theorem exists_output {serde : Serde} {vs : List Value}
    (hvs : ∀ v ∈ vs, serde.Inverts v) :
    ∃ out lines, vs.flatMap (writeResponse serde none) = encode out ∧
      out.splitOn '\n' = lines ++ [[]] ∧
      lines.map (fun line => serde.fromStr (String.ofList line)) =
        vs.map Except.ok := by
  have hlines : ∃ lines : List (List Char),
      vs.flatMap (writeResponse serde none) =
        encode (lines.flatMap fun line => line ++ ['\n']) ∧
      (∀ line ∈ lines, '\n' ∉ line) ∧
      lines.map (fun line => serde.fromStr (String.ofList line)) =
        vs.map Except.ok := by
    induction vs with
    | nil => exact ⟨[], rfl, List.forall_mem_nil _, rfl⟩
    | cons v vs ih =>
        obtain ⟨line, hto, hnewline, hfrom⟩ := hvs v List.mem_cons_self
        obtain ⟨lines, hbytes, hfree, hback⟩ :=
          ih fun v hmem => hvs v (List.mem_cons_of_mem _ hmem)
        refine ⟨line.toList :: lines, ?_, ?_, ?_⟩
        · rw [List.flatMap_cons, List.flatMap_cons, encode_append, hbytes]
          rw [writeResponse, hto]
          rfl
        · exact List.forall_mem_cons.mpr ⟨hnewline, hfree⟩
        · rw [List.map_cons, List.map_cons, hback, String.ofList_toList, hfrom]
  obtain ⟨lines, hbytes, hfree, hback⟩ := hlines
  exact ⟨_, lines, hbytes, splitOn_flatMap hfree, hback⟩

end ClientCall

/-! ## The whole session -/

/-- The session has answered the lines, each of them once and in order, and has
ended with the stream. -/
structure Answered (c : ClientCall) (sys : Sys) (lines : List (List Char))
    (s : Session) : Prop where
  closed : s.status = .closed
  /-- The managers, the kernel and the responses are what folding over the lines
  gives. -/
  fold : c.answerAll ⟨sys, []⟩ lines = .ok (⟨s.sys, s.requests⟩, s.responses)
  dispatched : s.requests = lines.filterMap c.parse
  count : s.responses.length = lines.length
  /-- The response at a line's place is the answer to this line, in the state
  that the lines before it have left. -/
  answers : ∀ earlier line later, lines = earlier ++ line :: later →
    ∃ before after v vs₁ vs₂, s.responses = vs₁ ++ v :: vs₂ ∧
      vs₁.length = earlier.length ∧
      c.answerAll ⟨sys, []⟩ earlier = .ok (before, vs₁) ∧
      c.answer before line = .ok (after, v) ∧
      (c.refuses line = true → v.index "ok" = .bool false)
  /-- The output consists of one line for each response. -/
  written : ∃ out replies, s.output = encode out ∧
    out.splitOn '\n' = replies ++ [[]] ∧
    replies.map (fun line => c.serde.fromStr (String.ofList line)) =
      s.responses.map Except.ok

theorem answered_after {c : ClientCall} {sys : Sys}
    {lines : List (List Char)} {served : Served} {responses : List Value}
    (hfold : c.answerAll ⟨sys, []⟩ lines = .ok (served, responses))
    (hserde : ∀ v ∈ responses, c.serde.Inverts v) :
    Answered c sys lines
      { ((ClientCall.start sys []).after c.serde served responses).withInput []
        with status := .closed } := by
  constructor
  · rfl
  · exact hfold
  · exact ClientCall.answerAll_requests hfold
  · exact ClientCall.answerAll_length hfold
  · intro earlier line later hsplit
    rw [hsplit] at hfold
    obtain ⟨before, after, v, vs₁, vs₂, heq, hcount, hearlier, hline⟩ :=
      ClientCall.answerAll_split hfold
    exact ⟨before, after, v, vs₁, vs₂, heq, hcount, hearlier, hline,
      fun hrefused => ClientCall.answer_refused hrefused hline⟩
  · exact ClientCall.exists_output hserde

/-- Within the cap, the lines of a stream of text are answered each once and in
order, and the managers end in the state that folding over the lines gives.  The
daemon panics where the fold does. -/
theorem handleClient_answers {c : ClientCall} {sys : Sys}
    {input : List UInt8} {text : List Char} (htext : decode input = some text)
    (hcap : ∀ line ∈ text.splitOn '\n',
      (encode (stripReturns line)).length ≤ maxRequestLineBytes)
    (hending : c.ending = .eof) (hreply : ∀ n, c.reply n = none)
    (hrefusal : ∀ n, c.refusal n = none)
    (hserde : ∀ served responses,
      c.answerAll ⟨sys, []⟩ (requestLines text) = .ok (served, responses) →
        ∀ v ∈ responses, c.serde.Inverts v) :
    match c.answerAll ⟨sys, []⟩ (requestLines text) with
    | .error k =>
        (c.handleClient sys input).status = .panicked ∧
          (c.handleClient sys input).sys.kernel = k
    | .ok _ => Answered c sys (requestLines text) (c.handleClient sys input) := by
  obtain rfl : input = encode text := decode_eq_some_iff.mp htext
  have hs : (ClientCall.start sys []).status = .serving := rfl
  have hlines : ∀ line ∈ text.splitOn '\n', '\n' ∉ line ∧
      (encode (stripReturns line)).length ≤ maxRequestLineBytes :=
    fun line hmem => ⟨notMem_of_mem_splitOn hmem, hcap line hmem⟩
  have hbecomes : (ClientCall.start sys []).Becomes
      (c.deliverAll (ClientCall.start sys []) (text.splitOn '\n')) c.serde
      (c.answerAll ⟨sys, []⟩ (requestLines text)) :=
    ClientCall.deliverAll_becomes hs hreply hrefusal hlines
  cases hfold : c.answerAll ⟨sys, []⟩ (requestLines text) with
  | error k =>
      rw [hfold] at hbecomes
      have hended : (c.deliverAll (ClientCall.start sys [])
          (text.splitOn '\n')).status ≠ .serving := by
        rw [hbecomes.1]
        exact SessionStatus.noConfusion
      obtain ⟨r, hclient⟩ := ClientCall.handleClient_not_serving hending hended
      rw [hclient]
      exact hbecomes
  | ok result =>
      obtain ⟨served, responses⟩ := result
      rw [hfold] at hbecomes
      have hafter : c.deliverAll (ClientCall.start sys [])
          (text.splitOn '\n') =
            (ClientCall.start sys []).after c.serde served responses := hbecomes
      have hgoes : (c.deliverAll (ClientCall.start sys [])
          (text.splitOn '\n')).status = .serving := by
        rw [hafter]
        exact hs
      rw [ClientCall.handleClient_serving hending hgoes, hafter]
      exact answered_after hfold (hserde served responses hfold)

/-! ## A short session -/

/-- The part of `serde_json` that some short sessions need. -/
def sampleSerde : Serde where
  fromStr s :=
    if s = "\x7b\x22cmd\x22:\x22ping\x22\x7d" then .ok (.command "ping")
    else if s = "\x7b\x22cmd\x22:\x22stop_vm\x22\x7d" then
      .ok (.command "stop_vm")
    else if s = "\x7b\x22msg\x22:\x22pong\x22,\x22ok\x22:true\x7d" then
      .ok (okMsg "pong")
    else if s = "\x7b\x22error\x22:\x22expected value at line 1 column 1\x22," ++
        "\x22ok\x22:false\x7d" then
      .ok (errorMsg "expected value at line 1 column 1")
    else .error "expected value at line 1 column 1"
  toStr
    | .object [("ok", .bool true), ("msg", .string msg)] =>
        some ("\x7b\x22msg\x22:\x22" ++ msg ++ "\x22,\x22ok\x22:true\x7d")
    | .object [("ok", .bool false), ("error", .string e)] =>
        some ("\x7b\x22error\x22:\x22" ++ e ++ "\x22,\x22ok\x22:false\x7d")
    | _ => none

/-- A client that shuts its side down when it has sent everything, and reads all
responses. -/
def sampleCall : ClientCall where
  cfg := Config.default
  startup := .notStarted
  startedAt := 0
  serde := sampleSerde
  ending := .eof
  meanwhile _ k := k
  answers _ := .works 101 201
  reply _ := none
  refusal _ := none

/-- A ping with a carriage return, an empty line, and a last line that is
neither JSON nor ended. -/
def sampleText : List Char :=
  "\x7b\x22cmd\x22:\x22ping\x22\x7d\r\n\nhello".toList

/-- The ping is answered, and so is the line that is not JSON. -/
theorem handleClient_answers_ping :
    Answered sampleCall (init Config.default 0).sys (requestLines sampleText)
      (sampleCall.handleClient (init Config.default 0).sys
        (encode sampleText)) := by
  have hfold : ∃ served, sampleCall.answerAll ⟨(init Config.default 0).sys, []⟩
      (requestLines sampleText) = .ok (served, [okMsg "pong",
        errorMsg "expected value at line 1 column 1"]) := by
    exact ⟨_, rfl⟩
  obtain ⟨served, hfold⟩ := hfold
  have hserde : ∀ v ∈ [okMsg "pong",
      errorMsg "expected value at line 1 column 1"],
      sampleSerde.Inverts v := by
    intro v hv
    rcases List.mem_pair.mp hv with rfl | rfl
    · exact ⟨_, rfl, by decide, rfl⟩
    · exact ⟨_, rfl, by decide, rfl⟩
  have hall := handleClient_answers (c := sampleCall)
    (decode_encode sampleText) (by decide) rfl (fun _ => rfl) (fun _ => rfl)
    (fun served' responses hresult => by
      rw [hfold] at hresult
      cases hresult
      exact hserde)
  rw [hfold] at hall
  exact hall

end Teeproxyd
