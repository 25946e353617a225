import Mathlib.Data.List.Infix
import Teeproxyd.Daemon.Client
import Teeproxyd.Daemon.Steps

/-!
# How a session reads lines

The loop of `handle_client` sees a line of the stream as its pieces.  Each
iteration that reads something takes one piece, so that a line is served by
folding over its pieces, and the bytes behind it stay as they are.
-/

namespace Teeproxyd

open Framing TransitionSystem Utf8

/-! ## Trimming -/

/-- `trim_end_matches('\r')`. -/
def stripReturns (line : List Char) : List Char := line.rdropWhile (· = '\r')

theorem trimLine_append_lineFeed (line : List Char) :
    trimLine (line ++ ['\n']) = trimLine line := by
  rw [trimLine, trimLine, List.rdropWhile_concat_pos _ _ _ (by decide)]

theorem trimLine_of_notMem {line : List Char} (hline : '\n' ∉ line) :
    trimLine line = stripReturns line := by
  have hlast : line.rdropWhile (· = '\n') = line := by
    rw [List.rdropWhile_eq_self_iff]
    intro hne hlf
    apply hline
    rw [← of_decide_eq_true hlf]
    exact List.getLast_mem hne
  rw [trimLine, hlast, stripReturns]

/-! ## Iterations -/

/-- The session with other bytes ahead of it. -/
def Session.withInput (s : Session) (input : List UInt8) : Session :=
  { s with input := input }

@[simp] theorem Session.withInput_status (s : Session) (input : List UInt8) :
    (s.withInput input).status = s.status := rfl

@[simp] theorem Session.withInput_input (s : Session) (input : List UInt8) :
    (s.withInput input).input = input := rfl

namespace ClientCall

variable (c : ClientCall)

theorem next_serving {s : Session} (hs : s.status = .serving) :
    c.next s = c.iterate s :=
  if_pos hs

theorem next_ended {s : Session} (hs : s.status ≠ .serving) : c.next s = s :=
  if_neg hs

theorem iterate_ended {s : Session} (hs : s.status ≠ .serving) (n : ℕ) :
    c.next^[n] s = s := by
  induction n with
  | zero => rfl
  | succ n ih => rw [Function.iterate_succ_apply, c.next_ended hs, ih]

/-! ## Pieces -/

/-- What the loop does with a piece that it has read. -/
def receive (s : Session) (piece : List UInt8) : Session :=
  if s.status = .serving then
    match decode piece with
    | none => { s with status := .closed }
    | some line => c.handleLine line s
  else s

/-- What the loop does with a line, in as many pieces as it comes. -/
def deliver (s : Session) (line : List UInt8) : Session :=
  (pieces maxRequestLineBytes line).foldl c.receive s

variable {c} {s : Session} {input rest piece line : List UInt8}

theorem receive_ended (hs : s.status ≠ .serving) : c.receive s piece = s :=
  if_neg hs

theorem foldl_receive_ended (hs : s.status ≠ .serving)
    (ps : List (List UInt8)) : ps.foldl c.receive s = s := by
  induction ps with
  | nil => rfl
  | cons p ps ih => rw [List.foldl_cons, receive_ended hs, ih]

theorem deliver_ended (hs : s.status ≠ .serving) : c.deliver s line = s :=
  foldl_receive_ended hs _

theorem receive_decode {cs : List Char} (hs : s.status = .serving)
    (hpiece : decode piece = some cs) :
    c.receive s piece = c.handleLine cs s := by
  simp only [receive, if_pos hs, hpiece]

theorem receive_invalid (hs : s.status = .serving)
    (hpiece : decode piece = none) :
    c.receive s piece = { s with status := .closed } := by
  simp only [receive, if_pos hs, hpiece]

theorem receive_blank {cs : List Char} (hpiece : decode piece = some cs)
    (hblank : trimLine cs = []) : c.receive s piece = s := by
  by_cases hs : s.status = .serving
  · rw [receive_decode hs hpiece, handleLine, if_pos hblank]
  · exact receive_ended hs

theorem receive_refused {cs : List Char} {e : String}
    (hs : s.status = .serving) (hpiece : decode piece = some cs)
    (htext : trimLine cs ≠ [])
    (hparse : c.serde.fromStr (String.ofList (trimLine cs)) = .error e) :
    c.receive s piece = c.refuse e s := by
  rw [receive_decode hs hpiece, handleLine, if_neg htext, hparse]

theorem receive_request {cs : List Char} {req : Value}
    (hs : s.status = .serving) (hpiece : decode piece = some cs)
    (htext : trimLine cs ≠ [])
    (hparse : c.serde.fromStr (String.ofList (trimLine cs)) = .ok req) :
    c.receive s piece = c.handleRequest req s := by
  rw [receive_decode hs hpiece, handleLine, if_neg htext, hparse]

theorem receive_nil : c.receive s [] = s := by
  have hempty : decode ([] : List UInt8) = some [] := decode_encode []
  exact receive_blank hempty rfl

/-- The line feed at its end makes no difference to a piece. -/
theorem receive_append_lineFeed :
    c.receive s (piece ++ [lineFeed]) = c.receive s piece := by
  unfold receive
  rw [decode_append_lineFeed]
  cases decode piece with
  | none => rfl
  | some cs =>
      rw [Option.map_some]
      dsimp only [handleLine]
      rw [trimLine_append_lineFeed]

theorem handleLine_input (cs : List Char) (r : List UInt8) :
    c.handleLine cs (s.withInput r) = (c.handleLine cs s).withInput r := by
  unfold handleLine Session.withInput
  dsimp only
  split
  next => rfl
  next =>
    split
    next => rfl
    next req =>
      unfold handleRequest
      dsimp only
      split <;> rfl

/-! ## Reading a line -/

theorem readLine_eq (ending : StreamEnd) (input : List UInt8) :
    readLine ending input =
      if ending = .error ∧
          (readUntil lineFeed maxRequestLineBytes input).1.length <
            maxRequestLineBytes ∧
          (readUntil lineFeed maxRequestLineBytes input).1.getLast? ≠
            some lineFeed then none
      else (decode (readUntil lineFeed maxRequestLineBytes input).1).map
        fun line => (line, (readUntil lineFeed maxRequestLineBytes input).2) :=
  rfl

/-- Reading a line sees no more of the stream than the cap. -/
theorem readLine_take (ending : StreamEnd) (input : List UInt8) :
    (readLine
        (if input.length < maxRequestLineBytes then ending else .eof)
        (input.take maxRequestLineBytes)).map Prod.fst =
      (readLine ending input).map Prod.fst := by
  rw [readLine_eq, readLine_eq, readUntil_take]
  by_cases hshort : input.length < maxRequestLineBytes
  · rw [if_pos hshort]
    split
    next => rfl
    next => rw [Option.map_map, Option.map_map]; rfl
  · rw [if_neg hshort]
    have hfull := readUntil_full (d := lineFeed) (Nat.le_of_not_lt hshort)
    rw [if_neg, if_neg, Option.map_map, Option.map_map]
    · rfl
    · rintro ⟨-, hless, hlast⟩
      rcases hfull with hcap | hlf
      · exact Nat.not_lt.mpr hcap hless
      · exact hlast hlf
    · rintro ⟨herror, -⟩
      cases herror

theorem readLine_drop {ending : StreamEnd} {input rest : List UInt8}
    {line : List Char}
    (h : readLine ending input = some (line, rest)) :
    rest = input.drop (encode line).length := by
  rw [readLine_eq] at h
  split at h
  next => cases h
  next =>
    obtain ⟨text, hdecode, heq⟩ := Option.map_eq_some_iff.mp h
    cases heq
    have hwhole := readUntil_append (d := lineFeed) maxRequestLineBytes input
    rw [decode_eq_some_iff.mp hdecode] at hwhole
    nth_rewrite 2 [← hwhole]
    exact List.drop_left.symm

/-- A read that brings something takes one piece off the stream, unless the
bytes are no text: then the session ends. -/
theorem next_piece (hs : s.status = .serving)
    (hread : readUntil lineFeed maxRequestLineBytes input = (piece, rest))
    (hpiece : piece ≠ [])
    (hcomplete : c.ending = .eof ∨ maxRequestLineBytes ≤ piece.length ∨
      piece.getLast? = some lineFeed) :
    c.next (s.withInput input) = (c.receive s piece).withInput
      (if decode piece = none then input else rest) := by
  have hnofail : ¬ (c.ending = .error ∧ piece.length < maxRequestLineBytes ∧
      piece.getLast? ≠ some lineFeed) := by
    rintro ⟨herror, hshort, hlast⟩
    rcases hcomplete with heof | hlong | hlf
    · rw [heof] at herror
      cases herror
    · exact absurd hshort (Nat.not_lt.mpr hlong)
    · exact hlast hlf
  have hline : readLine c.ending input = (decode piece).map fun line =>
      (line, rest) := by
    rw [readLine, hread]
    exact if_neg hnofail
  have hgoes : (s.withInput input).status = .serving := hs
  rw [c.next_serving hgoes, iterate, Session.withInput_input, hline]
  cases hdecode : decode piece with
  | none =>
      rw [receive_invalid hs hdecode, if_pos rfl]
      rfl
  | some cs =>
      have hcs : cs ≠ [] := by
        rintro rfl
        exact hpiece (decode_eq_some_iff.mp hdecode)
      rw [receive_decode hs hdecode, if_neg (by simp)]
      cases cs with
      | nil => exact absurd rfl hcs
      | cons ch cs =>
          change c.handleLine (ch :: cs) (s.withInput rest) = _
          exact handleLine_input (ch :: cs) rest

theorem next_nil (hs : s.status = .serving) :
    c.next (s.withInput []) =
      { s.withInput [] with status := .closed } := by
  have hgoes : (s.withInput []).status = .serving := hs
  have hdecode : decode ([] : List UInt8) = some [] := decode_encode []
  have hread : readLine c.ending [] = none ∨
      readLine c.ending [] = some ([], []) := by
    rw [readLine, readUntil_nil]
    dsimp only
    split
    next => exact Or.inl rfl
    next =>
      rw [hdecode]
      exact Or.inr rfl
  rw [c.next_serving hgoes, iterate, Session.withInput_input]
  rcases hread with hread | hread <;> rw [hread] <;> rfl

theorem next_cut (hs : s.status = .serving) (hline : lineFeed ∉ line)
    (hlong : maxRequestLineBytes ≤ line.length) :
    c.next (s.withInput (line ++ rest)) =
      (c.receive s (line.take maxRequestLineBytes)).withInput
        (if decode (line.take maxRequestLineBytes) = none then line ++ rest
          else line.drop maxRequestLineBytes ++ rest) := by
  have hlength : (line.take maxRequestLineBytes).length =
      maxRequestLineBytes := by
    rw [List.length_take, Nat.min_eq_left hlong]
  have hne : line.take maxRequestLineBytes ≠ [] := by
    rw [← List.length_pos_iff, hlength]
    exact Nat.pos_of_ne_zero (NeZero.ne _)
  exact next_piece hs (readUntil_cut hline hlong) hne
    (Or.inr (Or.inl (Nat.le_of_eq hlength.symm)))

theorem decode_ne_none (hs : s.status = .serving)
    (hgoes : (c.receive s piece).status = .serving) : decode piece ≠ none := by
  intro hinvalid
  rw [receive_invalid hs hinvalid] at hgoes
  cases hgoes

theorem deliver_short (hshort : line.length < maxRequestLineBytes) :
    c.deliver s line = c.receive s line := by
  rw [deliver, pieces_short hshort]
  rfl

theorem deliver_long (hlong : maxRequestLineBytes ≤ line.length) :
    c.deliver s line =
      c.deliver (c.receive s (line.take maxRequestLineBytes))
        (line.drop maxRequestLineBytes) := by
  rw [deliver, pieces_long hlong]
  rfl

theorem length_drop_cap (hlong : maxRequestLineBytes ≤ line.length) :
    (line.drop maxRequestLineBytes).length < line.length := by
  have hcap : 0 < maxRequestLineBytes := Nat.pos_of_ne_zero (NeZero.ne _)
  rw [List.length_drop]
  omega

/-- A line of the stream is served piece by piece.  If the session is still
serving then, what follows the line comes next; and it did not come before. -/
theorem next_line (hs : s.status = .serving) (hline : lineFeed ∉ line) :
    ∃ k r, ((c.deliver s line).status = .serving → r = []) ∧
      ∀ rest,
        c.next^[k] (s.withInput (line ++ lineFeed :: rest)) =
          (c.deliver s line).withInput (r ++ rest) ∧
        ∀ j < k, rest.length <
          (c.next^[j] (s.withInput (line ++ lineFeed :: rest))).input.length := by
  induction hn : line.length using Nat.strong_induction_on
    generalizing s line with | _ n ih =>
  have hfirst : ∀ rest j, j < 1 → rest.length < (c.next^[j]
      (s.withInput (line ++ lineFeed :: rest))).input.length := by
    intro rest j hj
    obtain rfl : j = 0 := Nat.lt_one_iff.mp hj
    simp only [Function.iterate_zero, id_eq, Session.withInput_input,
      List.length_append, List.length_cons]
    omega
  by_cases hshort : line.length < maxRequestLineBytes
  · -- the line is its only piece
    rw [deliver_short hshort]
    refine ⟨1, if decode (line ++ [lineFeed]) = none then line ++ [lineFeed]
      else [], ?_, ?_⟩
    · intro hgoes
      rw [← receive_append_lineFeed] at hgoes
      exact if_neg (decode_ne_none hs hgoes)
    · intro rest
      refine ⟨?_, hfirst rest⟩
      have hnext : c.next (s.withInput (line ++ lineFeed :: rest)) = _ :=
        next_piece hs (readUntil_line hline hshort) (by simp)
          (Or.inr (Or.inr List.getLast?_concat))
      rw [Function.iterate_one, hnext, receive_append_lineFeed]
      split
      · simp
      · rfl
  have hlong : maxRequestLineBytes ≤ line.length := Nat.le_of_not_lt hshort
  rw [deliver_long hlong]
  by_cases hgoes :
      (c.receive s (line.take maxRequestLineBytes)).status = .serving
  · -- the rest of the line follows
    have hrest : lineFeed ∉ line.drop maxRequestLineBytes :=
      fun h => hline (List.mem_of_mem_drop h)
    have hless := length_drop_cap hlong
    obtain ⟨k, r, hend, hnext⟩ := ih _ (hn ▸ hless) hgoes hrest rfl
    refine ⟨k + 1, r, hend, ?_⟩
    intro rest
    have hstep : c.next (s.withInput (line ++ lineFeed :: rest)) = _ :=
      next_cut hs hline hlong
    rw [if_neg (decode_ne_none hs hgoes)] at hstep
    constructor
    · rw [Function.iterate_succ_apply, hstep]
      exact (hnext rest).1
    · intro j hj
      cases j with
      | zero => exact hfirst rest 0 Nat.one_pos
      | succ j =>
          rw [Function.iterate_succ_apply, hstep]
          exact (hnext rest).2 j (Nat.lt_of_succ_lt_succ hj)
  · -- the session has ended
    rw [deliver_ended hgoes]
    refine ⟨1, if decode (line.take maxRequestLineBytes) = none
      then line ++ [lineFeed]
      else line.drop maxRequestLineBytes ++ [lineFeed], ?_, ?_⟩
    · intro h
      exact absurd h hgoes
    · intro rest
      refine ⟨?_, hfirst rest⟩
      rw [Function.iterate_one, next_cut hs hline hlong]
      split <;> simp

theorem next_last (hending : c.ending = .eof) (hs : s.status = .serving)
    (hline : lineFeed ∉ line) :
    ∃ k r, ((c.deliver s line).status = .serving → r = []) ∧
      c.next^[k] (s.withInput line) = (c.deliver s line).withInput r := by
  induction hn : line.length using Nat.strong_induction_on
    generalizing s line with | _ n ih =>
  by_cases hshort : line.length < maxRequestLineBytes
  · rw [deliver_short hshort]
    by_cases hnil : line = []
    · subst hnil
      rw [receive_nil]
      exact ⟨0, [], fun _ => rfl, rfl⟩
    refine ⟨1, if decode line = none then line else [], ?_, ?_⟩
    · intro hgoes
      exact if_neg (decode_ne_none hs hgoes)
    · rw [Function.iterate_one]
      exact next_piece hs (readUntil_end hline (Nat.le_of_lt hshort)) hnil
        (Or.inl hending)
  have hlong : maxRequestLineBytes ≤ line.length := Nat.le_of_not_lt hshort
  rw [deliver_long hlong]
  have hstep : c.next (s.withInput (line ++ [])) = _ :=
    next_cut hs hline hlong
  rw [List.append_nil, List.append_nil] at hstep
  by_cases hgoes :
      (c.receive s (line.take maxRequestLineBytes)).status = .serving
  · have hrest : lineFeed ∉ line.drop maxRequestLineBytes :=
      fun h => hline (List.mem_of_mem_drop h)
    have hless := length_drop_cap hlong
    obtain ⟨k, r, hend, hnext⟩ := ih _ (hn ▸ hless) hgoes hrest rfl
    refine ⟨k + 1, r, hend, ?_⟩
    rw [if_neg (decode_ne_none hs hgoes)] at hstep
    rw [Function.iterate_succ_apply, hstep, hnext]
  · rw [deliver_ended hgoes]
    refine ⟨1, if decode (line.take maxRequestLineBytes) = none then line
      else line.drop maxRequestLineBytes, fun h => absurd h hgoes, ?_⟩
    rw [Function.iterate_one]
    exact hstep

/-! ## The end of a session -/

theorem readLine_rest {ending : StreamEnd} {cs : List Char}
    (hread : readLine ending input = some (cs, rest)) (hcs : cs ≠ []) :
    rest.length < input.length := by
  rw [readLine] at hread
  dsimp only at hread
  split at hread
  next => cases hread
  next =>
    obtain ⟨text, hdecode, heq⟩ := Option.map_eq_some_iff.mp hread
    cases heq
    apply readUntil_rest_lt (NeZero.ne _)
    rintro rfl
    rw [readUntil_nil, decode_eq_some_iff.mpr encode_nil.symm] at hdecode
    exact hcs (Option.some.inj hdecode).symm

/-- An iteration either takes something off the stream or is the last one. -/
theorem next_input_lt (hs : s.status = .serving)
    (hgoes : (c.next s).status = .serving) :
    (c.next s).input.length < s.input.length := by
  rw [c.next_serving hs] at hgoes ⊢
  unfold iterate at hgoes ⊢
  split at hgoes
  next => cases hgoes
  next => cases hgoes
  next cs rest hne hread =>
    have hhandle : c.handleLine cs { s with input := rest } =
        (c.handleLine cs s).withInput rest := handleLine_input cs rest
    rw [hhandle]
    exact readLine_rest hread hne

theorem iterate_input_lt {n : ℕ} (hgoes : (c.next^[n] s).status = .serving) :
    (c.next^[n] s).input.length + n ≤ s.input.length := by
  induction n with
  | zero => exact Nat.le_refl _
  | succ n ih =>
      rw [Function.iterate_succ_apply'] at hgoes ⊢
      have hs : (c.next^[n] s).status = .serving := by
        by_contra hended
        rw [c.next_ended hended] at hgoes
        exact hended hgoes
      have hless := next_input_lt hs hgoes
      have hbound := ih hs
      omega

theorem handleClient_ended (sys : Sys) (input : List UInt8) :
    (c.handleClient sys input).status ≠ .serving := by
  intro hgoes
  have hbound := iterate_input_lt hgoes
  have hstart : (start sys input).input.length = input.length := rfl
  omega

/-- However many iterations have ended the session, `handleClient` ends it the
same way. -/
theorem handleClient_eq {sys : Sys} {k : ℕ}
    (hended : (c.next^[k] (start sys input)).status ≠ .serving) :
    c.handleClient sys input = c.next^[k] (start sys input) := by
  rcases Nat.le_total k (input.length + 1) with hle | hle
  · obtain ⟨m, hm⟩ := Nat.exists_eq_add_of_le' hle
    rw [handleClient, hm, Function.iterate_add_apply, c.iterate_ended hended]
  · obtain ⟨m, rfl⟩ := Nat.exists_eq_add_of_le' hle
    rw [Function.iterate_add_apply]
    exact (c.iterate_ended (handleClient_ended sys input) m).symm

end ClientCall

/-! ## The session in the main loop -/

/-- Where the thread stands. -/
def SessionStatus.pc : SessionStatus → Pc
  | serving => .session
  | closed => .startup
  | panicked => .panicked

/-- The daemon in the middle of a session. -/
def Daemon.during (d : Daemon) (s : Session) : Daemon :=
  { d with sys := s.sys, pc := s.status.pc }

/-- The daemon makes this call: what happens to the kernel meanwhile is the work
of its environment. -/
structure ClientCall.MadeBy (c : ClientCall) (d : Daemon) : Prop where
  startup : c.startup = d.startup
  startedAt : c.startedAt = d.startedAt
  meanwhile : ∀ n (e : Daemon), e.pc = .session →
    ∃ ls, (∀ l ∈ ls, l.isEnvironment = true) ∧
      exec (step c.cfg) e ls = some (e.withKernel (c.meanwhile n e.kernel))

namespace ClientCall

variable {c : ClientCall} {d : Daemon} {s : Session}

theorem cmds_of_environment {ls : List Label}
    (hls : ∀ l ∈ ls, l.isEnvironment = true) : ls.filterMap Label.cmd = [] := by
  rw [List.filterMap_eq_nil_iff]
  intro l hl
  have henv := hls l hl
  cases l with
  | request req env written => cases henv
  | _ => rfl

/-- A request is one step of the daemon, after steps of its environment. -/
theorem handleRequest_run (hmade : c.MadeBy d) (hs : s.status = .serving)
    (req : Value) :
    ∃ ls, exec (step c.cfg) (d.during s) ls =
        some (d.during (c.handleRequest req s)) ∧
      ls.filterMap Label.cmd = [requestCmd req] := by
  have hpc : (d.during s).pc = .session := by
    unfold Daemon.during
    rw [hs]
    rfl
  obtain ⟨ls, hls, hrun⟩ := hmade.meanwhile s.requests.length _ hpc
  refine ⟨ls ++ [.request req (c.answers s.requests.length)
    (decide (c.reply s.requests.length = none))], ?_, ?_⟩
  · rw [exec_append_eq_some_iff]
    refine ⟨_, hrun, ?_⟩
    rw [exec_singleton]
    simp only [step, Daemon.withKernel, hpc]
    unfold handleRequest
    dsimp only [Daemon.during]
    rw [← hmade.startup, ← hmade.startedAt]
    split
    next k hdispatch =>
      rw [hdispatch]
      rfl
    next sys response hdispatch =>
      rw [hdispatch]
      by_cases hreply : c.reply s.requests.length = none
      · simp [hreply, SessionStatus.pc]
      · simp [hreply, SessionStatus.pc]
  · rw [List.filterMap_append, cmds_of_environment hls]
    rfl

theorem handleRequest_requests (c : ClientCall) (req : Value) (s : Session) :
    (c.handleRequest req s).requests = s.requests ++ [req] := by
  unfold handleRequest
  dsimp only
  split <;> rfl

theorem handleLine_run (hmade : c.MadeBy d) (hs : s.status = .serving)
    (line : List Char) :
    ∃ ls, exec (step c.cfg) (d.during s) ls =
        some (d.during (c.handleLine line s)) ∧
      (c.handleLine line s).requests.map requestCmd =
        s.requests.map requestCmd ++ ls.filterMap Label.cmd := by
  unfold handleLine
  dsimp only
  split
  next => exact ⟨[], rfl, (List.append_nil _).symm⟩
  next =>
    split
    next e herror => exact ⟨[], rfl, (List.append_nil _).symm⟩
    next req hparse =>
      obtain ⟨ls, hrun, hcmds⟩ := handleRequest_run hmade hs req
      refine ⟨ls, hrun, ?_⟩
      rw [handleRequest_requests, hcmds, List.map_append]
      rfl

/-- When the session closes, the daemon goes on with its iteration. -/
theorem exec_hangup (cfg : Config) (d : Daemon) (hs : s.status = .serving) :
    exec (step cfg) (d.during s) [.hangup] =
      some (d.during { s with status := .closed }) := by
  rw [exec_singleton]
  simp [step, Daemon.during, hs, SessionStatus.pc]

/-- An iteration is a run of the daemon with at most one request. -/
theorem next_run (hmade : c.MadeBy d) (s : Session) :
    ∃ ls, exec (step c.cfg) (d.during s) ls = some (d.during (c.next s)) ∧
      (c.next s).requests.map requestCmd =
        s.requests.map requestCmd ++ ls.filterMap Label.cmd := by
  by_cases hs : s.status = .serving
  · rw [c.next_serving hs]
    unfold iterate
    split
    next => exact ⟨[.hangup], exec_hangup c.cfg d hs, by simp [Label.cmd]⟩
    next => exact ⟨[.hangup], exec_hangup c.cfg d hs, by simp [Label.cmd]⟩
    next line rest hne hread =>
      have hs' : { s with input := rest }.status = .serving := hs
      exact handleLine_run hmade hs' line
  · rw [c.next_ended hs]
    exact ⟨[], rfl, (List.append_nil _).symm⟩

end ClientCall

end Teeproxyd
