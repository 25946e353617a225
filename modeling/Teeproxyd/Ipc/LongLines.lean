import Teeproxyd.Ipc.Answers

/-!
# Lines beyond the cap

The loop cannot tell the pieces of a line that is longer than the cap from
lines: it handles each of them afresh.  Such a line is discarded only when its
pieces happen to hold no JSON and no more than one text.
-/

namespace Teeproxyd

open Framing Utf8

/-! ## What discarding a line means -/

/-- The two sessions read and dispatch the same from here on; their responses may
differ so far. -/
structure Session.Alike (s t : Session) : Prop where
  input : s.input = t.input
  sys : s.sys = t.sys
  requests : s.requests = t.requests
  status : s.status = t.status

/-- `s` has come to a line that `t` does not have.  Nothing of the line is
dispatched and at most one response is given for it; then `s` goes on as `t`
does, or has ended. -/
def Discards (c : ClientCall) (s t : Session) : Prop :=
  ∃ k, (c.next^[k] s).responses.length ≤ s.responses.length + 1 ∧
    (((c.next^[k] s).status = .closed ∧ (c.next^[k] s).requests = s.requests ∧
        (c.next^[k] s).sys = s.sys) ∨
      ∀ m, (c.next^[m] (c.next^[k] s)).Alike (c.next^[m] t))

/-- The stream that consists of these lines and then these bytes. -/
def streamOf (lines : List (List UInt8)) (rest : List UInt8) : List UInt8 :=
  lines.flatMap (fun line => line ++ [lineFeed]) ++ rest

theorem streamOf_cons (line : List UInt8) (lines : List (List UInt8))
    (rest : List UInt8) :
    streamOf (line :: lines) rest = line ++ lineFeed :: streamOf lines rest := by
  simp [streamOf]

theorem streamOf_append (lines : List (List UInt8)) (rest : List UInt8) :
    streamOf lines rest = streamOf lines [] ++ rest := by
  simp [streamOf]

theorem length_le_streamOf (lines : List (List UInt8)) (rest : List UInt8) :
    rest.length ≤ (streamOf lines rest).length := by
  simp [streamOf]

/-- The texts in the pieces that come before the first one that is not UTF-8,
without the blank ones. -/
def textsOf (ps : List (List UInt8)) : List (List Char) :=
  (((ps.map decode).takeWhile Option.isSome).filterMap
    (Option.map trimLine)).filter (· ≠ [])

/-- The pieces of the line hold one text at most, and no JSON. -/
structure Harmless (serde : Serde) (line : List UInt8) : Prop where
  few : (textsOf (pieces maxRequestLineBytes line)).length ≤ 1
  noJson : ∀ text ∈ textsOf (pieces maxRequestLineBytes line), ∀ req,
    serde.fromStr (String.ofList text) ≠ .ok req

theorem textsOf_invalid {p : List UInt8} {ps : List (List UInt8)}
    (hp : decode p = none) : textsOf (p :: ps) = [] := by
  simp [textsOf, hp]

theorem textsOf_blank {p : List UInt8} {ps : List (List UInt8)}
    {cs : List Char} (hp : decode p = some cs) (hblank : trimLine cs = []) :
    textsOf (p :: ps) = textsOf ps := by
  simp [textsOf, hp, hblank]

theorem textsOf_text {p : List UInt8} {ps : List (List UInt8)}
    {cs : List Char} (hp : decode p = some cs) (htext : trimLine cs ≠ []) :
    textsOf (p :: ps) = trimLine cs :: textsOf ps := by
  simp [textsOf, hp, htext]

namespace ClientCall

variable {c : ClientCall} {s t : Session}

/-! ## Alike sessions -/

theorem Alike.handleLine (h : s.Alike t) (line : List Char) :
    (c.handleLine line s).Alike (c.handleLine line t) := by
  obtain ⟨input, sys, requests, responses, output, status⟩ := s
  obtain ⟨input', sys', requests', responses', output', status'⟩ := t
  obtain ⟨rfl, rfl, rfl, rfl⟩ := h
  unfold ClientCall.handleLine
  dsimp only
  split
  next => exact ⟨rfl, rfl, rfl, rfl⟩
  next =>
    split
    next => exact ⟨rfl, rfl, rfl, rfl⟩
    next =>
      unfold handleRequest
      dsimp only
      split
      next => exact ⟨rfl, rfl, rfl, rfl⟩
      next => exact ⟨rfl, rfl, rfl, rfl⟩

theorem Alike.next (h : s.Alike t) : (c.next s).Alike (c.next t) := by
  by_cases hs : s.status = .serving
  · have ht : t.status = .serving := h.status.symm.trans hs
    rw [c.next_serving hs, c.next_serving ht, iterate, iterate, h.input]
    split
    next => exact ⟨rfl, h.sys, h.requests, rfl⟩
    next => exact ⟨rfl, h.sys, h.requests, rfl⟩
    next line rest _ _ =>
      apply Alike.handleLine
      exact ⟨rfl, h.sys, h.requests, h.status⟩
  · have ht : t.status ≠ .serving := fun ht => hs (h.status.trans ht)
    rw [c.next_ended hs, c.next_ended ht]
    exact h

theorem Alike.iterate (h : s.Alike t) (m : ℕ) :
    (c.next^[m] s).Alike (c.next^[m] t) := by
  induction m with
  | zero => exact h
  | succ m ih =>
      rw [Function.iterate_succ_apply', Function.iterate_succ_apply']
      exact Alike.next ih

/-! ## Sessions only grow -/

/-- Neither the requests nor the responses become fewer. -/
structure Grows (s t : Session) : Prop where
  requests : s.requests.length ≤ t.requests.length
  responses : s.responses.length ≤ t.responses.length

theorem Grows.refl (s : Session) : Grows s s :=
  ⟨Nat.le_refl _, Nat.le_refl _⟩

theorem Grows.trans {u : Session} (h : Grows s t) (h' : Grows t u) :
    Grows s u :=
  ⟨Nat.le_trans h.requests h'.requests, Nat.le_trans h.responses h'.responses⟩

theorem handleLine_grows (line : List Char) :
    Grows s (c.handleLine line s) := by
  unfold handleLine
  dsimp only
  split
  next => exact Grows.refl s
  next =>
    split
    next =>
      refine ⟨Nat.le_refl _, ?_⟩
      simp [refuse]
    next =>
      unfold handleRequest
      dsimp only
      split
      next => exact ⟨by simp, Nat.le_refl _⟩
      next => exact ⟨by simp, by simp⟩

theorem receive_grows (piece : List UInt8) : Grows s (c.receive s piece) := by
  unfold receive
  split
  next =>
    split
    next => exact ⟨Nat.le_refl _, Nat.le_refl _⟩
    next line hdecode => exact handleLine_grows line
  next => exact Grows.refl s

theorem foldl_receive_grows (ps : List (List UInt8)) :
    Grows s (ps.foldl c.receive s) := by
  induction ps generalizing s with
  | nil => exact Grows.refl s
  | cons p ps ih => exact (receive_grows p).trans ih

theorem iterate_grows (n : ℕ) : Grows s (c.next^[n] s) := by
  induction n with
  | zero => exact Grows.refl s
  | succ n ih =>
      rw [Function.iterate_succ_apply']
      apply ih.trans
      by_cases hs : (c.next^[n] s).status = .serving
      · rw [c.next_serving hs, ClientCall.iterate]
        split
        next => exact ⟨Nat.le_refl _, Nat.le_refl _⟩
        next => exact ⟨Nat.le_refl _, Nat.le_refl _⟩
        next line rest _ _ =>
          have hgrows := handleLine_grows (c := c)
            (s := (c.next^[n] s).withInput rest) line
          exact ⟨hgrows.requests, hgrows.responses⟩
      · rw [c.next_ended hs]
        exact Grows.refl _

/-! ## What a line does -/

/-- Pieces without JSON are refused one by one. -/
theorem foldl_receive_refused {ps : List (List UInt8)}
    (hs : s.status = .serving)
    (hjson : ∀ text ∈ textsOf ps, ∀ req,
      c.serde.fromStr (String.ofList text) ≠ .ok req) :
    (ps.foldl c.receive s).requests = s.requests ∧
      (ps.foldl c.receive s).sys = s.sys ∧
      (ps.foldl c.receive s).responses.length =
        s.responses.length + (textsOf ps).length ∧
      ((ps.foldl c.receive s).status = .serving ∨
        (ps.foldl c.receive s).status = .closed) := by
  induction ps generalizing s with
  | nil => exact ⟨rfl, rfl, rfl, Or.inl hs⟩
  | cons p ps ih =>
      rw [List.foldl_cons]
      cases hp : decode p with
      | none =>
          have hclosed : { s with status := .closed }.status ≠ .serving :=
            SessionStatus.noConfusion
          rw [textsOf_invalid hp, receive_invalid hs hp,
            foldl_receive_ended hclosed]
          exact ⟨rfl, rfl, rfl, Or.inr rfl⟩
      | some cs =>
          by_cases hblank : trimLine cs = []
          · rw [textsOf_blank hp hblank] at hjson ⊢
            rw [receive_blank hp hblank]
            exact ih hs hjson
          · rw [textsOf_text hp hblank] at hjson ⊢
            obtain ⟨hfirst, hrest⟩ := List.forall_mem_cons.mp hjson
            cases hparse : c.serde.fromStr (String.ofList (trimLine cs)) with
            | ok req => exact absurd hparse (hfirst req)
            | error e =>
                rw [receive_refused hs hp hblank hparse]
                have hgoes : (c.refuse e s).status = .serving := hs
                obtain ⟨hrequests, hsys, hcount, hstatus⟩ := ih hgoes hrest
                refine ⟨hrequests, hsys, ?_, hstatus⟩
                have hone : (c.refuse e s).responses.length =
                    s.responses.length + 1 := by
                  simp [refuse]
                rw [hcount, hone, List.length_cons]
                omega

/-- JSON in a piece is dispatched. -/
theorem foldl_receive_json {ps : List (List UInt8)} {text : List Char}
    {req : Value} (hs : s.status = .serving) (htext : text ∈ textsOf ps)
    (hjson : c.serde.fromStr (String.ofList text) = .ok req) :
    s.requests.length < (ps.foldl c.receive s).requests.length := by
  induction ps generalizing s with
  | nil => cases htext
  | cons p ps ih =>
      rw [List.foldl_cons]
      cases hp : decode p with
      | none =>
          rw [textsOf_invalid hp] at htext
          cases htext
      | some cs =>
          by_cases hblank : trimLine cs = []
          · rw [textsOf_blank hp hblank] at htext
            rw [receive_blank hp hblank]
            exact ih hs htext
          · rw [textsOf_text hp hblank] at htext
            cases hparse : c.serde.fromStr (String.ofList (trimLine cs)) with
            | ok req' =>
                have hmore : (c.receive s p).requests.length =
                    s.requests.length + 1 := by
                  rw [receive_request hs hp hblank hparse,
                    handleRequest_requests, List.length_append]
                  rfl
                have hgrows :=
                  foldl_receive_grows (c := c) (s := c.receive s p) ps
                have hcount := hgrows.requests
                omega
            | error e =>
                rw [receive_refused hs hp hblank hparse]
                have hgoes : (c.refuse e s).status = .serving := hs
                rcases List.mem_cons.mp htext with rfl | hrest
                · rw [hparse] at hjson
                  cases hjson
                · exact ih hgoes hrest

/-! ## When a line is discarded -/

/-- Once the session has left a line behind or has ended, all has come of the
line that comes of it. -/
theorem deliver_grows {line rest : List UInt8} {k : ℕ}
    (hs : s.status = .serving) (hline : lineFeed ∉ line)
    (hafter : (c.next^[k] (s.withInput (line ++ lineFeed :: rest))).status ≠
        .serving ∨
      (c.next^[k] (s.withInput (line ++ lineFeed :: rest))).input = rest) :
    Grows (c.deliver s line)
      (c.next^[k] (s.withInput (line ++ lineFeed :: rest))) := by
  obtain ⟨n, r, -, hnext⟩ := next_line (c := c) hs hline
  obtain ⟨hread, hbefore⟩ := hnext rest
  rcases Nat.lt_or_ge k n with hlt | hge
  · rcases hafter with hended | hinput
    · obtain ⟨m, rfl⟩ := Nat.exists_eq_add_of_le' (Nat.le_of_lt hlt)
      rw [Function.iterate_add_apply, c.iterate_ended hended] at hread
      rw [hread]
      exact ⟨Nat.le_refl _, Nat.le_refl _⟩
    · have hmore := hbefore k hlt
      rw [hinput] at hmore
      exact absurd hmore (Nat.lt_irrefl _)
  · obtain ⟨m, rfl⟩ := Nat.exists_eq_add_of_le' hge
    rw [Function.iterate_add_apply, hread]
    have hgrows := iterate_grows (c := c)
      (s := (c.deliver s line).withInput (r ++ rest)) m
    exact ⟨hgrows.requests, hgrows.responses⟩

theorem harmless_of_discards {line rest : List UInt8}
    (hs : s.status = .serving) (hline : lineFeed ∉ line)
    (hdiscards : Discards c (s.withInput (line ++ lineFeed :: rest))
      (s.withInput rest)) : Harmless c.serde line := by
  obtain ⟨k, hcount, hafter⟩ := hdiscards
  have hgrows : Grows (c.deliver s line)
      (c.next^[k] (s.withInput (line ++ lineFeed :: rest))) := by
    apply deliver_grows hs hline
    rcases hafter with ⟨hclosed, -, -⟩ | halike
    · left
      rw [hclosed]
      exact SessionStatus.noConfusion
    · exact Or.inr (halike 0).input
  have hsame : (c.next^[k]
      (s.withInput (line ++ lineFeed :: rest))).requests = s.requests := by
    rcases hafter with ⟨-, hrequests, -⟩ | halike
    · exact hrequests
    · exact (halike 0).requests
  have hnone := hgrows.requests
  rw [hsame] at hnone
  have hone : (c.deliver s line).responses.length ≤ s.responses.length + 1 :=
    Nat.le_trans hgrows.responses hcount
  have hjson : ∀ text ∈ textsOf (pieces maxRequestLineBytes line), ∀ req,
      c.serde.fromStr (String.ofList text) ≠ .ok req := by
    intro text htext req hparse
    have hmore := foldl_receive_json hs htext hparse
    exact Nat.lt_irrefl _ (Nat.lt_of_lt_of_le hmore hnone)
  obtain ⟨-, -, htexts, -⟩ := foldl_receive_refused hs hjson
  constructor
  · rw [deliver, htexts] at hone
    exact Nat.le_of_add_le_add_left hone
  · exact hjson

theorem discards_of_harmless {line rest : List UInt8}
    (hs : s.status = .serving) (hline : lineFeed ∉ line)
    (hharmless : Harmless c.serde line) :
    Discards c (s.withInput (line ++ lineFeed :: rest)) (s.withInput rest) := by
  obtain ⟨n, r, hend, hnext⟩ := next_line (c := c) hs hline
  have hread := (hnext rest).1
  obtain ⟨hrequests, hsys, hcount, hstatus⟩ :=
    foldl_receive_refused (c := c) hs hharmless.noJson
  refine ⟨n, ?_, ?_⟩
  · rw [hread]
    change (c.deliver s line).responses.length ≤ s.responses.length + 1
    rw [deliver, hcount]
    exact Nat.add_le_add_left hharmless.few _
  · rw [hread]
    rcases hstatus with hgoes | hclosed
    · right
      intro m
      apply Alike.iterate
      rw [hend hgoes, List.nil_append]
      exact ⟨rfl, hsys, hrequests, hgoes.trans hs.symm⟩
    · exact Or.inl ⟨hclosed, hrequests, hsys⟩

/-- Wherever a session stands when the line comes up. -/
theorem discards_iff {line rest : List UInt8} (hs : s.status = .serving)
    (hline : lineFeed ∉ line) :
    Discards c (s.withInput (line ++ lineFeed :: rest)) (s.withInput rest) ↔
      Harmless c.serde line :=
  ⟨harmless_of_discards hs hline, discards_of_harmless hs hline⟩

/-- The lines of a stream up to some point are read whatever follows. -/
theorem next_before {before : List (List UInt8)} (hs : s.status = .serving)
    (hbefore : ∀ b ∈ before, lineFeed ∉ b) :
    ∃ (n : ℕ) (r : List UInt8) (u : Session), (u.status = .serving → r = []) ∧
      ∀ rest,
        c.next^[n] (s.withInput (streamOf before rest)) =
          u.withInput (r ++ rest) ∧
        ∀ j < n, rest.length <
          (c.next^[j] (s.withInput (streamOf before rest))).input.length := by
  induction before generalizing s with
  | nil =>
      refine ⟨0, [], s, fun _ => rfl, ?_⟩
      intro rest
      exact ⟨rfl, fun j hj => absurd hj (Nat.not_lt_zero j)⟩
  | cons b before ih =>
      obtain ⟨hb, htail⟩ := List.forall_mem_cons.mp hbefore
      obtain ⟨k, r, hend, hnext⟩ := next_line (c := c) hs hb
      by_cases hgoes : (c.deliver s b).status = .serving
      · obtain ⟨n, r', u, hend', hnext'⟩ := ih hgoes htail
        refine ⟨n + k, r', u, hend', ?_⟩
        intro rest
        obtain ⟨hfirst, hlonger⟩ := hnext (streamOf before rest)
        rw [hend hgoes, List.nil_append] at hfirst
        rw [streamOf_cons]
        constructor
        · rw [Function.iterate_add_apply, hfirst]
          exact (hnext' rest).1
        · intro j hj
          rcases Nat.lt_or_ge j k with hlt | hge
          · exact Nat.lt_of_le_of_lt (length_le_streamOf before rest)
              (hlonger j hlt)
          · obtain ⟨m, rfl⟩ := Nat.exists_eq_add_of_le' hge
            rw [Function.iterate_add_apply, hfirst]
            exact (hnext' rest).2 m (Nat.lt_of_add_lt_add_right hj)
      · refine ⟨k, r ++ streamOf before [], c.deliver s b,
          fun h => absurd h hgoes, ?_⟩
        intro rest
        obtain ⟨hfirst, hlonger⟩ := hnext (streamOf before rest)
        rw [streamOf_cons, hfirst, List.append_assoc, ← streamOf_append]
        refine ⟨rfl, ?_⟩
        intro j hj
        exact Nat.lt_of_le_of_lt (length_le_streamOf before rest)
          (hlonger j hj)

end ClientCall

/-! ## The pieces of two kinds of lines -/

/-- A text that nothing but carriage returns follow is the only one in its
line. -/
theorem textsOf_returns {text : List Char} {k : ℕ} (htext : '\n' ∉ text)
    (hcap : (encode text).length ≤ maxRequestLineBytes)
    (hne : stripReturns text ≠ []) :
    textsOf (pieces maxRequestLineBytes
      (encode (text ++ List.replicate k '\r'))) = [stripReturns text] := by
  obtain ⟨a, ps, hpieces, hblank⟩ := pieces_returns (k := k) hcap
  have hrest : textsOf ps = [] := by
    clear hpieces
    induction ps with
    | nil => rfl
    | cons p ps ih =>
        obtain ⟨b, rfl⟩ := hblank p List.mem_cons_self
        have htrim := trimLine_returns List.not_mem_nil b
        rw [List.nil_append] at htrim
        rw [textsOf_blank (decode_encode _) htrim]
        exact ih fun q hq => hblank q (List.mem_cons_of_mem _ hq)
  have htrim := trimLine_returns htext a
  rw [hpieces, textsOf_text (decode_encode _) (by rwa [htrim]), htrim, hrest]

theorem sampleSerde_garbage {cs : List Char} {a : Char}
    (hcs : cs.head? = some a) (ha : a ≠ '\x7b') :
    sampleSerde.fromStr (String.ofList cs) =
      .error "expected value at line 1 column 1" := by
  have hne : ∀ t : String, t.toList.head? = some '\x7b' →
      String.ofList cs ≠ t := by
    rintro t ht rfl
    rw [String.toList_ofList, hcs] at ht
    exact ha (Option.some.inj ht)
  dsimp only [sampleSerde]
  rw [if_neg (hne _ (by decide)), if_neg (hne _ (by decide)),
    if_neg (hne _ (by decide)), if_neg (hne _ (by decide))]

/-- What follows a text of exactly the cap's length comes as a line of its
own. -/
theorem pieces_cap {text rest : List Char}
    (hcap : (encode text).length = maxRequestLineBytes)
    (hshort : (encode rest).length < maxRequestLineBytes) :
    pieces maxRequestLineBytes (encode (text ++ rest)) =
      [encode text, encode rest] := by
  have hlong : maxRequestLineBytes ≤ (encode (text ++ rest)).length := by
    rw [encode_append, List.length_append, hcap]
    exact Nat.le_add_right _ _
  rw [pieces_long hlong, encode_append, List.take_left' hcap,
    List.drop_left' hcap, pieces_short hshort]

/-- 65536 letters and then a command. -/
def smuggled : List Char :=
  List.replicate maxRequestLineBytes 'x' ++
    "\x7b\x22cmd\x22:\x22stop_vm\x22\x7d".toList

/-- The letters in front. -/
def letters : List Char := List.replicate maxRequestLineBytes 'x'

/-- The command behind them. -/
def stopVmText : List Char := "\x7b\x22cmd\x22:\x22stop_vm\x22\x7d".toList

theorem smuggled_eq : smuggled = letters ++ stopVmText := rfl

theorem length_letters : (encode letters).length = maxRequestLineBytes := by
  rw [letters, encode_replicate (b := 120) (by decide), List.length_replicate]

theorem head_letters : letters.head? = some 'x' := by
  rw [letters, List.head?_replicate, if_neg (NeZero.ne _)]

theorem letters_ne_nil : letters ≠ [] := by
  intro h
  have hhead := head_letters
  rw [h] at hhead
  cases hhead

theorem lineFeed_notMem_letters : '\n' ∉ letters := by
  rw [letters, List.mem_replicate]
  rintro ⟨-, h⟩
  cases h

theorem trimLine_letters : trimLine letters = letters := by
  rw [trimLine_of_notMem lineFeed_notMem_letters, stripReturns,
    List.rdropWhile_eq_self_iff]
  intro hne hlast
  have hletter := List.eq_of_mem_replicate (List.getLast_mem hne)
  rw [hletter] at hlast
  exact absurd hlast (by decide)

theorem trimLine_stopVmText : trimLine stopVmText = stopVmText := by
  decide

theorem lineFeed_notMem_smuggled : lineFeed ∉ encode smuggled := by
  apply lineFeed_notMem_encode
  rw [smuggled_eq, List.mem_append]
  rintro (h | h)
  · exact lineFeed_notMem_letters h
  · exact absurd h (by decide)

theorem pieces_smuggled :
    pieces maxRequestLineBytes (encode smuggled) =
      [encode letters, encode stopVmText] :=
  pieces_cap length_letters (by decide)

/-! ## Any line of any stream -/

/-- In every stream, a line that the session comes to is discarded if and only
if it is harmless.  This holds of lines of any length; the pieces of a line
beyond the cap are more than one. -/
theorem line_discarded_iff {c : ClientCall} {sys : Sys}
    {before : List (List UInt8)} {line rest : List UInt8} {n : ℕ}
    (hbefore : ∀ b ∈ before, lineFeed ∉ b) (hline : lineFeed ∉ line)
    (hs : (c.next^[n] (ClientCall.start sys
      (streamOf before (line ++ lineFeed :: rest)))).status = .serving)
    (hinput : (c.next^[n] (ClientCall.start sys
      (streamOf before (line ++ lineFeed :: rest)))).input =
        line ++ lineFeed :: rest) :
    Discards c
        (c.next^[n] (ClientCall.start sys
          (streamOf before (line ++ lineFeed :: rest))))
        (c.next^[n] (ClientCall.start sys (streamOf before rest))) ↔
      Harmless c.serde line := by
  let s := ClientCall.start sys []
  have hstart : s.status = .serving := rfl
  obtain ⟨m, r, u, hend, hread⟩ := ClientCall.next_before (c := c) hstart hbefore
  obtain ⟨hwith, hlonger⟩ := hread (line ++ lineFeed :: rest)
  have hwithout := (hread rest).1
  change c.next^[m] (ClientCall.start sys _) = _ at hwith hwithout
  change ∀ j < m, _ < (c.next^[j] (ClientCall.start sys _)).input.length
    at hlonger
  -- the line comes up after exactly `m` iterations
  have hge : m ≤ n := by
    apply Nat.le_of_not_lt
    intro hlt
    have hmore := hlonger n hlt
    rw [hinput] at hmore
    exact Nat.lt_irrefl _ hmore
  obtain ⟨d, rfl⟩ := Nat.exists_eq_add_of_le' hge
  rw [Function.iterate_add_apply, hwith] at hs hinput
  have hgoes : u.status = .serving := by
    by_contra hended
    have hthere : (u.withInput (r ++ (line ++ lineFeed :: rest))).status ≠
        .serving := hended
    rw [c.iterate_ended hthere] at hs
    exact hended hs
  rw [hend hgoes, List.nil_append] at hwith hwithout hs hinput
  have hzero : d = 0 := by
    have hbound := ClientCall.iterate_input_lt hs
    rw [hinput, Session.withInput_input] at hbound
    omega
  subst hzero
  rw [Nat.zero_add, hwith, hwithout]
  exact ClientCall.discards_iff hgoes hline

/-- A word with 65536 carriage returns is refused as the one line it is. -/
theorem line_discarded_hello :
    Discards sampleCall
      (ClientCall.start (init Config.default 0).sys (streamOf []
        (encode ("hello".toList ++ List.replicate maxRequestLineBytes '\r') ++
          lineFeed :: encode sampleText)))
      (ClientCall.start (init Config.default 0).sys
        (streamOf [] (encode sampleText))) := by
  have hline : lineFeed ∉
      encode ("hello".toList ++ List.replicate maxRequestLineBytes '\r') := by
    apply lineFeed_notMem_encode
    rw [List.mem_append, List.mem_replicate]
    rintro (h | ⟨-, h⟩)
    · exact absurd h (by decide)
    · cases h
  have htexts : textsOf (pieces maxRequestLineBytes
      (encode ("hello".toList ++ List.replicate maxRequestLineBytes '\r'))) =
        [stripReturns "hello".toList] :=
    textsOf_returns (by decide) (by decide) (by decide)
  have hgarbage : sampleSerde.fromStr
      (String.ofList (stripReturns "hello".toList)) = .error _ :=
    sampleSerde_garbage (a := 'h') (by decide) (by decide)
  have hharmless : Harmless sampleCall.serde
      (encode ("hello".toList ++ List.replicate maxRequestLineBytes '\r')) := by
    constructor
    · rw [htexts]
      exact Nat.le_refl 1
    · rw [htexts]
      intro text hmem req hparse
      obtain rfl := List.mem_singleton.mp hmem
      cases hparse.symm.trans hgarbage
  exact (line_discarded_iff (n := 0) (List.forall_mem_nil _) hline rfl
    rfl).mpr hharmless

/-- The command behind the letters is carried out. -/
theorem stopVm_smuggled :
    lineFeed ∉ encode smuggled ∧
      maxRequestLineBytes < (encode smuggled).length ∧
      (∃ n, (sampleCall.next^[n] (ClientCall.start (init Config.default 0).sys
        (streamOf [] (encode smuggled ++ [lineFeed])))).requests =
          [.command "stop_vm"]) ∧
      ¬ Discards sampleCall
        (ClientCall.start (init Config.default 0).sys
          (streamOf [] (encode smuggled ++ [lineFeed])))
        (ClientCall.start (init Config.default 0).sys (streamOf [] [])) := by
  let s := ClientCall.start (init Config.default 0).sys []
  have hs : s.status = .serving := rfl
  have hne : trimLine letters ≠ [] := by
    rw [trimLine_letters]
    exact letters_ne_nil
  have hne' : trimLine stopVmText ≠ [] := by
    rw [trimLine_stopVmText]
    decide
  have hgarbage : sampleCall.serde.fromStr
      (String.ofList (trimLine letters)) =
        .error "expected value at line 1 column 1" := by
    rw [trimLine_letters]
    exact sampleSerde_garbage head_letters (by decide)
  have hparse : sampleCall.serde.fromStr
      (String.ofList (trimLine stopVmText)) = .ok (.command "stop_vm") := by
    rw [trimLine_stopVmText]
    rfl
  refine ⟨lineFeed_notMem_smuggled, ?_, ?_, ?_⟩
  · rw [smuggled_eq, encode_append, List.length_append, length_letters]
    exact Nat.lt_add_of_pos_right (by decide)
  · obtain ⟨n, r, -, hnext⟩ :=
      ClientCall.next_line (c := sampleCall) hs lineFeed_notMem_smuggled
    have hread := (hnext []).1
    have hgoes : (sampleCall.refuse "expected value at line 1 column 1"
        s).status = .serving := rfl
    refine ⟨n, ?_⟩
    change (sampleCall.next^[n]
      (s.withInput (encode smuggled ++ [lineFeed]))).requests = _
    rw [hread, ClientCall.deliver, pieces_smuggled, List.foldl_cons,
      List.foldl_cons,
      ClientCall.receive_refused hs (decode_encode letters) hne hgarbage,
      ClientCall.receive_request hgoes (decode_encode stopVmText) hne' hparse,
      List.foldl_nil]
    change (sampleCall.handleRequest _ _).requests = _
    rw [ClientCall.handleRequest_requests]
    rfl
  · intro hdiscards
    have hharmless :=
      ClientCall.harmless_of_discards hs lineFeed_notMem_smuggled hdiscards
    refine hharmless.noJson (trimLine stopVmText) ?_ _ hparse
    rw [pieces_smuggled, textsOf_text (decode_encode letters) hne,
      textsOf_text (decode_encode stopVmText) hne']
    exact List.mem_cons_of_mem _ List.mem_cons_self

end Teeproxyd
