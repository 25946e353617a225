import Teeproxyd.Daemon.Ipc
import Teeproxyd.Support.Lines
import Teeproxyd.Support.Utf8

/-!
# The tail of a log

`tail_log` decodes the whole file, splits it into lines and joins the last ones
again.  The join is an exact inverse on a suffix of the file.  The decoding is
not: one invalid byte anywhere in the file, and the answer is that of a file
that does not exist.
-/

namespace Teeproxyd

open Utf8

variable {cfg : Config} {req : Value} {path : String}
  {files files' : String → Option ByteArray} {bytes p s : List UInt8}
  {cs ps : List Char} {n : ℕ}

/-! ## The request -/

/-- The number of lines that a request asks for. -/
def tailLines (req : Value) : ℕ :=
  min 10000 ((req.index "lines").asU64.getD 200).toNat

/-- The log that a request asks for. -/
def requestedLog (cfg : Config) (req : Value) : Option String :=
  match (req.index "source").asStr.getD "daemon" with
  | "vm" => some (joinPath cfg.logDir "pvm.log")
  | "pvm" => some (joinPath cfg.logDir "pvm.log")
  | "ca" => some (joinPath cfg.logDir "ca.log")
  | "daemon" => some (joinPath cfg.logDir "daemon.log")
  | _ => none

/-- The reply with the end of a log. -/
def tailReply (content : String) : Value :=
  .object [("ok", .bool true), ("content", .string content)]

theorem handleTailLog_eq (hlog : requestedLog cfg req = some path) :
    handleTailLog cfg req files =
      tailReply (tailLog (files path) (tailLines req)) := by
  have hlines : min ((req.index "lines").asU64.getD 200).toNat maxTailLines =
      tailLines req := Nat.min_comm _ _
  unfold requestedLog at hlog
  simp only [handleTailLog, hlines]
  generalize (req.index "source").asStr.getD "daemon" = source at hlog ⊢
  split at hlog
  all_goals cases hlog
  all_goals rfl

theorem tailReply_inj {a b : String} : tailReply a = tailReply b ↔ a = b := by
  simp [tailReply]

/-! ## The lines of a file -/

theorem splitInclusive_eq (cs : List Char) :
    splitInclusive cs = Lines.split '\n' cs := by
  induction cs with
  | nil => rfl
  | cons c cs ih =>
      rw [splitInclusive, ih]
      cases hsplit : Lines.split '\n' cs with
      | nil => rw [Lines.split, hsplit]
      | cons line rest => rw [Lines.split, hsplit]

/-- The last lines of a text. -/
def lastLines (n : ℕ) (cs : List Char) : List Char :=
  Lines.joinLast '\n' stripNewline n cs

theorem tailLog_some (bytes : List UInt8) (n : ℕ) :
    tailLog (some bytes.toByteArray) n =
      match decode bytes with
      | none => "(file not found)"
      | some cs => String.ofList (lastLines n cs) := by
  unfold tailLog readToString decode
  rw [Option.bind_some]
  cases String.fromUTF8? bytes.toByteArray with
  | none => rfl
  | some content =>
      simp only [Option.map_some, strLines, splitInclusive_eq]
      rfl

/-! ## What stands before the tail -/

theorem decode_boundary (hp : Lines.AtBoundary lineFeed p)
    (hps : decode p = some ps) : Lines.AtBoundary '\n' ps := by
  rcases hp with rfl | hlast
  · obtain rfl : [] = ps := Option.some.inj ((decode_encode []).symm.trans hps)
    exact Lines.atBoundary_nil
  · obtain ⟨q, rfl⟩ := List.getLast?_eq_some_iff.mp hlast
    rw [decode_append_lineFeed] at hps
    obtain ⟨qs, -, rfl⟩ := Option.map_eq_some_iff.mp hps
    exact Or.inr List.getLast?_concat

/-- A file is cut at a line boundary into two texts, or into no texts. -/
theorem decode_append_of_boundary (hp : Lines.AtBoundary lineFeed p)
    (hs : decode s = some cs) :
    decode (p ++ s) = (decode p).map (· ++ cs) := by
  rcases hp with rfl | hlast
  · have hnil : decode [] = some [] := decode_encode []
    rw [List.nil_append, hs, hnil]
    rfl
  · obtain ⟨q, rfl⟩ := List.getLast?_eq_some_iff.mp hlast
    rw [List.append_assoc, List.singleton_append, decode_append_lineFeed,
      Option.map_map]
    apply Option.ext
    intro text
    rw [decode_lineFeed_eq_some_iff, Option.map_eq_some_iff]
    constructor
    · rintro ⟨xs, ys, hxs, hys, rfl⟩
      obtain rfl : ys = cs := Option.some.inj (hys.symm.trans hs)
      exact ⟨xs, hxs, by simp⟩
    · rintro ⟨xs, hxs, rfl⟩
      exact ⟨xs, cs, hxs, hs, by simp⟩

/-- The last line of a text. -/
def lastLine (cs : List Char) : Option (List Char) :=
  ((splitInclusive cs).map stripNewline).getLast?

theorem lastLines_eq_iff {l : List Char} (hne : l ≠ []) (hl : '\n' ∉ l)
    (hn : n ≤ Lines.count '\n' cs) :
    lastLines n cs = l ↔ n = 1 ∧ lastLine cs = some l := by
  unfold lastLines lastLine Lines.joinLast
  rw [splitInclusive_eq]
  apply Lines.intercalate_drop_eq_iff hne hl
  rw [List.length_map, Lines.length_split]
  exact hn

/-- The answer is the same with and without what stands before a tail of the
file exactly if this is valid UTF-8, or the one line that is asked for happens
to read as the answer for a missing file. -/
theorem tail_ignores_head_iff (hlog : requestedLog cfg req = some path)
    (hp : Lines.AtBoundary lineFeed p) (hs : decode s = some cs)
    (hn : tailLines req ≤ Lines.count '\n' cs)
    (hfile : files path = some (p ++ s).toByteArray)
    (hfile' : files' path = some s.toByteArray) :
    handleTailLog cfg req files = handleTailLog cfg req files' ↔
      (decode p).isSome = true ∨
        tailLines req = 1 ∧
          lastLine cs = some "(file not found)".toList := by
  rw [handleTailLog_eq hlog, handleTailLog_eq hlog, tailReply_inj, hfile,
    hfile', tailLog_some, tailLog_some, decode_append_of_boundary hp hs, hs]
  cases hps : decode p with
  | some ps =>
      refine iff_of_true ?_ (Or.inl rfl)
      have hsame : lastLines (tailLines req) (ps ++ cs) =
          lastLines (tailLines req) cs :=
        Lines.joinLast_append (decode_boundary hp hps) hn
      exact congrArg String.ofList hsame
  | none =>
      have hanswer := lastLines_eq_iff (l := "(file not found)".toList)
        (by decide) (by decide) hn
      rw [or_iff_right (by simp), ← hanswer]
      constructor
      · intro h
        have hlist := congrArg String.toList h
        rw [String.toList_ofList] at hlist
        exact hlist.symm
      · intro h
        change "(file not found)" = String.ofList _
        rw [h]
        rfl

/-- A request for the last line of the CA's log. -/
def lastOfCa : Value :=
  .object [("cmd", .string "tail_log"), ("source", .string "ca"),
    ("lines", .ofNat 1)]

/-- One file, whatever its path. -/
def onlyFile (bytes : List UInt8) : String → Option ByteArray :=
  fun _ => some bytes.toByteArray

/-- A line of text before the last line does not matter. -/
theorem tail_ignores_head_ready :
    handleTailLog Config.default lastOfCa
        (onlyFile (encode "booting\n".toList ++ encode "ready\n".toList)) =
      handleTailLog Config.default lastOfCa
        (onlyFile (encode "ready\n".toList)) := by
  have hlog : requestedLog Config.default lastOfCa =
      some "/data/teeproxy/logs/ca.log" := by decide
  have hboundary : Lines.AtBoundary lineFeed (encode "booting\n".toList) :=
    Or.inr (by decide)
  have hready : decode (encode "ready\n".toList) = some "ready\n".toList :=
    decode_encode _
  refine (tail_ignores_head_iff hlog hboundary hready (by decide) rfl
    rfl).mpr (Or.inl ?_)
  rw [decode_encode]
  rfl

/-- A line of garbage, which the CA may have written long ago, hides the line
that is asked for. -/
theorem tail_hidden_by_garbage :
    handleTailLog Config.default lastOfCa
        (onlyFile ([255, lineFeed] ++ encode "ready\n".toList)) =
      tailReply "(file not found)" ∧
    handleTailLog Config.default lastOfCa
        (onlyFile (encode "ready\n".toList)) = tailReply "ready" := by
  have hlog : requestedLog Config.default lastOfCa =
      some "/data/teeproxy/logs/ca.log" := by decide
  constructor
  · rw [handleTailLog_eq hlog, tailReply_inj]
    decide
  · rw [handleTailLog_eq hlog, tailReply_inj]
    decide

/-! ## The tail is the end of the file -/

theorem stripNewline_eq {l : List Char} (hl : '\r' ∉ l) :
    stripNewline l = Lines.chomp '\n' l := by
  unfold stripNewline Lines.chomp
  split
  next =>
    apply if_neg
    intro hlast
    exact hl (List.dropLast_subset l (List.mem_of_getLast? hlast))
  next => rfl

theorem lastLines_eq (hcs : '\r' ∉ cs) :
    lastLines n cs = Lines.joinLast '\n' (Lines.chomp '\n') n cs := by
  have hlines : (Lines.split '\n' cs).map stripNewline =
      (Lines.split '\n' cs).map (Lines.chomp '\n') := by
    apply List.map_congr_left
    intro l hl
    apply stripNewline_eq
    intro hmem
    apply hcs
    rw [← Lines.flatten_split '\n' cs]
    exact List.mem_flatten_of_mem hl hmem
  unfold lastLines Lines.joinLast
  rw [hlines]

/-- For every request and every text without carriage returns, the answer, with
the line feed at the end of the file if a line is given, is the end of the file
from a place where a line starts, and has as many lines as were asked for, or
all. -/
theorem tail_is_suffix (hlog : requestedLog cfg req = some path)
    (hcs : decode bytes = some cs) (hcr : '\r' ∉ cs)
    (hfile : files path = some bytes.toByteArray) :
    ∃ answer newline head : List Char,
      handleTailLog cfg req files = tailReply (String.ofList answer) ∧
      newline = (if cs.getLast? = some '\n' ∧ Lines.count '\n' cs ≠ 0 ∧
        tailLines req ≠ 0 then ['\n'] else []) ∧
      cs = head ++ (answer ++ newline) ∧
      (tailLines req ≠ 0 → Lines.AtBoundary '\n' head) ∧
      Lines.count '\n' (answer ++ newline) =
        min (tailLines req) (Lines.count '\n' cs) ∧
      (tailLines req = 0 ∨ Lines.count '\n' cs = 0 → answer = []) := by
  obtain ⟨p, s, hcut, hboundary, hcount, hjoin⟩ :=
    Lines.joinLast_spec '\n' (tailLines req) cs
  rw [← lastLines_eq hcr] at hjoin
  refine ⟨lastLines (tailLines req) cs, Lines.ending '\n' s, p, ?_, ?_, ?_,
    hboundary, ?_, ?_⟩
  · rw [handleTailLog_eq hlog, hfile, tailLog_some, hcs]
  · rw [Lines.ending_of_cut hcut hcount]
    by_cases hnone : tailLines req = 0 ∨ Lines.count '\n' cs = 0
    · rw [if_pos hnone, if_neg]
      rintro ⟨-, hlines, hn⟩
      exact hnone.elim hn hlines
    · obtain ⟨hn, hlines⟩ := not_or.mp hnone
      rw [if_neg hnone]
      simp [Lines.ending, hn, hlines]
  · rw [hjoin]
    exact hcut
  · rw [hjoin]
    exact hcount
  · intro hnone
    have hempty : s = [] := by
      apply Lines.count_eq_zero_iff.mp
      rw [hcount]
      omega
    rw [hempty] at hjoin
    exact (List.append_eq_nil_iff.mp hjoin).1

/-- The last line of a log may be blank. -/
theorem tail_is_suffix_blank :
    ∃ answer head : List Char,
      handleTailLog Config.default lastOfCa
        (onlyFile (encode "ready\n\n".toList)) =
          tailReply (String.ofList answer) ∧
      "ready\n\n".toList = head ++ (answer ++ ['\n']) ∧
      Lines.AtBoundary '\n' head ∧
      Lines.count '\n' (answer ++ ['\n']) = 1 := by
  have hlog : requestedLog Config.default lastOfCa =
      some "/data/teeproxy/logs/ca.log" := by decide
  have hfile : onlyFile (encode "ready\n\n".toList)
      "/data/teeproxy/logs/ca.log" =
        some (encode "ready\n\n".toList).toByteArray := rfl
  obtain ⟨answer, newline, head, hreply, hnewline, hcut, hboundary, hcount, -⟩ :=
    tail_is_suffix hlog (decode_encode "ready\n\n".toList) (by decide) hfile
  have hnewline : newline = ['\n'] := hnewline.trans (by decide)
  rw [hnewline] at hcut hcount
  exact ⟨answer, head, hreply, hcut, hboundary (by decide),
    hcount.trans (by decide)⟩

end Teeproxyd
