import Mathlib.Data.List.Basic

/-!
# `log_collector.rs`
-/

namespace Teeproxyd

/-- `str::split_inclusive('\n')`. -/
def splitInclusive : List Char → List (List Char)
  | [] => []
  | c :: cs =>
      if c = '\n' then [c] :: splitInclusive cs
      else
        match splitInclusive cs with
        | [] => [[c]]
        | line :: rest => (c :: line) :: rest

/-- A line without its `\n` or `\r\n`; a `\r` that no `\n` follows stays. -/
def stripNewline (line : List Char) : List Char :=
  if line.getLast? = some '\n' then
    let line := line.dropLast
    if line.getLast? = some '\r' then line.dropLast else line
  else line

/-- `str::lines`. -/
def strLines (content : String) : List (List Char) :=
  (splitInclusive content.toList).map stripNewline

/-- `fs::read_to_string`, for the bytes of a file that can be read. -/
def readToString (file : Option ByteArray) : Option String :=
  file.bind String.fromUTF8?

/-- `tail_log`: the last `lines` lines of a log file. -/
def tailLog (file : Option ByteArray) (lines : ℕ) : String :=
  match readToString file with
  | none => "(file not found)"
  | some content =>
      let allLines := strLines content
      let start := allLines.length - lines
      String.ofList (List.intercalate ['\n'] (allLines.drop start))

end Teeproxyd
