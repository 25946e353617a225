import Mathlib.Logic.Function.Iterate
import Teeproxyd.Support.Framing
import Teeproxyd.Support.Utf8
import Teeproxyd.Daemon.Ipc

/-!
# `ipc.rs`: `handle_client`

The loop that serves one client reads a line, has `serde_json` parse it, lets
`match cmd` answer it and writes the response.  `serde_json` is a parameter, as
are the stream and whatever goes on around the daemon meanwhile.
-/

namespace Teeproxyd

open Framing Utf8

/-- `serde_json::from_str` and `serde_json::to_string`. -/
structure Serde where
  fromStr : String → Except String Value
  toStr : Value → Option String

/-- What a read finds behind the last byte that the client has sent: the end of
the stream, or a timeout or another error. -/
inductive StreamEnd
  | eof
  | error
deriving DecidableEq, Repr

/-- One call of `handle_client`: what it is given, and what the client and the
system contribute while it runs. -/
structure ClientCall where
  cfg : Config
  startup : StartupPhase
  startedAt : Instant
  serde : Serde
  ending : StreamEnd
  /-- What has happened to the kernel when the nth request is dispatched. -/
  meanwhile : ℕ → Kernel → Kernel
  /-- What the system answers to the nth request. -/
  answers : ℕ → RequestEnv
  /-- How the write of the nth request's response ends: well, or with an error
  after so many bytes. -/
  reply : ℕ → Option ℕ
  /-- The same for the nth response, if it refuses a line that is not JSON. -/
  refusal : ℕ → Option ℕ

inductive SessionStatus
  | serving
  | closed
  | panicked
deriving DecidableEq, Repr

structure Session where
  /-- The bytes that have not been read yet. -/
  input : List UInt8
  sys : Sys
  /-- The requests that have been dispatched, in order. -/
  requests : List Value
  /-- The responses that have been given, in order. -/
  responses : List Value
  /-- The bytes that have been written. -/
  output : List UInt8
  status : SessionStatus

/-- `MAX_REQUEST_LINE_BYTES`. -/
def maxRequestLineBytes : ℕ := 64 * 1024

instance : NeZero maxRequestLineBytes := ⟨by decide⟩

/-- `read_line` on the reader that `take` limits: the line and the bytes behind
it.  It fails if the bytes are not UTF-8, or if a read fails before it has found
a line feed or reached the limit. -/
def readLine (ending : StreamEnd) (input : List UInt8) :
    Option (List Char × List UInt8) :=
  let (bytes, rest) := readUntil lineFeed maxRequestLineBytes input
  if ending = .error ∧ bytes.length < maxRequestLineBytes ∧
      bytes.getLast? ≠ some lineFeed then none
  else (decode bytes).map fun line => (line, rest)

/-- `trim_end_matches('\n').trim_end_matches('\r')`. -/
def trimLine (line : List Char) : List Char :=
  (line.rdropWhile (· = '\n')).rdropWhile (· = '\r')

/-- The bytes that `write_response` writes. -/
def writeResponse (serde : Serde) (result : Option ℕ) (value : Value) :
    List UInt8 :=
  let s := (serde.toStr value).getD "\x7b\x22ok\x22:false\x7d"
  let bytes := encode (s.toList ++ ['\n'])
  match result with
  | none => bytes
  | some n => bytes.take n

namespace ClientCall

variable (c : ClientCall)

/-- A line that is not JSON.  The result of the write is ignored. -/
def refuse (e : String) (s : Session) : Session :=
  let response := errorMsg e
  { s with
    responses := s.responses ++ [response]
    output := s.output ++
      writeResponse c.serde (c.refusal s.responses.length) response }

/-- From `match cmd` on. -/
def handleRequest (req : Value) (s : Session) : Session :=
  let n := s.requests.length
  let sys := { s.sys with kernel := c.meanwhile n s.sys.kernel }
  match dispatch c.cfg c.startup c.startedAt req sys (c.answers n) with
  | .error k =>
      { s with
        sys := ⟨Manager.new, Manager.new, k⟩
        requests := s.requests ++ [req]
        status := .panicked }
  | .ok (sys, response) =>
      { s with
        sys :=
          { sys with kernel := sys.kernel.emit (.handled (requestCmd req)) }
        requests := s.requests ++ [req]
        responses := s.responses ++ [response]
        output := s.output ++ writeResponse c.serde (c.reply n) response
        status := if c.reply n = none then .serving else .closed }

/-- What the body of the loop does with a line. -/
def handleLine (line : List Char) (s : Session) : Session :=
  let line := trimLine line
  if line = [] then s
  else
    match c.serde.fromStr (String.ofList line) with
    | .error e => c.refuse e s
    | .ok req => c.handleRequest req s

/-- One iteration of the loop. -/
def iterate (s : Session) : Session :=
  match readLine c.ending s.input with
  | none => { s with status := .closed }
  | some ([], _) => { s with status := .closed }
  | some (line, rest) => c.handleLine line { s with input := rest }

/-- The loop goes on until a `break`. -/
def next (s : Session) : Session :=
  if s.status = .serving then c.iterate s else s

/-- The session when it begins. -/
def start (sys : Sys) (input : List UInt8) : Session where
  input := input
  sys := sys
  requests := []
  responses := []
  output := []
  status := .serving

/-- `handle_client` on a stream of bytes: no iteration but the last one leaves
the stream as it is. -/
def handleClient (sys : Sys) (input : List UInt8) : Session :=
  c.next^[input.length + 1] (start sys input)

end ClientCall

end Teeproxyd
