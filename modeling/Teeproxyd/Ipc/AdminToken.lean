import Teeproxyd.Ipc.Answers
import Teeproxyd.Supervision.Passthrough

/-!
# What clients can learn of the settings

The CA's admin token is a secret, and a client of the daemon need not know it.
The answers to requests are computed from the state of the managers and from
settings that are not passed on, so that no sequence of bytes brings the token,
or anything that depends on it, out of the daemon.
-/

namespace Teeproxyd

open TransitionSystem Utf8

variable {c : ClientCall} {p : Passthrough} {s : Daemon}

def ClientCall.passing (c : ClientCall) (p : Passthrough) : ClientCall :=
  { c with cfg := c.cfg.passing p }

def Session.rename (cfg : Config) (s : Session) : Session :=
  { s with sys := s.sys.rename cfg }

theorem handleRequest_rename
    (hmeanwhile : ∀ n k, c.meanwhile n (k.rename (c.cfg.passing p)) =
      (c.meanwhile n k).rename (c.cfg.passing p)) (req : Value) (s : Session) :
    (c.passing p).handleRequest req (s.rename (c.cfg.passing p)) =
      (c.handleRequest req s).rename (c.cfg.passing p) := by
  have hdispatch := dispatch_rename c.cfg p
    { s.sys with kernel := c.meanwhile s.requests.length s.sys.kernel }
    (c.answers s.requests.length) c.startup c.startedAt req
  unfold ClientCall.handleRequest
  dsimp only [ClientCall.passing, Session.rename, Sys.rename_kernel]
  rw [hmeanwhile]
  rw [show dispatch (c.cfg.passing p) c.startup c.startedAt req
      { s.sys.rename (c.cfg.passing p) with
        kernel := (c.meanwhile s.requests.length s.sys.kernel).rename
          (c.cfg.passing p) } (c.answers s.requests.length) = _ from hdispatch]
  cases dispatch c.cfg c.startup c.startedAt req
    { s.sys with kernel := c.meanwhile s.requests.length s.sys.kernel }
    (c.answers s.requests.length) with
  | error k => rfl
  | ok result => rfl

theorem handleLine_rename
    (hmeanwhile : ∀ n k, c.meanwhile n (k.rename (c.cfg.passing p)) =
      (c.meanwhile n k).rename (c.cfg.passing p)) (line : List Char)
    (s : Session) :
    (c.passing p).handleLine line (s.rename (c.cfg.passing p)) =
      (c.handleLine line s).rename (c.cfg.passing p) := by
  have hserde : (c.passing p).serde = c.serde := rfl
  unfold ClientCall.handleLine
  dsimp only
  rw [hserde, apply_ite (Session.rename _)]
  refine if_congr Iff.rfl rfl ?_
  cases c.serde.fromStr (String.ofList (trimLine line)) with
  | error e => rfl
  | ok req => exact handleRequest_rename hmeanwhile req s

theorem next_rename
    (hmeanwhile : ∀ n k, c.meanwhile n (k.rename (c.cfg.passing p)) =
      (c.meanwhile n k).rename (c.cfg.passing p)) (s : Session) :
    (c.passing p).next (s.rename (c.cfg.passing p)) =
      (c.next s).rename (c.cfg.passing p) := by
  unfold ClientCall.next
  rw [apply_ite (Session.rename _)]
  refine if_congr Iff.rfl ?_ rfl
  have hread : readLine (c.passing p).ending
      (s.rename (c.cfg.passing p)).input = readLine c.ending s.input := rfl
  unfold ClientCall.iterate
  rw [hread]
  cases readLine c.ending s.input with
  | none => rfl
  | some result =>
      obtain ⟨line, rest⟩ := result
      cases line with
      | nil => rfl
      | cons char line =>
          exact handleLine_rename hmeanwhile (char :: line)
            { s with input := rest }

theorem handleClient_rename
    (hmeanwhile : ∀ n k, c.meanwhile n (k.rename (c.cfg.passing p)) =
      (c.meanwhile n k).rename (c.cfg.passing p)) (sys : Sys)
    (input : List UInt8) :
    (c.passing p).handleClient (sys.rename (c.cfg.passing p)) input =
      (c.handleClient sys input).rename (c.cfg.passing p) := by
  have hcommutes : Function.Semiconj (Session.rename (c.cfg.passing p)) c.next
      (c.passing p).next := fun s => (next_rename hmeanwhile s).symm
  exact (hcommutes.iterate_right (input.length + 1)
    (ClientCall.start sys input)).symm

/-- No client can tell the settings that are passed on, the admin token among
them: after the same run under another choice of them, a client that sends the
same bytes gets the same bytes.  What goes on around the daemon may not depend
on the command lines. -/
theorem clients_see_no_settings {now : Instant} {ls : List Label}
    (hmeanwhile : ∀ n k, c.meanwhile n (k.rename (c.cfg.passing p)) =
      (c.meanwhile n k).rename (c.cfg.passing p))
    (hrun : exec (step c.cfg) (init c.cfg now) ls = some s) :
    ∃ t, exec (step (c.cfg.passing p)) (init (c.cfg.passing p) now) ls =
        some t ∧ ∀ input,
      ((c.passing p).handleClient t.sys input).output =
          (c.handleClient s.sys input).output ∧
        ((c.passing p).handleClient t.sys input).status =
          (c.handleClient s.sys input).status := by
  have hsame : exec (step (c.cfg.passing p)) (init (c.cfg.passing p) now) ls =
      (exec (step c.cfg) (init c.cfg now) ls).map
        (Daemon.rename (c.cfg.passing p)) :=
    exec_map (Daemon.rename (c.cfg.passing p)) (step_rename c.cfg p)
      (init c.cfg now) ls
  rw [hrun] at hsame
  refine ⟨s.rename (c.cfg.passing p), hsame, fun input => ?_⟩
  have hsession : (c.passing p).handleClient
      (s.rename (c.cfg.passing p)).sys input = _ :=
    handleClient_rename hmeanwhile s.sys input
  rw [hsession]
  exact ⟨rfl, rfl⟩

/-- A ping after the start, to a daemon with other settings. -/
theorem clients_see_no_settings_bootUp :
    ∃ s t, after bootUp = some s ∧
      exec (step (sampleCall.cfg.passing ⟨4, 512, "debug", "another token"⟩))
        (init (sampleCall.cfg.passing ⟨4, 512, "debug", "another token"⟩) 0)
        bootUp = some t ∧
      ((sampleCall.passing ⟨4, 512, "debug", "another token"⟩).handleClient
          t.sys (encode sampleText)).output =
        (sampleCall.handleClient s.sys (encode sampleText)).output := by
  obtain ⟨s, hafter, -⟩ := exists_after bootUp (P := fun _ => True) (by decide)
  obtain ⟨t, hrun, hsame⟩ := clients_see_no_settings (c := sampleCall)
    (p := ⟨4, 512, "debug", "another token"⟩) (fun _ _ => rfl) hafter
  exact ⟨s, t, hafter, hrun, (hsame _).1⟩

end Teeproxyd
