import Teeproxyd.Daemon.LogFiles
import Teeproxyd.Supervision.GracefulKill
import Teeproxyd.Supervision.NoLeak

/-!
# What becomes of the children's output

The daemon runs beside its log directory: each start that gets as far as
`spawn_with_log` rotates and opens the log of its role, and whoever has a file
open may write to it at any time.  A rotation replaces the log that was rotated
before.  What is lost so has made room for more than ten megabytes of newer
output of the same role.
-/

namespace Teeproxyd

open FileStore TransitionSystem

/-- The daemon, its log directory, and the file to which the newest child of
each role writes. -/
structure World where
  daemon : Daemon
  files : LogFiles
  output : Role → Option ℕ

/-- A step of the daemon, with what the file system answers to it, or a write
to a file by some process that has it open. -/
inductive WorldLabel
  | daemon (l : Label) (disk : Role → DiskEnv)
  | write (file : ℕ) (bytes : List UInt8)

/-- What `fs::read_to_string` is given of a log file. -/
def readable (files : LogFiles) (path : String) : Option ByteArray :=
  (files.read path).map List.toByteArray

/-- A request for the tail of a log reads the logs that are there. -/
def ReadsLogs (cfg : Config) (files : LogFiles) : Label → Prop
  | .request req env _ => requestCmd req = .tailLog →
      ∀ r : Role, env.files (r.logFile cfg) = readable files (r.logFile cfg)
  | _ => True

instance (cfg : Config) (files : LogFiles) (l : Label) :
    Decidable (ReadsLogs cfg files l) := by
  -- the core instance, not the second one in Batteries
  letI : DecidableEq ByteArray := ByteArray.instDecidableEq
  unfold ReadsLogs
  split <;> infer_instance

namespace World

variable {cfg : Config} {disk : Role → DiskEnv} {te : Instant × Event}
  {w w' : World} {wl : WorldLabel} {r : Role} {i : ℕ}

/-- The daemon starts beside whatever logs earlier runs have left. -/
def init (cfg : Config) (now : Instant) (files : LogFiles) : World :=
  ⟨Teeproxyd.init cfg now, files, fun _ => none⟩

/-- What an event of the daemon means to the log directory.  A child that is
spawned has its log open; a spawn may fail before or after that. -/
def hear (cfg : Config) (disk : Role → DiskEnv) (te : Instant × Event)
    (w : World) : World :=
  match te.2 with
  | .spawned r _ _ =>
      let opened := openLogFile w.files (r.logFile cfg)
        { disk r with opened := true }
      { w with
        files := opened.1
        output := Function.update w.output r opened.2 }
  | .spawnFailed r =>
      { w with files := (openLogFile w.files (r.logFile cfg) (disk r)).1 }
  | _ => w

def step (cfg : Config) (w : World) : WorldLabel → Option World
  | .daemon l disk =>
      if ReadsLogs cfg w.files l then
        (Teeproxyd.step cfg w.daemon l).map fun t =>
          (w.daemon.kernel.logSince t.kernel).foldr (hear cfg disk)
            { w with daemon := t }
      else none
  | .write i bytes =>
      if i < w.files.created then
        some { w with files := w.files.append i bytes }
      else none

/-! ## Steps -/

theorem step_cases (hstep : step cfg w wl = some w') :
    (∃ l disk t, wl = .daemon l disk ∧ ReadsLogs cfg w.files l ∧
      Teeproxyd.step cfg w.daemon l = some t ∧
      w' = (w.daemon.kernel.logSince t.kernel).foldr (hear cfg disk)
        { w with daemon := t }) ∨
    ∃ i bytes, wl = .write i bytes ∧ i < w.files.created ∧
      w' = { w with files := w.files.append i bytes } := by
  cases wl with
  | daemon l disk =>
      left
      simp only [step] at hstep
      split at hstep
      next hreads =>
        obtain ⟨t, ht, rfl⟩ := Option.map_eq_some_iff.mp hstep
        exact ⟨l, disk, t, rfl, hreads, ht, rfl⟩
      next => cases hstep
  | write i bytes =>
      right
      simp only [step] at hstep
      split at hstep
      next hopen =>
        cases hstep
        exact ⟨i, bytes, rfl, hopen, rfl⟩
      next => cases hstep

section Preserves

variable {I : LogFiles → Prop}
  (hrotate : ∀ f (r : Role) granted, I f →
    I (f.rotate (r.logFile cfg) (r.rotatedFile cfg) maxLogBytes granted))
  (hopen : ∀ f (r : Role), I f → I (f.openAppend (r.logFile cfg)))

include hrotate hopen

/-- What rotations and opens keep, the events of the daemon keep. -/
theorem hears_preserves (events : List (Instant × Event)) (hw : I w.files) :
    I (events.foldr (hear cfg disk) w).files := by
  have hopened : ∀ (f : LogFiles) (r : Role) (env : DiskEnv), I f →
      I (openLogFile f (r.logFile cfg) env).1 := by
    intro f r env hf
    have hrotated := hrotate f r env.granted hf
    unfold openLogFile
    rw [rotateIfNeeded_eq]
    dsimp only
    split
    · exact hopen _ r hrotated
    · exact hrotated
  induction events with
  | nil => exact hw
  | cons te events ih =>
      obtain ⟨time, e⟩ := te
      cases e with
      | spawned r pid command => exact hopened _ r _ ih
      | spawnFailed r => exact hopened _ r _ ih
      | _ => exact ih

/-- What writes keep as well, a step keeps. -/
theorem step_preserves
    (hwrite : ∀ f i bytes, i < f.created → I f → I (f.append i bytes))
    (hstep : step cfg w wl = some w') (hw : I w.files) : I w'.files := by
  rcases step_cases hstep with
    ⟨l, disk, t, rfl, -, -, rfl⟩ | ⟨i, bytes, rfl, hi, rfl⟩
  · exact hears_preserves (w := { w with daemon := t }) hrotate hopen _ hw
  · exact hwrite _ i bytes hi hw

end Preserves

/-! ## The names of one role -/

theorem rotatedLarge_rotate {f : LogFiles} {q : Role} {granted : Bool} {n : ℕ}
    (h : f.RotatedLarge (r.rotatedFile cfg) n maxLogBytes) :
    (f.rotate (q.logFile cfg) (q.rotatedFile cfg) maxLogBytes
      granted).RotatedLarge (r.rotatedFile cfg) n maxLogBytes := by
  by_cases hqr : q = r
  · subst hqr
    exact h.rotate (logFile_ne_rotatedFile cfg q q) granted
  · refine h.of_names (FileTable.names_rotate_of_ne
      (logFile_ne_rotatedFile cfg q r).symm (rotatedFile_ne hqr).symm) fun j => ?_
    rw [FileTable.content_rotate]

theorem keeps_rotate {f : LogFiles} {q : Role} {granted : Bool} {n : ℕ}
    (h : f.Keeps (r.logFile cfg) (r.rotatedFile cfg) n i) :
    (f.rotate (q.logFile cfg) (q.rotatedFile cfg) maxLogBytes granted).Keeps
      (r.logFile cfg) (r.rotatedFile cfg) n i := by
  by_cases hqr : q = r
  · subst hqr
    exact h.rotate (logFile_ne_rotatedFile cfg q q) granted
  · refine h.of_names FileTable.created_rotate.ge ?_ ?_
    · exact FileTable.names_rotate_of_ne (logFile_ne hqr).symm
        (logFile_ne_rotatedFile cfg r q)
    · exact FileTable.names_rotate_of_ne
        (logFile_ne_rotatedFile cfg q r).symm (rotatedFile_ne hqr).symm

theorem keeps_openAppend {f : LogFiles} {q : Role} {n : ℕ}
    (h : f.Keeps (r.logFile cfg) (r.rotatedFile cfg) n i) :
    (f.openAppend (q.logFile cfg)).Keeps (r.logFile cfg) (r.rotatedFile cfg)
      n i := by
  by_cases hqr : q = r
  · subst hqr
    exact h.openAppend (logFile_ne_rotatedFile cfg q q)
  · exact h.of_names FileTable.created_le_openAppend
      (FileTable.names_openAppend_of_ne (logFile_ne hqr).symm)
      (FileTable.names_openAppend_of_ne (logFile_ne_rotatedFile cfg q r).symm)

/-! ## Runs -/

/-- A log that is rotated in a run is larger than the bound if the run has
created it. -/
theorem rotatedLarge_of_exec {ls : List WorldLabel}
    (hrun : exec (step cfg) w ls = some w') (r : Role) :
    w'.files.RotatedLarge (r.rotatedFile cfg) w.files.created maxLogBytes := by
  refine (reachable_of_exec hrun).preserves (I := fun v =>
    v.files.RotatedLarge (r.rotatedFile cfg) w.files.created maxLogBytes) ?_
    (FileTable.rotatedLarge_created _ _ _)
  intro u l v _ hu hstep
  refine step_preserves (I := fun f =>
    f.RotatedLarge (r.rotatedFile cfg) w.files.created maxLogBytes) ?_ ?_ ?_
    hstep hu
  · exact fun f q granted hf => rotatedLarge_rotate hf
  · exact fun f q hf => hf.openAppend (logFile_ne_rotatedFile cfg q r)
  · exact fun f j bytes _ hf => hf.of_names rfl fun k =>
      FileTable.prefix_append j k bytes

/-- What is in the log of a role is never overwritten, and it stays at hand: at
any later time it is still the beginning of the log or of the rotated log, or
the rotated log is a file that was created since and holds more than ten
megabytes. -/
theorem logs_are_kept {ls : List WorldLabel}
    (hrun : exec (step cfg) w ls = some w')
    (hlog : w.files.names (r.logFile cfg) = some i) :
    w.files.content i <+: w'.files.content i ∧
      (w'.files.names (r.logFile cfg) = some i ∨
        w'.files.names (r.rotatedFile cfg) = some i ∨
        ∃ j, w.files.created ≤ j ∧
          w'.files.names (r.rotatedFile cfg) = some j ∧
          maxLogBytes < (w'.files.content j).length) := by
  obtain ⟨hfront, hkeeps⟩ : w.files.content i <+: w'.files.content i ∧
      w'.files.Keeps (r.logFile cfg) (r.rotatedFile cfg) w.files.created i := by
    refine (reachable_of_exec hrun).preserves (I := fun w' =>
      w.files.content i <+: w'.files.content i ∧
        w'.files.Keeps (r.logFile cfg) (r.rotatedFile cfg) w.files.created i)
      ?_ ⟨List.prefix_rfl, FileTable.keeps_of_names hlog⟩
    intro u l v _ hu hstep
    refine step_preserves (I := fun f => w.files.content i <+: f.content i ∧
      f.Keeps (r.logFile cfg) (r.rotatedFile cfg) w.files.created i)
      ?_ ?_ ?_ hstep hu
    · rintro f q granted ⟨hfront, hkeeps⟩
      rw [FileTable.content_rotate]
      exact ⟨hfront, keeps_rotate hkeeps⟩
    · rintro f q ⟨hfront, hkeeps⟩
      exact ⟨hfront, keeps_openAppend hkeeps⟩
    · rintro f j bytes _ ⟨hfront, hkeeps⟩
      exact ⟨hfront.trans (FileTable.prefix_append j i bytes),
        hkeeps.of_names (Nat.le_refl _) rfl rfl⟩
  refine ⟨hfront, hkeeps.kept.imp_right ?_⟩
  rintro ⟨j, hj, rfl | hnew⟩
  · exact Or.inl hj
  · exact Or.inr ⟨j, hnew, hj, rotatedLarge_of_exec hrun r j hj hnew⟩

/-- The steps of the daemon, when the file system agrees to everything. -/
def withDisk (ls : List Label) : List WorldLabel :=
  ls.map fun l => .daemon l fun _ => ⟨true, true⟩

theorem openLogFile_granted (f : LogFiles) (r : Role) :
    (openLogFile f (r.logFile cfg) ⟨true, true⟩).1 =
      (f.rotate (r.logFile cfg) (r.rotatedFile cfg) maxLogBytes true).openAppend
        (r.logFile cfg) := by
  unfold openLogFile
  rw [rotateIfNeeded_eq]
  rfl

/-- A client starts another CA and stays connected. -/
def anotherCa : WorldLabel :=
  .daemon (.request (.command "start_ca") (.works 101 201) true)
    fun _ => ⟨true, true⟩

theorem exists_anotherCa (hpc : w.daemon.pc = .session) :
    ∃ w', step Config.default w anotherCa = some w' ∧
      w'.daemon.pc = .session ∧
      w'.files = (openLogFile w.files (Role.logFile Config.default .ca)
        ⟨true, true⟩).1 := by
  obtain ⟨⟨pc, sys, phase, health, lastHealth, startedAt⟩, files, output⟩ := w
  obtain rfl : pc = .session := hpc
  let d : Daemon := ⟨.session, sys, phase, health, lastHealth, startedAt⟩
  obtain ⟨t, ht, hpc, handled, time, pid, command, hlog⟩ : ∃ t,
      Teeproxyd.step Config.default d
        (.request (.command "start_ca") (.works 101 201) true) = some t ∧
      t.pc = .session ∧ ∃ handled time pid command, t.kernel.log =
        [(handled, .handled .startCa), (time, .spawned .ca pid command)] ++
          sys.kernel.log :=
    ⟨_, rfl, rfl, _, _, _, _, rfl⟩
  have hsince : sys.kernel.logSince t.kernel =
      [(handled, .handled .startCa), (time, .spawned .ca pid command)] := by
    rw [Kernel.logSince, hlog, List.length_append, Nat.add_sub_cancel]
    exact List.take_left
  have hstep : step Config.default ⟨d, files, output⟩ anotherCa =
      some ((sys.kernel.logSince t.kernel).foldr
        (hear Config.default fun _ => ⟨true, true⟩) ⟨t, files, output⟩) := by
    have hreads : ReadsLogs Config.default files
        (.request (.command "start_ca") (.works 101 201) true) := by
      intro htail
      exact absurd htail (by decide)
    simp only [step, anotherCa]
    rw [if_pos hreads, ht]
    rfl
  rw [hsince] at hstep
  exact ⟨_, hstep, hpc, rfl⟩

/-- A client is connected, and the log of the CA is larger than the bound. -/
def largeLog : World where
  daemon := { Teeproxyd.init Config.default 0 with pc := .session }
  files := (FileTable.empty.openAppend (Role.logFile Config.default .ca)).append
    0 (List.replicate (maxLogBytes + 1) 10)
  output _ := none

/-- Two CAs are started one after the other, and the first one writes as much as
there was in the log. -/
def twoRotations : List WorldLabel :=
  [anotherCa, .write 1 (List.replicate (maxLogBytes + 1) 10), anotherCa]

/-- The second rotation replaces what the first one has kept. -/
theorem logs_are_kept_twoRotations :
    ∃ w, exec (step Config.default) largeLog twoRotations = some w ∧
      w.files.names (Role.rotatedFile Config.default .ca) = some 1 ∧
      largeLog.files.content 0 <+: w.files.content 0 ∧
      ∃ j, 1 ≤ j ∧
        w.files.names (Role.rotatedFile Config.default .ca) = some j ∧
        maxLogBytes < (w.files.content j).length := by
  have hpaths := logFile_ne_rotatedFile Config.default .ca .ca
  have hlength : maxLogBytes <
      (List.replicate (maxLogBytes + 1) (10 : UInt8)).length := by
    rw [List.length_replicate]
    exact Nat.lt_succ_self _
  have hlarge : maxLogBytes < (largeLog.files.content 0).length := hlength
  obtain ⟨u, hu, hupc, hufiles⟩ := exists_anotherCa (w := largeLog) rfl
  obtain ⟨huname, -, hucreated⟩ := FileTable.rotate_openAppend_of_large hpaths
    (f := largeLog.files) (i := 0) rfl hlarge
  rw [← openLogFile_granted, ← hufiles] at huname hucreated
  have hopen : 1 < u.files.created := by
    rw [hucreated]
    decide
  let bytes : List UInt8 := List.replicate (maxLogBytes + 1) 10
  let v : World := { u with files := u.files.append 1 bytes }
  have hv : step Config.default u (.write 1 bytes) = some v := if_pos hopen
  have hvlarge : maxLogBytes < (v.files.content 1).length := by
    rw [FileTable.content_append_self hopen, List.length_append]
    exact Nat.lt_add_left _ hlength
  obtain ⟨w, hw, -, hwfiles⟩ := exists_anotherCa (w := v) hupc
  obtain ⟨hwname, hwrotated, -⟩ := FileTable.rotate_openAppend_of_large hpaths
    (f := v.files) (i := 1) huname hvlarge
  rw [← openLogFile_granted, ← hwfiles] at hwname hwrotated
  have hrun : exec (step Config.default) largeLog twoRotations = some w := by
    simp [twoRotations, exec, hu, hv, hw, bytes]
  obtain ⟨hfront, hlog | hrotated | hnew⟩ :=
    logs_are_kept (r := .ca) (i := 0) hrun rfl
  · have hzero : u.files.created = 0 :=
      Option.some.inj (hwname.symm.trans hlog)
    exact absurd hzero (Nat.ne_of_gt (Nat.zero_lt_of_lt hopen))
  · cases hwrotated.symm.trans hrotated
  · exact ⟨w, hrun, hwrotated, hfront, hnew⟩

end World

end Teeproxyd
