import Teeproxyd.Ipc.LogTail
import Teeproxyd.Supervision.LogRetention

/-!
# Whose output a client is shown

`tail_log` reads whichever file has the name of the log.  That is the file to
which the newest child writes, unless a start has rotated the log and then
failed to spawn a child: from then on the running child writes to `.log.1`, and
clients are shown a new file.
-/

namespace Teeproxyd

open FileStore TransitionSystem Utf8

namespace World

variable {cfg : Config} {w w' : World} {wl : WorldLabel} {r : Role} {i : ℕ}

/-- The log of the role is the file to which its newest child writes. -/
def Shows (cfg : Config) (r : Role) (w : World) : Prop :=
  ∀ i, w.output r = some i → w.files.names (r.logFile cfg) = some i

/-- A start of the role fails after it has rotated the log. -/
def FailsOver (cfg : Config) (r : Role) (w : World) : WorldLabel → Prop
  | .daemon l disk =>
      (disk r).granted = true ∧
        w.files.oversize (r.logFile cfg) maxLogBytes = true ∧
        (Teeproxyd.step cfg w.daemon l).any fun t =>
          (w.daemon.kernel.logSince t.kernel).any fun te =>
            te.2 = .spawnFailed r
  | .write _ _ => False

instance : Decidable (FailsOver cfg r w wl) := by
  unfold FailsOver
  split <;> infer_instance

/-! ## Opening a log -/

variable {f : LogFiles} {q : Role} {env : DiskEnv}

theorem content_openLogFile :
    (openLogFile f (q.logFile cfg) env).1.content = f.content := by
  unfold openLogFile
  rw [rotateIfNeeded_eq]
  dsimp only
  split
  · rw [FileTable.content_openAppend, FileTable.content_rotate]
  · exact FileTable.content_rotate

/-- The log of another role is left alone. -/
theorem names_openLogFile_of_ne (hqr : q ≠ r) :
    (openLogFile f (q.logFile cfg) env).1.names (r.logFile cfg) =
      f.names (r.logFile cfg) := by
  have hrotated : (f.rotate (q.logFile cfg) (q.rotatedFile cfg) maxLogBytes
      env.granted).names (r.logFile cfg) = f.names (r.logFile cfg) :=
    FileTable.names_rotate_of_ne (logFile_ne hqr).symm
      (logFile_ne_rotatedFile cfg r q)
  unfold openLogFile
  rw [rotateIfNeeded_eq]
  dsimp only
  split
  · rw [FileTable.names_openAppend_of_ne (logFile_ne hqr).symm]
    exact hrotated
  · exact hrotated

/-- A log that is opened is not larger than it was. -/
theorem oversize_of_openLogFile
    (h : (openLogFile f (q.logFile cfg) env).1.oversize (r.logFile cfg)
      maxLogBytes = true) :
    f.oversize (r.logFile cfg) maxLogBytes = true := by
  by_cases hqr : q = r
  · subst hqr
    unfold openLogFile at h
    rw [rotateIfNeeded_eq] at h
    dsimp only at h
    have hpaths := logFile_ne_rotatedFile cfg q q
    split at h
    · exact FileTable.oversize_of_rotate hpaths
        (FileTable.oversize_of_openAppend h)
    · exact FileTable.oversize_of_rotate hpaths h
  · unfold FileTable.oversize FileTable.read at h ⊢
    rwa [names_openLogFile_of_ne hqr, content_openLogFile] at h

/-- What a child is given to write to is the log. -/
theorem names_openLogFile (h : (openLogFile f (q.logFile cfg) env).2 = some i) :
    (openLogFile f (q.logFile cfg) env).1.names (q.logFile cfg) = some i := by
  unfold openLogFile at h ⊢
  dsimp only at h ⊢
  split at h
  next hopened =>
    rw [if_pos hopened, ← Option.some.inj h]
    exact FileTable.names_openAppend_self
  next => cases h

/-- The log keeps its name if it is small or cannot be renamed. -/
theorem names_openLogFile_of_small
    (hsmall : env.granted = true →
      f.oversize (q.logFile cfg) maxLogBytes = false)
    (h : f.names (q.logFile cfg) = some i) :
    (openLogFile f (q.logFile cfg) env).1.names (q.logFile cfg) = some i := by
  unfold openLogFile
  rw [rotateIfNeeded_eq, FileTable.rotate_of_small hsmall]
  dsimp only
  split
  · exact FileTable.names_openAppend_of_some h
  · exact h

/-! ## Steps -/

theorem hear_shows {disk : Role → DiskEnv} {te : Instant × Event}
    (hcalm : te.2 = .spawnFailed r → (disk r).granted = true →
      w.files.oversize (r.logFile cfg) maxLogBytes = false)
    (hw : Shows cfg r w) : Shows cfg r (hear cfg disk te w) := by
  obtain ⟨time, e⟩ := te
  cases e with
  | spawned q pid command =>
      intro i hi
      by_cases hqr : q = r
      · subst hqr
        refine names_openLogFile ?_
        simpa [hear] using hi
      · refine (names_openLogFile_of_ne hqr).trans (hw i ?_)
        simpa [hear, Ne.symm hqr] using hi
  | spawnFailed q =>
      intro i hi
      by_cases hqr : q = r
      · subst hqr
        exact names_openLogFile_of_small (hcalm rfl) (hw i hi)
      · exact (names_openLogFile_of_ne hqr).trans (hw i hi)
  | _ => exact hw

theorem hear_oversize {disk : Role → DiskEnv} {te : Instant × Event}
    (h : (hear cfg disk te w).files.oversize (r.logFile cfg) maxLogBytes =
      true) : w.files.oversize (r.logFile cfg) maxLogBytes = true := by
  obtain ⟨time, e⟩ := te
  cases e with
  | spawned q pid command => exact oversize_of_openLogFile h
  | spawnFailed q => exact oversize_of_openLogFile h
  | _ => exact h

theorem step_shows (hclean : ¬ FailsOver cfg r w wl)
    (hstep : step cfg w wl = some w') (hw : Shows cfg r w) :
    Shows cfg r w' := by
  rcases step_cases hstep with
    ⟨l, disk, t, rfl, -, ht, rfl⟩ | ⟨i, bytes, rfl, -, rfl⟩
  · have hcalm : ∀ te ∈ w.daemon.kernel.logSince t.kernel,
        te.2 = .spawnFailed r → (disk r).granted = true →
          w.files.oversize (r.logFile cfg) maxLogBytes = false := by
      intro te hte hfailed hgranted
      by_contra hlarge
      refine hclean ⟨hgranted, by simpa using hlarge, ?_⟩
      rw [ht, Option.any_some, List.any_eq_true]
      exact ⟨te, hte, decide_eq_true hfailed⟩
    -- a log that is too large at some event was so before the step
    suffices hboth : ∀ events : List (Instant × Event),
        (∀ te ∈ events, te.2 = .spawnFailed r → (disk r).granted = true →
          w.files.oversize (r.logFile cfg) maxLogBytes = false) →
        Shows cfg r (events.foldr (hear cfg disk) { w with daemon := t }) ∧
          ((events.foldr (hear cfg disk)
              { w with daemon := t }).files.oversize (r.logFile cfg)
              maxLogBytes = true →
            w.files.oversize (r.logFile cfg) maxLogBytes = true) from
      (hboth _ hcalm).1
    intro events hevents
    induction events with
    | nil => exact ⟨hw, id⟩
    | cons te events ih =>
        obtain ⟨hshows, hlarge⟩ := ih fun te' hte' =>
          hevents te' (List.mem_cons_of_mem te hte')
        refine ⟨hear_shows (fun hfailed hgranted => ?_) hshows,
          fun h => hlarge (hear_oversize h)⟩
        have hsmall := hevents te List.mem_cons_self hfailed hgranted
        by_contra hover
        rw [hlarge (by simpa using hover)] at hsmall
        cases hsmall
  · exact hw

/-! ## Runs -/

/-- What has been written to a file, in order. -/
def written (i : ℕ) (ls : List WorldLabel) : List UInt8 :=
  ls.flatMap fun
    | .write j bytes => if j = i then bytes else []
    | .daemon _ _ => []

theorem content_of_exec {ls : List WorldLabel}
    (hrun : exec (step cfg) w ls = some w') (i : ℕ) :
    w'.files.content i = w.files.content i ++ written i ls := by
  induction ls generalizing w with
  | nil =>
      cases hrun
      exact (List.append_nil _).symm
  | cons wl ls ih =>
      obtain ⟨v, hstep, htail⟩ := exec_cons_eq_some_iff.mp hrun
      rw [ih htail]
      rcases step_cases hstep with
        ⟨l, disk, t, rfl, -, -, rfl⟩ | ⟨j, bytes, rfl, hj, rfl⟩
      · have hsame : ((w.daemon.kernel.logSince t.kernel).foldr (hear cfg disk)
            { w with daemon := t }).files.content = w.files.content := by
          refine hears_preserves (I := fun f => f.content = w.files.content)
            ?_ ?_ _ rfl
          · exact fun f q granted hf => FileTable.content_rotate.trans hf
          · exact fun f q hf => hf
        rw [hsame]
        rfl
      · by_cases hij : i = j
        · subst hij
          simp [written, FileTable.content_append_self hj]
        · simp [written, FileTable.content_append_of_ne hij, Ne.symm hij]

/-- As long as no start fails over a log that it has rotated, a request for the
tail of a log is answered from the file to which the newest child of the role
writes: from what earlier runs have left in it, and all that was written to it
since. -/
theorem tail_shows_newest {now : Instant} {files : LogFiles}
    {ls : List WorldLabel} {req : Value} {env : RequestEnv} {sent : Bool}
    {disk : Role → DiskEnv}
    (hrun : exec (step cfg) (init cfg now files) ls = some w)
    (hclean : Along (step cfg) (fun w l => ¬ FailsOver cfg r w l)
      (init cfg now files) ls)
    (houtput : w.output r = some i) (hcmd : requestCmd req = .tailLog)
    (hlog : requestedLog cfg req = some (r.logFile cfg))
    (hserved : step cfg w (.daemon (.request req env sent) disk) = some w') :
    dispatch cfg w.daemon.startup w.daemon.startedAt req w.daemon.sys env =
      .ok (w.daemon.sys, tailReply
        (tailLog (some (files.content i ++ written i ls).toByteArray)
          (tailLines req))) := by
  have hshows : Shows cfg r w := by
    refine (path_of_exec hrun hclean).preserves ?_ nofun
    exact fun u l v hl hu hstep => step_shows hl hstep hu
  have hread : readable w.files (r.logFile cfg) =
      some (files.content i ++ written i ls).toByteArray := by
    rw [readable, FileTable.read, hshows i houtput, Option.map_some,
      Option.map_some, content_of_exec hrun i]
    rfl
  have hreads : env.files (r.logFile cfg) =
      readable w.files (r.logFile cfg) := by
    rcases step_cases hserved with
      ⟨l, disk, t, hl, hreads, -, -⟩ | ⟨j, bytes, hl, -, -⟩
    · cases hl
      exact hreads hcmd r
    · cases hl
  rw [dispatch, hcmd, handleTailLog_eq hlog, hreads, hread]

/-- An earlier run has left a line in the log of the CA. -/
def oldLog : LogFiles :=
  (FileTable.empty.openAppend (Role.logFile Config.default .ca)).append 0
    (encode "old\n".toList)

/-- The CA of a booted daemon writes another one, and a client is there. -/
def readyLine : List WorldLabel :=
  withDisk bootUp ++ [.write 0 (encode "ready\n".toList)] ++
    withDisk [.poll .incoming, .accept true]

/-- The files of such a daemon: the VM has written nothing. -/
def readyFiles : RequestEnv where
  vmStart := .works 101
  caStart := .works 201
  vmKill := .obeys
  caKill := .obeys
  files path :=
    if path = Role.logFile Config.default .ca then
      some (encode "old\nready\n".toList).toByteArray
    else some [].toByteArray

def tailOfCa : Value :=
  .object [("cmd", .string "tail_log"), ("source", .string "ca")]

theorem tail_shows_newest_ready :
    ∃ w, exec (step Config.default) (init Config.default 0 oldLog) readyLine =
        some w ∧
      dispatch Config.default w.daemon.startup w.daemon.startedAt tailOfCa
        w.daemon.sys readyFiles =
      .ok (w.daemon.sys, tailReply "old\nready") := by
  have hrun : ((exec (step Config.default) (init Config.default 0 oldLog)
      readyLine).any fun w => w.output .ca = some 0 ∧
        (step Config.default w (.daemon (.request tailOfCa
          readyFiles false) fun _ => ⟨true, true⟩)).isSome) =
      true := by decide
  obtain ⟨w, hw, hholds⟩ := (Option.any_eq_true _ _).mp hrun
  obtain ⟨houtput, hsome⟩ := of_decide_eq_true hholds
  obtain ⟨w', hserved⟩ := Option.isSome_iff_exists.mp hsome
  refine ⟨w, hw, ?_⟩
  have hanswer := tail_shows_newest hw (by decide) houtput (by decide)
    (by decide) hserved
  have hready : tailLog
      (some (oldLog.content 0 ++ written 0 readyLine).toByteArray)
      (tailLines tailOfCa) = "old\nready" := by decide
  rw [hanswer, hready]

end World

end Teeproxyd
