import Teeproxyd.Support.FileTable
import Teeproxyd.Daemon.Sys

/-!
# `process.rs`: the log files of the children

`spawn_with_log` rotates the log of a child and opens it for appending before
it spawns the child.  The child and whatever it starts write to the file that
was opened, under whichever name it goes by then.
-/

namespace Teeproxyd

open FileStore

abbrev LogFiles := FileTable String UInt8

/-- `Path::with_extension`, for a path that ends in a file name. -/
def withExtension (path ext : String) : String :=
  let reversed := path.toList.reverse
  let old := reversed.takeWhile fun c => c ≠ '.' && c ≠ '/'
  let stem :=
    match reversed.drop old.length with
    | '.' :: c :: rest => if c = '/' then reversed else c :: rest
    -- the name has no dot, or it starts with its only one
    | _ => reversed
  String.ofList stem.reverse ++ "." ++ ext

/-- `rotate_if_needed`.  The flag says whether the system lets it look at the
file and rename it; if not, nothing happens. -/
def rotateIfNeeded (files : LogFiles) (logPath : String) (maxBytes : ℕ)
    (granted : Bool) : LogFiles :=
  match files.read logPath with
  | some content =>
      if content.length > maxBytes then
        let rotated := withExtension logPath "log.1"
        if granted then files.rename logPath rotated else files
      else files
  | none => files

/-- The 10 MB of `spawn_with_log`. -/
def maxLogBytes : ℕ := 10 * 1024 * 1024

/-- What the system answers when the log of a role is rotated and opened. -/
structure DiskEnv where
  granted : Bool
  opened : Bool

/-- `spawn_with_log` up to the opened log, and the file that the child would
write to. -/
def openLogFile (files : LogFiles) (logFile : String) (env : DiskEnv) :
    LogFiles × Option ℕ :=
  let files := rotateIfNeeded files logFile maxLogBytes env.granted
  if env.opened then (files.openAppend logFile, some (files.target logFile))
  else (files, none)

/-- The log file that the `start` of a role passes to `spawn_with_log`. -/
def Role.logFile (cfg : Config) : Role → String
  | .vm => (VmManager.command cfg).logFile
  | .ca => (CaManager.command cfg).logFile

/-- Where the log of a role is rotated to. -/
def Role.rotatedFile (cfg : Config) (r : Role) : String :=
  withExtension (r.logFile cfg) "log.1"

/-! ## Paths -/

theorem exists_joinPath (dir : String) :
    ∃ base, ∀ name, joinPath dir name = base ++ name := by
  by_cases h : dir.toList.getLast? = some '/' ∨ dir.toList = []
  · exact ⟨dir, fun _ => if_pos h⟩
  · exact ⟨dir ++ "/", fun _ => if_neg h⟩

/-- The four log files have different names in one directory. -/
theorem exists_logDir (cfg : Config) :
    ∃ base, Role.logFile cfg .vm = base ++ "pvm.log" ∧
      Role.logFile cfg .ca = base ++ "ca.log" ∧
      Role.rotatedFile cfg .vm = base ++ "pvm.log.1" ∧
      Role.rotatedFile cfg .ca = base ++ "ca.log.1" := by
  obtain ⟨base, hbase⟩ := exists_joinPath cfg.logDir
  have hvm : Role.logFile cfg .vm = base ++ "pvm.log" := hbase _
  have hca : Role.logFile cfg .ca = base ++ "ca.log" := hbase _
  refine ⟨base, hvm, hca, ?_, ?_⟩
  · rw [Role.rotatedFile, hvm]
    simp only [withExtension, String.toList_append, List.reverse_append]
    simp [String.append_assoc]
  · rw [Role.rotatedFile, hca]
    simp only [withExtension, String.toList_append, List.reverse_append]
    simp [String.append_assoc]

theorem logFile_ne_rotatedFile (cfg : Config) (r q : Role) :
    r.logFile cfg ≠ q.rotatedFile cfg := by
  obtain ⟨base, hvm, hca, hvm', hca'⟩ := exists_logDir cfg
  cases r <;> cases q <;>
    simp only [hvm, hca, hvm', hca', ne_eq, String.append_right_inj] <;> decide

theorem logFile_ne {cfg : Config} {r q : Role} (h : r ≠ q) :
    r.logFile cfg ≠ q.logFile cfg := by
  obtain ⟨base, hvm, hca, -, -⟩ := exists_logDir cfg
  cases r <;> cases q <;>
    simp_all only [ne_eq, String.append_right_inj, not_true_eq_false] <;> decide

theorem rotatedFile_ne {cfg : Config} {r q : Role} (h : r ≠ q) :
    r.rotatedFile cfg ≠ q.rotatedFile cfg := by
  obtain ⟨base, -, -, hvm, hca⟩ := exists_logDir cfg
  cases r <;> cases q <;>
    simp_all only [ne_eq, String.append_right_inj, not_true_eq_false] <;> decide

theorem rotateIfNeeded_eq (files : LogFiles) (logPath : String) (maxBytes : ℕ)
    (granted : Bool) :
    rotateIfNeeded files logPath maxBytes granted =
      files.rotate logPath (withExtension logPath "log.1") maxBytes granted := by
  unfold rotateIfNeeded FileTable.rotate FileTable.oversize
  cases files.read logPath with
  | none => rfl
  | some content =>
      cases granted <;> by_cases hlarge : maxBytes < content.length <;>
        simp [hlarge]

end Teeproxyd
