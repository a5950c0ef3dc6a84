import FlowConfig.CommandLine.Run
import FlowConfig.Storage.FileSystem

/-!
# What commands read

A command that only reads finds its files as they are and leaves the file system as it
was.  So its report is a function of the contents, and the outcome of a whole run is
that of the command its arguments ask for.
-/

namespace FlowConfig

namespace Storage

theorem bind_apply {S A B : Type} (action : StateM S A) (next : A -> StateM S B) (s : S) :
    (action >>= next) s = next (action s).1 (action s).2 :=
  rfl

theorem FileSystem.disk_fetch (fs : FileSystem) (p : Path) :
    FileSystem.disk.fetch p fs = (fs.fetch p, fs) :=
  rfl

/-- The configuration stored at a path. -/
def FileSystem.stored (fs : FileSystem) (p : Path) : Except Fault Bytes :=
  match fs.fetch p with
  | .ok content => unpack p content
  | .error .notFound => .ok []
  | .error .isADirectory =>
      .error (.decompress p.text (.unreadable SystemFault.isADirectory.message))
  | .error cause => .error (.io p.text cause)

theorem read_eq_stored (fs : FileSystem) (p : Path) :
    read FileSystem.disk p fs = (fs.stored p, fs) := by
  rw [read, bind_apply, FileSystem.disk_fetch, FileSystem.stored]
  cases fs.fetch p with
  | ok content => rfl
  | error cause =>
      cases cause with
      | notFound => rfl
      | isADirectory => rfl
      | _ => rfl

theorem rejectsInput_iff_stored {fs : FileSystem} {settings : Settings} {resolver : Resolver}
    {fault : LoadFault} (h : (loadFlow FileSystem.disk settings resolver fs).1 = .error fault) :
    fault.rejectsInput = true <->
      exists input, fs.stored (Path.ofString settings.storage.flowFile) = .ok input := by
  rw [loadFlow, bind_apply, read_eq_stored] at h
  cases hstored : fs.stored (Path.ofString settings.storage.flowFile) with
  | error unread =>
      simp only [hstored] at h
      cases h
      exact iff_of_false Bool.false_ne_true fun ⟨_, hok⟩ => nomatch hok
  | ok input =>
      simp only [hstored] at h
      refine iff_of_true ?_ ⟨input, rfl⟩
      cases hclassify : classify resolver settings.checkBundles input with
      | error refusal =>
          simp only [hclassify] at h
          cases h
          rfl
      | ok decision =>
          simp only [hclassify] at h
          cases h

def FileSystem.registry (fs : FileSystem) (p : Path) : Except ManifestFault Registry :=
  match fs.fetch p with
  | .ok content => registryOfManifest p.text content
  | .error cause => .error (.unreadable p.text cause)

theorem loadRegistry_eq_registry (fs : FileSystem) (p : Path) :
    loadRegistry FileSystem.disk p fs = (fs.registry p, fs) := by
  rw [loadRegistry, bind_apply, FileSystem.disk_fetch, FileSystem.registry]
  cases fs.fetch p with
  | ok content => rfl
  | error cause => rfl

end Storage

namespace CommandLine

open Storage (Disk FileSystem Path bind_apply)

/-!
# The bytes of a file
-/

/-- The bytes of a file, as they are or as a stored configuration. -/
def inputAt (fs : FileSystem) (p : Path) (plain : Bool) : Except Failure Bytes :=
  if plain then (fs.fetch p).mapError (Failure.input p.text)
  else (fs.stored p).mapError Failure.storage

theorem inputAt_of_fetch {fs : FileSystem} {p : Path} {content : Bytes}
    (h : fs.fetch p = .ok content) : inputAt fs p true = .ok content := by
  rw [inputAt, h]
  rfl

theorem inputAt_of_stored {fs : FileSystem} {p : Path} {content : Bytes}
    (h : fs.stored p = .ok content) : inputAt fs p false = .ok content := by
  rw [inputAt, h]
  rfl

theorem readInput_plain {S : Type} (disk : Disk (StateM S)) (p : Path) (s : S) :
    readInput disk p true s =
      ((disk.fetch p s).1.mapError (Failure.input p.text), (disk.fetch p s).2) := by
  rw [readInput]
  simp only [if_true]
  rw [bind_apply]
  cases disk.fetch p s with
  | mk answer t =>
      cases answer with
      | error cause => rfl
      | ok content => rfl

theorem readInput_eq_inputAt (fs : FileSystem) (p : Path) (plain : Bool) :
    readInput FileSystem.disk p plain fs = (inputAt fs p plain, fs) := by
  cases plain with
  | true => exact readInput_plain FileSystem.disk p fs
  | false =>
      rw [readInput, inputAt]
      simp only [Bool.false_eq_true, if_false]
      rw [bind_apply, Storage.read_eq_stored]
      cases fs.stored p with
      | error fault => rfl
      | ok content => rfl

def emptyReport : Except Failure Bytes -> Report
  | .error failure => Report.failed failure
  | .ok input => Report.ofExcept (emptyLine input)

theorem empty_eq_emptyReport (fs : FileSystem) (file : String) (plain : Bool) :
    empty FileSystem.disk file plain fs =
      (emptyReport (inputAt fs (Path.ofString file) plain), fs) := by
  rw [empty, bind_apply, readInput_eq_inputAt]
  cases inputAt fs (Path.ofString file) plain with
  | error failure => rfl
  | ok input => rfl

/-!
# Whole runs
-/

def AskFor (arguments : List String) (command : Command) : Prop :=
  exists verbose, readArguments arguments = .ok (.run ⟨verbose, command⟩)

theorem execute_of_askFor {m : Type -> Type} [Monad m] [LawfulMonad m] (disk : Disk m)
    {arguments : List String} {command : Command} (h : AskFor arguments command) :
    execute disk arguments = Outcome.ofReport <$> command.run disk := by
  rcases h with ⟨verbose, hread⟩
  rw [execute, hread, map_eq_pure_bind]

theorem execute_eq {fs : FileSystem} {arguments : List String} {command : Command}
    {report : Report} (hask : AskFor arguments command)
    (hrun : command.run FileSystem.disk fs = (report, fs)) :
    execute FileSystem.disk arguments fs = (Outcome.ofReport report, fs) := by
  rw [execute_of_askFor FileSystem.disk hask]
  exact congrArg (fun result => (Outcome.ofReport result.1, result.2)) hrun

theorem execute_empty {arguments : List String} {file : String} {plain : Bool}
    (h : AskFor arguments (.empty file plain)) (fs : FileSystem) :
    execute FileSystem.disk arguments fs =
      (Outcome.ofReport (emptyReport (inputAt fs (Path.ofString file) plain)), fs) :=
  execute_eq h (empty_eq_emptyReport fs file plain)

theorem joinLines_singleton (line : String) : joinLines [line] = line ++ "\n" := by
  simp [joinLines, String.join]

theorem status_eq_zero_iff (r : Report) :
    (Outcome.ofReport r).status = 0 <-> r.failure = none := by
  rw [Outcome.ofReport]
  cases r.failure with
  | none => simp
  | some failure => simp

def funnelFlow : Bytes :=
  Utf8.encode ("<flowController><rootGroup><id/><name/><funnel><id/></funnel>" ++
    "</rootGroup></flowController>").toList

end CommandLine
end FlowConfig
