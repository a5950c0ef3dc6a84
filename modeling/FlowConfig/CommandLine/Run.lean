import FlowConfig.CommandLine.Arguments
import FlowConfig.Storage.Loading

/-!
# Running commands

Each command reads what it needs from a disk and reports in lines of text, or
fails.  What it printed before it failed stays printed.
-/

namespace FlowConfig
namespace CommandLine

open Storage (Disk Path SystemFault)

variable {m : Type -> Type} [Monad m]

inductive Failure where
  | input (path : String) (cause : SystemFault)
  | storage (fault : Storage.Fault)
  | manifest (fault : Storage.ManifestFault)
  | settings (fault : Storage.SettingsFault)
  | load (fault : Storage.LoadFault)
  | rejected (issue : Issue)
  | missingBundle (incompatibility : Incompatibility)
  | missingBundles (count : Nat)
  | emptyInput (path : String)
deriving DecidableEq, Repr

def Failure.message : Failure -> String
  | .input path cause => "reading " ++ path ++ ": " ++ cause.message
  | .storage fault => fault.message
  | .manifest fault => fault.message
  | .settings fault => fault.message
  | .load fault => fault.message
  | .rejected issue => issue.rejection
  | .missingBundle i => Refusal.missingMessage i
  | .missingBundles count => s!"{count} component(s) reference missing bundles"
  | .emptyInput path => path ++ " is empty"

/-- The lines that a command prints, and why it fails, if it does. -/
structure Report where
  lines : List String
  failure : Option Failure
deriving DecidableEq, Repr

namespace Report

def success (line : String) : Report := ⟨[line], none⟩

def failed (failure : Failure) : Report := ⟨[], some failure⟩

def ofExcept : Except Failure String -> Report
  | .ok line => success line
  | .error failure => failed failure

end Report

/-!
# Reading
-/

def readInput (disk : Disk m) (path : Path) (plain : Bool) : m (Except Failure Bytes) := do
  if plain then
    match ← disk.fetch path with
    | .error cause => return .error (.input path.text cause)
    | .ok content => return .ok content
  else
    match ← Storage.read disk path with
    | .error fault => return .error (.storage fault)
    | .ok content => return .ok content

/-- The registry of a manifest; without one no bundles are installed. -/
def loadRegistry (disk : Disk m) (manifest : Option String) : m (Except Failure Registry) := do
  match manifest with
  | none => return .ok Registry.empty
  | some path =>
      match ← Storage.loadRegistry disk (Path.ofString path) with
      | .error fault => return .error (.manifest fault)
      | .ok registry => return .ok registry

/-!
# Checking
-/

def validLine (file : String) : String :=
  file ++ ": valid"

def validSummaryLine (file : String) (d : Document) : String :=
  validLine file ++ ", " ++ (Model.ofDocument d).summary.display

def checkAllReport (file : String) (d : Document) (registry : Registry) : Report :=
  match d.checkAll registry.resolve with
  | [] => Report.success (validSummaryLine file d)
  | missing =>
      ⟨missing.map fun b => "missing: " ++ b.display, some (.missingBundles missing.length)⟩

def checkReport (file : String) (all : Bool) (d : Document) (registry : Registry) : Report :=
  if all then checkAllReport file d registry
  else
    match d.check registry.resolve with
    | .error i => Report.failed (.missingBundle i)
    | .ok () => Report.success (validSummaryLine file d)

/-- Without a manifest the bundles of a valid document are not checked. -/
def checkDocument (disk : Disk m) (file : String) (manifest : Option String) (all : Bool)
    (d : Document) : m Report := do
  match manifest with
  | none => return Report.success (validLine file)
  | some path =>
      match ← loadRegistry disk (some path) with
      | .error failure => return Report.failed failure
      | .ok registry => return checkReport file all d registry

def check (disk : Disk m) (file : String) (plain : Bool) (manifest : Option String)
    (all : Bool) : m Report := do
  match ← readInput disk (Path.ofString file) plain with
  | .error failure => return Report.failed failure
  | .ok input =>
      match Document.parse input with
      | .error issue => return Report.failed (.rejected issue)
      | .ok none => return Report.success (file ++ ": no flow configuration")
      | .ok (some d) => checkDocument disk file manifest all d

/-!
# Emptiness
-/

def emptyLine (input : Bytes) : Except Failure String :=
  match isEmptyFlow input with
  | .error issue => .error (.rejected issue)
  | .ok b => .ok (if b then "true" else "false")

def empty (disk : Disk m) (file : String) (plain : Bool) : m Report := do
  match ← readInput disk (Path.ofString file) plain with
  | .error failure => return Report.failed failure
  | .ok input => return Report.ofExcept (emptyLine input)

/-!
# Classifying
-/

def decisionLine : Decision -> String
  | .fresh => "fresh"
  | .load model => "load: " ++ model.summary.display

def overrideSettings (settings : Settings) (flow manifest : Option String)
    (skipBundles : Bool) : Settings :=
  let settings :=
    match flow with
    | some path => settings.withFlowFile path
    | none => settings
  let settings :=
    match manifest with
    | some path => settings.withExtensionsManifest path
    | none => settings
  if skipBundles then settings.withCheckBundles false else settings

def loadSettings (disk : Disk m) (config : Option String) : m (Except Failure Settings) := do
  match config with
  | none => return .ok {}
  | some path =>
      match ← Storage.loadSettings disk (Path.ofString path) with
      | .error fault => return .error (.settings fault)
      | .ok settings => return .ok settings

def classifyWith (disk : Disk m) (settings : Settings) : m Report := do
  match ← loadRegistry disk settings.extensionsManifest with
  | .error failure => return Report.failed failure
  | .ok registry =>
      match ← Storage.loadFlow disk settings registry.resolve with
      | .error fault => return Report.failed (.load fault)
      | .ok decision => return Report.success (decisionLine decision)

def classify (disk : Disk m) (config flow manifest : Option String) (skipBundles : Bool) :
    m Report := do
  match ← loadSettings disk config with
  | .error failure => return Report.failed failure
  | .ok settings => classifyWith disk (overrideSettings settings flow manifest skipBundles)

/-!
# Packing
-/

/-- The configuration that may be packed: a valid one that is not empty text. -/
def packable (input : String) (content : Bytes) : Except Failure Bytes :=
  match Document.parse content with
  | .error issue => .error (.rejected issue)
  | .ok none => .error (.emptyInput input)
  | .ok (some _) => .ok content

def pack (disk : Disk m) (input output : String) (level : UInt32) : m Report := do
  match ← readInput disk (Path.ofString input) true with
  | .error failure => return Report.failed failure
  | .ok content =>
      match packable input content with
      | .error failure => return Report.failed failure
      | .ok configuration =>
          match ← Storage.write disk (Path.ofString output) configuration level with
          | .error fault => return Report.failed (.storage fault)
          | .ok () => return Report.success ("packed " ++ input ++ " into " ++ output)

def Command.run (disk : Disk m) : Command -> m Report
  | .check file plain manifest all => CommandLine.check disk file plain manifest all
  | .empty file plain => CommandLine.empty disk file plain
  | .classify config flow manifest skipBundles =>
      CommandLine.classify disk config flow manifest skipBundles
  | .pack input output level => CommandLine.pack disk input output level

/-!
# Whole runs
-/

/-- What a run writes to its two outputs, and its exit status. -/
structure Outcome where
  output : String
  errors : String
  status : UInt32
deriving DecidableEq, Repr

def joinLines (lines : List String) : String :=
  String.join (lines.map fun line => line ++ "\n")

def usage : List String :=
  ["Usage: flowgate [-v] <command>",
   "  check [--plain] [-m <manifest>] [--all] <file>",
   "  empty [--plain] <file>",
   "  classify [-c <config>] [-f <flow>] [-m <manifest>] [--skip-bundles]",
   "  pack [-l <level>] <input> <output>"]

def Outcome.ofReport (r : Report) : Outcome :=
  match r.failure with
  | none => ⟨joinLines r.lines, "", 0⟩
  | some failure => ⟨joinLines r.lines, joinLines ["Error: " ++ failure.message], 1⟩

/-- Runs the command that the arguments name.  Arguments that name none end the
run with status two. -/
def execute (disk : Disk m) (arguments : List String) : m Outcome := do
  match readArguments arguments with
  | .error fault => return ⟨"", joinLines (("error: " ++ fault.message) :: usage), 2⟩
  | .ok .help => return ⟨joinLines usage, "", 0⟩
  | .ok (.run invocation) =>
      let report ← invocation.command.run disk
      return Outcome.ofReport report

end CommandLine
end FlowConfig
