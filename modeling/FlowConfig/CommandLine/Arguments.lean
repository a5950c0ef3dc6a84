import FlowConfig.CommandLine.Switch

/-!
# Arguments

The arguments of a run name one command, with its switches and values in any
order.  The switch for detailed logs may also stand before the command.
-/

namespace FlowConfig
namespace CommandLine

inductive Command where
  | check (file : String) (plain : Bool) (manifest : Option String) (all : Bool)
  | empty (file : String) (plain : Bool)
  | classify (config flow manifest : Option String) (skipBundles : Bool)
  | pack (input output : String) (level : UInt32)
deriving DecidableEq, Repr

structure Invocation where
  verbose : Bool
  command : Command
deriving DecidableEq, Repr

inductive Request where
  | help
  | run (invocation : Invocation)
deriving DecidableEq, Repr

/-- What a command accepts, and the command that is given by it. -/
structure Form where
  switches : List Switch
  values : Nat
  command? : Given -> Option Command

def commonSwitches : List Switch := [verboseSwitch, helpSwitch]

def plainSwitch : Switch := ⟨"plain", none, .flag⟩
def allSwitch : Switch := ⟨"all", none, .flag⟩
def skipBundlesSwitch : Switch := ⟨"skip-bundles", none, .flag⟩
def manifestSwitch : Switch := ⟨"manifest", some 'm', .path⟩
def configSwitch : Switch := ⟨"config", some 'c', .path⟩
def flowSwitch : Switch := ⟨"flow", some 'f', .path⟩
def levelSwitch : Switch := ⟨"level", some 'l', .level⟩

def defaultLevel : UInt32 := 6

def checkForm : Form where
  switches := [plainSwitch, manifestSwitch, allSwitch]
  values := 1
  command? g :=
    match g.values with
    | [file] => some (.check file (g.hasFlag "plain") (g.option? "manifest") (g.hasFlag "all"))
    | _ => none

def emptyForm : Form where
  switches := [plainSwitch]
  values := 1
  command? g :=
    match g.values with
    | [file] => some (.empty file (g.hasFlag "plain"))
    | _ => none

def classifyForm : Form where
  switches := [configSwitch, flowSwitch, manifestSwitch, skipBundlesSwitch]
  values := 0
  command? g := some (.classify (g.option? "config") (g.option? "flow") (g.option? "manifest")
    (g.hasFlag "skip-bundles"))

def packForm : Form where
  switches := [levelSwitch]
  values := 2
  command? g :=
    match g.values with
    | [output, input] =>
        some (.pack input output (((g.option? "level").bind readLevel?).getD defaultLevel))
    | _ => none

def form? (name : String) : Option Form :=
  match name with
  | "check" => some checkForm
  | "empty" => some emptyForm
  | "classify" => some classifyForm
  | "pack" => some packForm
  | _ => none

/-!
# A command's arguments
-/

def addValue (form : Form) (g : Given) (value : String) : Except ArgumentFault Given :=
  if form.values ≤ g.values.length then .error (.unknown value)
  else if value == "" then .error (.invalidValue "a path" value)
  else .ok { g with values := value :: g.values }

def addValues (form : Form) (g : Given) : List String -> Except ArgumentFault Given
  | [] => .ok g
  | value :: rest =>
      match addValue form g value with
      | .error fault => .error fault
      | .ok g => addValues form g rest

def applyShape (switches : List Switch) (g : Given) : Shape -> Except ArgumentFault Effect
  | .long text => applyLong switches g text
  | .letters text => applyLetters switches g text
  | _ => .ok (.done g)

/-- Reads the arguments after a command; no result means that help is asked for. -/
def scan (form : Form) (g : Given) : List String -> Except ArgumentFault (Option Given)
  | [] => .ok (some g)
  | argument :: rest =>
      match shapeOf argument with
      | .separator => (addValues form g rest).map some
      | .plain =>
          match addValue form g argument with
          | .error fault => .error fault
          | .ok g => scan form g rest
      | shape =>
          match applyShape (form.switches ++ commonSwitches) g shape with
          | .error fault => .error fault
          | .ok .help => .ok none
          | .ok (.done g) => scan form g rest
          | .ok (.wantsValue s g) =>
              match rest with
              | [] => .error (.missingValue s.name)
              | value :: rest =>
                  if shapeOf value = .plain then
                    match g.addOption s value with
                    | .error fault => .error fault
                    | .ok g => scan form g rest
                  else .error (.missingValue s.name)

def readCommand (verbose : Bool) (form : Form) (arguments : List String) :
    Except ArgumentFault Request :=
  match scan form Given.empty arguments with
  | .error fault => .error fault
  | .ok none => .ok .help
  | .ok (some g) =>
      match form.command? g with
      | none => .error .missingArguments
      | some command => .ok (.run ⟨verbose || g.hasFlag verboseSwitch.name, command⟩)

/-!
# All arguments
-/

def helpName : String := "help"

/-- Help may be asked for one command, or for help itself. -/
def readHelp : List String -> Except ArgumentFault Request
  | [] => .ok .help
  | [name] =>
      if name = helpName ∨ (form? name).isSome then .ok .help else .error (.unknownCommand name)
  | _ :: name :: _ => .error (.unknownCommand name)

def readFrom (g : Given) : List String -> Except ArgumentFault Request
  | [] => .error .missingCommand
  | argument :: rest =>
      match shapeOf argument with
      | .separator => .error .missingCommand
      | .plain =>
          if argument = helpName then readHelp rest
          else
            match form? argument with
            | some form => readCommand (g.hasFlag verboseSwitch.name) form rest
            | none => .error (.unknownCommand argument)
      | shape =>
          match applyShape commonSwitches g shape with
          | .error fault => .error fault
          | .ok .help => .ok .help
          | .ok (.done g) => readFrom g rest
          | .ok (.wantsValue s _) => .error (.missingValue s.name)

def readArguments (arguments : List String) : Except ArgumentFault Request :=
  readFrom Given.empty arguments

end CommandLine
end FlowConfig
