import FlowConfig.Text.Numeral

/-!
# Switches

Arguments that begin with a dash.  A switch has a long name, perhaps a one-letter
name, and may take a value.  The value follows an equals sign, or the letter at
once, or stands in the next argument.  No switch may be given twice.
-/

namespace FlowConfig
namespace CommandLine

inductive SwitchKind where
  | help
  | flag
  | path
  | level
deriving DecidableEq, Repr

structure Switch where
  name : String
  letter : Option Char
  kind : SwitchKind
deriving DecidableEq, Repr

def verboseSwitch : Switch := ⟨"verbose", some 'v', .flag⟩
def helpSwitch : Switch := ⟨"help", some 'h', .help⟩

inductive ArgumentFault where
  | unknown (argument : String)
  | repeated (name : String)
  | missingValue (name : String)
  | needlessValue (name : String)
  | invalidValue (name value : String)
  | missingArguments
  | unknownCommand (name : String)
  | missingCommand
deriving DecidableEq, Repr

def ArgumentFault.message : ArgumentFault -> String
  | .unknown argument => "unexpected argument: " ++ argument
  | .repeated name => "--" ++ name ++ " cannot be given twice"
  | .missingValue name => "--" ++ name ++ " needs a value"
  | .needlessValue name => "--" ++ name ++ " takes no value"
  | .invalidValue name value => "invalid value for " ++ name ++ ": " ++ value
  | .missingArguments => "arguments are missing"
  | .unknownCommand name => "unknown command: " ++ name
  | .missingCommand => "a command is missing"

/-- What was given so far; plain values are latest first. -/
structure Given where
  flags : List String
  options : List (String × String)
  values : List String
deriving DecidableEq, Repr

namespace Given

def empty : Given := ⟨[], [], []⟩

def hasFlag (g : Given) (name : String) : Bool :=
  g.flags.contains name

def option? (g : Given) (name : String) : Option String :=
  g.options.lookup name

def addFlag (g : Given) (name : String) : Except ArgumentFault Given :=
  if g.hasFlag name then .error (.repeated name)
  else .ok { g with flags := name :: g.flags }

end Given

def readLevel? (text : String) : Option UInt32 :=
  match Text.readInt64 text.toList with
  | some n => if 0 ≤ n ∧ n < (UInt32.size : Int) then some (UInt32.ofNat n.toNat) else none
  | none => none

/-- A path must not be the empty text. -/
def SwitchKind.accepts (kind : SwitchKind) (value : String) : Bool :=
  match kind with
  | .level => (readLevel? value).isSome
  | _ => value != ""

def Given.addOption (g : Given) (s : Switch) (value : String) : Except ArgumentFault Given :=
  if (g.option? s.name).isSome then .error (.repeated s.name)
  else if s.kind.accepts value then .ok { g with options := (s.name, value) :: g.options }
  else .error (.invalidValue s.name value)

/-!
# One argument
-/

inductive Effect where
  | done (g : Given)
  | wantsValue (s : Switch) (g : Given)
  | help
deriving DecidableEq, Repr

def applyNamed (g : Given) (s : Switch) (attached : Option String) :
    Except ArgumentFault Effect :=
  match s.kind, attached with
  | .help, none => .ok .help
  | .flag, none => (g.addFlag s.name).map .done
  | .help, some _ => .error (.needlessValue s.name)
  | .flag, some _ => .error (.needlessValue s.name)
  | _, some value => (g.addOption s value).map .done
  | _, none => .ok (.wantsValue s g)

def applyLong (switches : List Switch) (g : Given) (text : List Char) :
    Except ArgumentFault Effect :=
  let (name, attached) :=
    match Text.splitOnce '=' text with
    | some (name, value) => (name, some (String.ofList value))
    | none => (text, none)
  match switches.find? fun s => s.name == String.ofList name with
  | none => .error (.unknown ("--" ++ String.ofList text))
  | some s => applyNamed g s attached

/-- The value attached to a letter; an equals sign may come before it. -/
def attachedValue : List Char -> String
  | '=' :: rest => String.ofList rest
  | text => String.ofList text

def applyLetters (switches : List Switch) (g : Given) : List Char ->
    Except ArgumentFault Effect
  | [] => .ok (.done g)
  | c :: rest =>
      match switches.find? fun s => s.letter == some c with
      | none => .error (.unknown (String.ofList ['-', c]))
      | some s =>
          match s.kind with
          | .help => .ok .help
          | .flag =>
              match g.addFlag s.name with
              | .error fault => .error fault
              | .ok g => applyLetters switches g rest
          | _ =>
              match rest with
              | [] => .ok (.wantsValue s g)
              | _ => (g.addOption s (attachedValue rest)).map .done

inductive Shape where
  | long (text : List Char)
  | letters (text : List Char)
  | separator
  | plain
deriving DecidableEq, Repr

/-- A lone dash is a plain value, and two dashes make all that follows plain. -/
def shapeOf (argument : String) : Shape :=
  match argument.toList with
  | ['-', '-'] => .separator
  | '-' :: '-' :: text => .long text
  | '-' :: c :: text => .letters (c :: text)
  | _ => .plain

end CommandLine
end FlowConfig
