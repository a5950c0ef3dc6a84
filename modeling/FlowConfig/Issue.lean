import FlowConfig.Bytes

/-!
# Issues

Problems found while a document is read, where they are located, and who is
told about them.  A warning lets reading go on; an error or a fatal error ends
it whatever the handler does.
-/

namespace FlowConfig

inductive Severity where
  | warning
  | error
  | fatal
deriving DecidableEq, Repr

namespace Severity

def rank : Severity -> Nat
  | .warning => 0
  | .error => 1
  | .fatal => 2

def display : Severity -> String
  | .warning => "Warning"
  | .error => "Error"
  | .fatal => "Fatal error"

def max (s t : Severity) : Severity :=
  if s.rank ≤ t.rank then t else s

end Severity

/-!
# Positions in a text
-/

structure Position where
  line : Nat
  column : Nat
deriving DecidableEq, Repr

def Position.start : Position := ⟨1, 1⟩

def Position.advance (p : Position) (b : UInt8) : Position :=
  if b == Ascii.lineFeed then ⟨p.line + 1, 1⟩ else ⟨p.line, p.column + 1⟩

/-- The position of a byte offset; offsets past the end count as the end. -/
def locate (input : Bytes) (offset : Nat) : Position :=
  (input.take offset).foldl Position.advance Position.start

/-!
# Issues and their handlers
-/

structure Issue where
  severity : Severity
  message : String
  position : Position
deriving DecidableEq, Repr

namespace Issue

def locatedAt (severity : Severity) (message : String) (input : Bytes) (offset : Nat) : Issue :=
  ⟨severity, message, locate input offset⟩

def aborts (issue : Issue) : Bool :=
  issue.severity != .warning

def display (issue : Issue) : String :=
  s!"{issue.severity.display} at line {issue.position.line}, "
    ++ s!"column {issue.position.column}: {issue.message}"

def rejection (issue : Issue) : String :=
  "flow configuration rejected: " ++ issue.display

def isSchemaViolation (issue : Issue) : Bool :=
  issue.severity == .error

def worst? (issues : List Issue) : Option Severity :=
  issues.foldl (fun s i => some (match s with
    | none => i.severity
    | some s => s.max i.severity)) none

end Issue

/-- Receives every issue, with a state of its own from call to call. -/
structure Handler (State : Type) where
  warning : State -> Issue -> State
  error : State -> Issue -> State
  fatal : State -> Issue -> State

namespace Handler

def silent : Handler Unit :=
  ⟨fun s _ => s, fun s _ => s, fun s _ => s⟩

def recording : Handler (List Issue) :=
  ⟨fun issues i => i :: issues, fun issues i => i :: issues, fun issues i => i :: issues⟩

/-- Hands the issue that ends reading to the method for its severity. -/
def abort {State : Type} (handler : Handler State) (state : State) (issue : Issue) : State :=
  match issue.severity with
  | .fatal => handler.fatal state issue
  | _ => handler.error state issue

end Handler

def logContext : String := "Flow Configuration"

end FlowConfig
