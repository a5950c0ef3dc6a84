import FlowConfig.Issue

/-!
# Reporting

Reading tells a handler of issues on the way.  Where it fails, the handler is told
of the issue at that very place and the failure is passed on; whoever passes it on
tells nobody.
-/

namespace FlowConfig

abbrev Reporting (State A : Type) := ExceptT Issue (StateM State) A

namespace Reporting

variable {State A Fault : Type} (handler : Handler State)

def warn (issue : Issue) : Reporting State Unit :=
  modify fun state => handler.warning state issue

def abort (issue : Issue) : Reporting State A := do
  modify fun state => handler.abort state issue
  throw issue

def fatal (input : Bytes) (message : String) (offset : Nat) : Reporting State A :=
  abort handler (Issue.locatedAt .fatal message input offset)

/-- The answer of a step that has failed with a fatal error if it had a fault. -/
def orFatal (input : Bytes) (message : Fault -> String) (offset : Nat) :
    Except Fault A -> Reporting State A
  | .ok answer => pure answer
  | .error fault => fatal handler input (message fault) offset

/-- The state of the handler at the end, and the answer or the issue. -/
def runFrom (state : State) (x : Reporting State A) : State × Except Issue A :=
  match x.run.run state with
  | (outcome, last) => (last, outcome)

end Reporting
end FlowConfig
