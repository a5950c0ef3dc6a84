import FlowConfig.Bundle.Compatibility
import FlowConfig.Flow.Emptiness

/-!
# The decision to load

A flow configuration that can be read, and whose bundles are all installed, is
loaded unless it is empty; an empty one means a fresh start.  The bundles are
checked first, so an empty flow with a missing bundle is still refused.
-/

namespace FlowConfig

inductive Decision where
  | fresh
  | load (model : Model)

namespace Decision

def isFresh : Decision -> Bool
  | .fresh => true
  | .load _ => false

end Decision

inductive Refusal where
  | rejected (issue : Issue)
  | missingBundle (incompatibility : Incompatibility)
deriving DecidableEq, Repr

namespace Refusal

def rejectionMessage (issue : Issue) : String :=
  "flow serialization failed: " ++ issue.rejection

def missingMessage (i : Incompatibility) : String :=
  "missing bundle for " ++ i.reference.display ++ ": " ++ i.reason.message

def message : Refusal -> String
  | .rejected issue => rejectionMessage issue
  | .missingBundle i => missingMessage i

end Refusal

/-- The bundles of the live components all resolve, where that is asked for. -/
def verifyBundles (resolver : Resolver) (checkBundles : Bool) (d : Document) :
    Except Incompatibility Unit :=
  if checkBundles then d.check resolver else .ok ()

def Decision.ofModel (model : Model) : Decision :=
  if model.isEmpty then .fresh else .load model

def classify (resolver : Resolver) (checkBundles : Bool) (input : Bytes) :
    Except Refusal Decision :=
  match Document.parse input with
  | .error issue => .error (.rejected issue)
  | .ok none => .ok .fresh
  | .ok (some d) =>
      match verifyBundles resolver checkBundles d with
      | .error i => .error (.missingBundle i)
      | .ok () => .ok (Decision.ofModel (Model.ofDocument d))

end FlowConfig
