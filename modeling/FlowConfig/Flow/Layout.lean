import FlowConfig.Version

/-!
# Field layouts

Which declarations a process group may carry depends on the version of the
flow.  Layouts only ever add declarations as versions grow.
-/

namespace FlowConfig

inductive Layout where
  | legacy
  | v1
  | v1Variables
deriving DecidableEq, Repr

namespace Layout

def rank : Layout -> Nat
  | .legacy => 0
  | .v1 => 1
  | .v1Variables => 2

def display : Layout -> String
  | .legacy => "legacy"
  | .v1 => "v1"
  | .v1Variables => "v1-variables"

/-- A flow without a version has the oldest layout. -/
def ofVersion : Option Version -> Layout
  | none => .legacy
  | some v =>
      if v.major = 0 then .legacy
      else if v.major = 1 ∧ v.minor = 0 then .v1
      else .v1Variables

def groupServices (l : Layout) : Bool :=
  v1.rank ≤ l.rank

def groupVariables (l : Layout) : Bool :=
  v1Variables.rank ≤ l.rank

end Layout
end FlowConfig
