import FlowConfig.Bundle.Coordinate

/-!
# Installed bundles

A registry lists the installed bundles in the order of their registration.  No
two of them have the same coordinate.  Component types are resolved at a
coordinate: the bundle must be installed and must provide the type.
-/

namespace FlowConfig

/-- A bundle and the component types it provides, in ascending order. -/
structure Bundle where
  coordinate : Coordinate
  types : List String
deriving DecidableEq, Repr

namespace Bundle

def new (coordinate : Coordinate) : Bundle :=
  ⟨coordinate, []⟩

def insertType (t : String) : List String -> List String
  | [] => [t]
  | u :: rest =>
      match compare t u with
      | .lt => t :: u :: rest
      | .eq => u :: rest
      | .gt => u :: insertType t rest

def withType (b : Bundle) (t : String) : Bundle :=
  { b with types := insertType t b.types }

def withTypes (b : Bundle) (ts : List String) : Bundle :=
  ts.foldl withType b

def provides (b : Bundle) (t : String) : Bool :=
  b.types.contains t

theorem mem_insertType {t u : String} {types : List String} :
    u ∈ insertType t types <-> u = t ∨ u ∈ types := by
  induction types with
  | nil => simp [insertType]
  | cons v rest ih =>
      simp only [insertType]
      split
      · simp
      · next heq =>
          have htv : t = v := by simpa using heq
          subst htv
          simp
      · simp only [List.mem_cons, ih]
        constructor
        · rintro (h | h | h)
          · exact Or.inr (Or.inl h)
          · exact Or.inl h
          · exact Or.inr (Or.inr h)
        · rintro (h | h | h)
          · exact Or.inr (Or.inl h)
          · exact Or.inl h
          · exact Or.inr (Or.inr h)

theorem mem_types_withType {b : Bundle} {t u : String} :
    u ∈ (b.withType t).types <-> u = t ∨ u ∈ b.types :=
  mem_insertType

end Bundle

/-!
# Faults
-/

inductive RegistryFault where
  | alreadyRegistered (coordinate : Coordinate)
deriving DecidableEq, Repr

def RegistryFault.message : RegistryFault -> String
  | .alreadyRegistered c => "Bundle already registered: " ++ c.display

inductive ResolveFault where
  | notInstalled (coordinate : Coordinate)
  | notProvided (componentType : String) (coordinate : Coordinate)
deriving DecidableEq, Repr

def ResolveFault.message : ResolveFault -> String
  | .notInstalled c => "Bundle not installed: " ++ c.display
  | .notProvided t c => "Bundle " ++ c.display ++ " does not provide " ++ t

/-- Looks up the bundle that provides a component type at a coordinate. -/
abbrev Resolver := String -> Coordinate -> Except ResolveFault Bundle

/-!
# Registries

The coordinate of a bundle is the key it is installed under; there is no key beside
it.  Taking a bundle out leaves the registry without it, and the bundle itself is not
handed back.
-/

structure Registry where
  bundles : List Bundle
deriving DecidableEq, Repr

namespace Registry

def empty : Registry := ⟨[]⟩

def get? (r : Registry) (c : Coordinate) : Option Bundle :=
  r.bundles.find? fun b => b.coordinate = c

def contains (r : Registry) (c : Coordinate) : Bool :=
  (r.get? c).isSome

def list (r : Registry) : List Coordinate :=
  r.bundles.map Bundle.coordinate

def size (r : Registry) : Nat :=
  r.bundles.length

def isEmpty (r : Registry) : Bool :=
  r.bundles.isEmpty

def register (r : Registry) (b : Bundle) : Except RegistryFault Registry :=
  if r.contains b.coordinate then .error (.alreadyRegistered b.coordinate)
  else .ok ⟨r.bundles ++ [b]⟩

def registerAll (r : Registry) : List Bundle -> Except RegistryFault Registry
  | [] => .ok r
  | b :: rest =>
      match r.register b with
      | .ok r => r.registerAll rest
      | .error fault => .error fault

def ofBundles (bundles : List Bundle) : Except RegistryFault Registry :=
  empty.registerAll bundles

/-- Removes a bundle; the others keep their order. -/
def unregister (r : Registry) (c : Coordinate) : Registry :=
  ⟨r.bundles.filter fun b => b.coordinate ≠ c⟩

def provides? (r : Registry) (c : Coordinate) (t : String) : Option Bool :=
  (r.get? c).map fun b => b.provides t

def resolve (r : Registry) : Resolver := fun t c =>
  match r.get? c with
  | none => .error (.notInstalled c)
  | some b => if b.provides t then .ok b else .error (.notProvided t c)

end Registry

/-!
# Shared registries

A registry that is shared takes further bundles, lists those it has and resolves
component types.  Nothing is ever removed from it.
-/

structure SharedRegistry where
  registry : Registry
deriving DecidableEq, Repr

namespace SharedRegistry

def register (s : SharedRegistry) (b : Bundle) : Except RegistryFault SharedRegistry :=
  match s.registry.register b with
  | .ok r => .ok ⟨r⟩
  | .error fault => .error fault

def list (s : SharedRegistry) : List Coordinate :=
  s.registry.list

def size (s : SharedRegistry) : Nat :=
  s.registry.size

def resolve (s : SharedRegistry) : Resolver :=
  s.registry.resolve

end SharedRegistry
end FlowConfig
