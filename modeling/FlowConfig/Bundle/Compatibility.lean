import FlowConfig.Bundle.Registry
import FlowConfig.Document
import FlowConfig.Text.Blank

/-!
# Bundle compatibility

Every element named `bundle` declares where its parent component comes from, and
must resolve, unless the component is a template or lies in one.  Templates are
never instantiated from the flow itself.
-/

namespace FlowConfig

/-- A component type and the bundle it is declared to come from. -/
structure BundleReference where
  componentType : String
  coordinate : Coordinate
deriving DecidableEq, Repr

namespace BundleReference

def trimmedText (e : Element) (name : String) : String :=
  Text.trim ((e.childText? name).getD "")

def ofElements (component bundle : Element) : BundleReference :=
  ⟨trimmedText component "class",
    ⟨trimmedText bundle "group", trimmedText bundle "artifact", trimmedText bundle "version"⟩⟩

def display (r : BundleReference) : String :=
  r.componentType ++ " from " ++ r.coordinate.display

end BundleReference

structure Incompatibility where
  reference : BundleReference
  reason : ResolveFault
deriving DecidableEq, Repr

def Incompatibility.message (i : Incompatibility) : String :=
  "Missing bundle for " ++ i.reference.display ++ ": " ++ i.reason.message

structure MissingBundle where
  component : Nat
  incompatibility : Incompatibility
deriving DecidableEq, Repr

def MissingBundle.display (m : MissingBundle) : String :=
  m.incompatibility.reference.display ++ ": " ++ m.incompatibility.reason.message

namespace Document

/-!
# Templates
-/

def templateName : String := "template"
def bundleName : String := "bundle"

def withinTemplate (d : Document) (place : Nat) : Bool :=
  d.isWithin templateName place

/-- The mark of an entry, given the marks of all entries before it. -/
def templateMark (marks : Array Bool) (entry : Entry) : Bool :=
  entry.element.name == templateName ||
    match entry.parent with
    | some p => marks[p]?.getD false
    | none => false

/-- For each place whether it is in a template, found in one pass from the top:
parents come before their children. -/
def templateMarks (d : Document) : Array Bool :=
  d.entries.foldl (fun marks entry => marks.push (templateMark marks entry)) #[]

/-- The places of all templates and of everything inside them. -/
def templateScope (d : Document) : List Nat :=
  let marks := d.templateMarks
  d.places.filter fun place => marks[place]?.getD false

/-!
# Checking
-/

/-- What is wrong with the declaration at `bundle`, owned by `component`. -/
def incompatibility? (d : Document) (resolver : Resolver) (component bundle : Nat) :
    Option Incompatibility :=
  match d.element? component, d.element? bundle with
  | some c, some b =>
      let reference := BundleReference.ofElements c b
      match resolver reference.componentType reference.coordinate with
      | .ok _ => none
      | .error reason => some ⟨reference, reason⟩
  | _, _ => none

def checkFrom (d : Document) (resolver : Resolver) : List Nat -> Except Incompatibility Unit
  | [] => .ok ()
  | bundle :: rest =>
      match d.parent? bundle with
      | none => d.checkFrom resolver rest
      | some component =>
          if d.withinTemplate component then d.checkFrom resolver rest
          else
            match d.incompatibility? resolver component bundle with
            | none => d.checkFrom resolver rest
            | some i => .error i

def check (d : Document) (resolver : Resolver) : Except Incompatibility Unit :=
  d.checkFrom resolver (d.placesNamed bundleName)

/-- All live components that do not resolve, in document order. -/
def checkAll (d : Document) (resolver : Resolver) : List MissingBundle :=
  let marks := d.templateMarks
  (d.placesNamed bundleName).filterMap fun bundle =>
    match d.parent? bundle with
    | none => none
    | some component =>
        if marks[component]?.getD false then none
        else (d.incompatibility? resolver component bundle).map fun i => ⟨component, i⟩

end Document
end FlowConfig
