import FlowConfig.Element

/-!
# Documents

A document is its root element together with a table of all its elements in
document order.  The place of an element is its index in the table; the root has
place zero.  The table holds the way up, which the tree does not: each entry
names the place of the parent.
-/

namespace FlowConfig

structure Entry where
  element : Element
  parent : Option Nat

def pendingIn (parent : Nat) (children : List Element) : List (Option Nat × Element) :=
  children.map fun c => (some parent, c)

@[simp] theorem map_snd_pendingIn (parent : Nat) (children : List Element) :
    (pendingIn parent children).map Prod.snd = children := by
  simp [pendingIn, Function.comp_def]

/-- The entries of the pending elements and of all inside them, after those of
the elements already entered.  A pending element carries its parent's place. -/
def tableFrom (entered : Array Entry) (pending : List (Option Nat × Element)) : Array Entry :=
  match pending with
  | [] => entered
  | (parent, e) :: rest =>
      let place := entered.size
      tableFrom (entered.push ⟨e, parent⟩) (pendingIn place e.children ++ rest)
termination_by Element.totalSize (pending.map Prod.snd)
decreasing_by
  simp only [List.map_append, List.map_cons, map_snd_pendingIn, Element.totalSize_append,
    Element.totalSize_cons, Element.size_eq e]
  omega

def table (root : Element) : Array Entry :=
  tableFrom #[] [(none, root)]

structure Document where
  root : Element
  entries : Array Entry
  entries_eq : entries = table root

namespace Document

def ofRoot (root : Element) : Document :=
  ⟨root, table root, rfl⟩

def size (d : Document) : Nat :=
  d.entries.size

def places (d : Document) : List Nat :=
  List.range d.size

def element? (d : Document) (place : Nat) : Option Element :=
  d.entries[place]?.map Entry.element

def parent? (d : Document) (place : Nat) : Option Nat :=
  d.entries[place]?.bind Entry.parent

def hasName (d : Document) (name : String) (place : Nat) : Bool :=
  match d.element? place with
  | some e => e.name == name
  | none => false

def placesNamed (d : Document) (name : String) : List Nat :=
  d.places.filter (d.hasName name)

/-!
# The way up
-/

/-- The places of the ancestors, from the parent up to the root. -/
def ancestors (d : Document) (place : Nat) : List Nat :=
  match d.parent? place with
  | none => []
  | some p => if p < place then p :: d.ancestors p else []
termination_by place

def isWithin (d : Document) (name : String) (place : Nat) : Bool :=
  match d.entries[place]? with
  | none => false
  | some entry =>
      if entry.element.name == name then true
      else
        match entry.parent with
        | none => false
        | some p => if p < place then d.isWithin name p else false
termination_by place

/-!
# The way down
-/

/-- The places of consecutive siblings, the first of which is at `place`. -/
def siblingPlaces (place : Nat) : List Element -> List Nat
  | [] => []
  | e :: rest => place :: siblingPlaces (place + 1 + e.descendantCount) rest

def childPlaces (d : Document) (place : Nat) : List Nat :=
  match d.element? place with
  | some e => siblingPlaces (place + 1) e.children
  | none => []

def childPlacesNamed (d : Document) (name : String) (place : Nat) : List Nat :=
  (d.childPlaces place).filter (d.hasName name)

/-- The places of all elements inside, which follow the element at once. -/
def descendantPlaces (d : Document) (place : Nat) : List Nat :=
  match d.element? place with
  | some e => List.range' (place + 1) e.descendantCount
  | none => []

def descendantPlacesNamed (d : Document) (name : String) (place : Nat) : List Nat :=
  (d.descendantPlaces place).filter (d.hasName name)

end Document
end FlowConfig
