/-!
# Elements

A document is a tree of elements.  An element knows its local name, its
namespace, its attributes in source order and the text directly inside it, and
where its start tag stands in the source.
-/

namespace FlowConfig

/-- Where a start tag stands: its rank among all start tags of the source, and
its byte offset. -/
structure Origin where
  rank : Nat
  offset : Nat
deriving DecidableEq, Repr

structure Node where
  name : String
  uri : Option String
  attributes : List (String × String)
  text : String
  origin : Origin
deriving DecidableEq, Repr

structure Element where
  node : Node
  children : List Element

namespace Element

def name (e : Element) : String :=
  e.node.name

def uri (e : Element) : Option String :=
  e.node.uri

def attributes (e : Element) : List (String × String) :=
  e.node.attributes

def text (e : Element) : String :=
  e.node.text

def origin (e : Element) : Origin :=
  e.node.origin

def qualifiedName (e : Element) : String :=
  match e.uri with
  | some uri => "\x7b" ++ uri ++ "\x7d" ++ e.name
  | none => e.name

def attribute? (e : Element) (key : String) : Option String :=
  e.attributes.lookup key

/-!
# Children by name
-/

def childrenNamed (e : Element) (name : String) : List Element :=
  e.children.filter fun c => c.name == name

def child? (e : Element) (name : String) : Option Element :=
  e.children.find? fun c => c.name == name

def childText? (e : Element) (name : String) : Option String :=
  (e.child? name).map Element.text

theorem child?_eq_head? (e : Element) (name : String) :
    e.child? name = (e.childrenNamed name).head? := by
  simp [child?, childrenNamed]

/-!
# Size

The number of elements of a tree bounds every walk over it.
-/

mutual

def size : Element -> Nat
  | ⟨_, children⟩ => totalSize children + 1

def totalSize : List Element -> Nat
  | [] => 0
  | e :: rest => e.size + totalSize rest

end

theorem size_eq (e : Element) : e.size = totalSize e.children + 1 := by
  cases e
  simp [size]

@[simp] theorem totalSize_nil : totalSize [] = 0 := by
  simp [totalSize]

@[simp] theorem totalSize_cons (e : Element) (rest : List Element) :
    totalSize (e :: rest) = e.size + totalSize rest := by
  simp [totalSize]

@[simp] theorem totalSize_append (es fs : List Element) :
    totalSize (es ++ fs) = totalSize es + totalSize fs := by
  induction es with
  | nil => simp
  | cons e rest ih =>
      simp [ih]
      omega

/-!
# Document order

Walks keep the elements still to visit on a list, so the depth of a document
costs no stack.
-/

/-- The given elements and all inside them in document order, after the ones
in `before`, which are latest first. -/
def preorderFrom (before : List Element) (pending : List Element) : List Element :=
  match pending with
  | [] => before.reverse
  | e :: rest => preorderFrom (e :: before) (e.children ++ rest)
termination_by totalSize pending
decreasing_by
  simp only [totalSize_append, totalSize_cons, size_eq e]
  omega

def descendants (e : Element) : List Element :=
  preorderFrom [] e.children

def descendantsNamed (e : Element) (name : String) : List Element :=
  e.descendants.filter fun d => d.name == name

def descendant? (e : Element) (name : String) : Option Element :=
  e.descendants.find? fun d => d.name == name

def descendantCount (e : Element) : Nat :=
  e.descendants.length

end Element
end FlowConfig
