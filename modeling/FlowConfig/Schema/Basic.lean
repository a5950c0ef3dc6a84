import FlowConfig.Dictionary
import FlowConfig.Schema.SimpleType

/-!
# Schemas

A schema is a set of named element types.  A type declares attributes and a
content model; declared children come in any order and are counted.  No
declaration has a namespace.
-/

namespace FlowConfig

structure AttributeDeclaration where
  name : String
  kind : SimpleType
  required : Bool
deriving DecidableEq, Repr

/-- A child by its name, the type that governs it, and how often it occurs;
no upper bound when `max` is absent. -/
structure ChildDeclaration where
  name : String
  typeName : String
  min : Nat
  max : Option Nat
deriving DecidableEq, Repr

/-- What an element may contain.  Open content is not looked at, and neither
are the attributes of its element. -/
inductive Content where
  | empty
  | text (kind : SimpleType)
  | elements (children : List ChildDeclaration)
  | any
deriving DecidableEq, Repr

structure ElementType where
  name : String
  attributes : List AttributeDeclaration
  content : Content
deriving DecidableEq, Repr

structure Schema where
  version : String
  rootName : String
  rootType : String
  types : Dictionary ElementType
deriving Repr

namespace Schema

def new (version rootName rootType : String) : Schema :=
  ⟨version, rootName, rootType, .empty⟩

def withType (s : Schema) (t : ElementType) : Schema :=
  { s with types := s.types.insert t.name t }

def withTypes (s : Schema) (ts : List ElementType) : Schema :=
  ts.foldl withType s

def type? (s : Schema) (name : String) : Option ElementType :=
  s.types.get? name

theorem type?_withType (s : Schema) (t : ElementType) (name : String) :
    (s.withType t).type? name = if name = t.name then some t else s.type? name := by
  simp [withType, type?]

end Schema

/-!
# Shorthands for declarations
-/

namespace ChildDeclaration

def one (name typeName : String) : ChildDeclaration :=
  ⟨name, typeName, 1, some 1⟩

def atMostOne (name typeName : String) : ChildDeclaration :=
  ⟨name, typeName, 0, some 1⟩

def many (name typeName : String) : ChildDeclaration :=
  ⟨name, typeName, 0, none⟩

end ChildDeclaration

namespace AttributeDeclaration

def needed (name : String) (kind : SimpleType) : AttributeDeclaration :=
  ⟨name, kind, true⟩

def allowed (name : String) (kind : SimpleType) : AttributeDeclaration :=
  ⟨name, kind, false⟩

end AttributeDeclaration
end FlowConfig
