import FlowConfig.Markup.Attribute

/-!
# Namespaces in force

Start tags bind prefixes, and the default namespace, to names.  A binding lasts
until its element ends; among bindings of one prefix the latest is in force.
-/

namespace FlowConfig
namespace Markup

/-- A prefix bound to a namespace; no prefix for the default namespace.  The
empty name takes a binding back. -/
structure Binding where
  label : Option Bytes
  uri : Bytes
deriving DecidableEq, Repr

abbrev Scope := List Binding

def xmlLabel : Bytes := Bytes.ofString "xml"
def xmlnsLabel : Bytes := Bytes.ofString "xmlns"
def xmlUri : Bytes := Bytes.ofString "http://www.w3.org/XML/1998/namespace"
def xmlnsUri : Bytes := Bytes.ofString "http://www.w3.org/2000/xmlns/"

def Scope.initial : Scope :=
  [⟨some xmlnsLabel, xmlnsUri⟩, ⟨some xmlLabel, xmlUri⟩]

/-!
# Qualified names
-/

def splitName (name : Bytes) : Option Bytes × Bytes :=
  match name.dropWhile (fun b => b != Ascii.colon) with
  | [] => (none, name)
  | _ :: localPart => (some (name.takeWhile fun b => b != Ascii.colon), localPart)

inductive Resolution where
  | unbound
  | bound (uri : Bytes)
  | unknownPrefix (label : Bytes)
deriving DecidableEq, Repr

def Scope.resolve (scope : Scope) (label : Option Bytes) : Resolution :=
  match scope.find? (fun b => b.label == label), label with
  | some ⟨_, []⟩, none => .unbound
  | some ⟨_, []⟩, some label => .unknownPrefix label
  | some ⟨_, uri⟩, _ => .bound uri
  | none, none => .unbound
  | none, some label => .unknownPrefix label

/-- Attributes without a prefix are in no namespace. -/
def Scope.resolveAttribute (scope : Scope) (label : Option Bytes) : Resolution :=
  match label with
  | none => .unbound
  | some _ => scope.resolve label

/-!
# Declarations
-/

inductive Declaration where
  | default
  | named (label : Bytes)
deriving DecidableEq, Repr

/-- What an attribute key declares, if it declares a namespace. -/
def declaration? (key : Bytes) : Option Declaration :=
  if xmlnsLabel.isPrefixOf key then
    match key.drop 5 with
    | [] => some .default
    | b :: label => if b == Ascii.colon then some (.named label) else none
  else none

inductive BindingFault where
  | xmlRebound (uri : Bytes)
  | xmlnsBound (uri : Bytes)
  | xmlUriTaken (label : Bytes)
  | xmlnsUriTaken (label : Bytes)
deriving DecidableEq, Repr

def hexDigit (n : Nat) : Char :=
  if n < 10 then Char.ofNat ('0'.toNat + n) else Char.ofNat ('A'.toNat + (n - 10))

def hexByte (b : UInt8) : List Char :=
  if b < 16 then [hexDigit b.toNat] else [hexDigit (b.toNat / 16), hexDigit (b.toNat % 16)]

def showBytes (bytes : Bytes) : String :=
  let body := bytes.flatMap fun b =>
    if b == Ascii.doubleQuote then ['\\', '"']
    else if 32 ≤ b && b ≤ 126 then [Char.ofNat b.toNat]
    else ['0', 'x'] ++ hexByte b
  String.ofList (['"'] ++ body ++ ['"'])

def BindingFault.message : BindingFault -> String
  | .xmlRebound uri =>
      s!"the namespace prefix 'xml' cannot be bound to '{showBytes uri}'"
  | .xmlnsBound uri =>
      s!"the namespace prefix 'xmlns' cannot be bound to '{showBytes uri}'"
  | .xmlUriTaken label =>
      s!"the namespace prefix '{showBytes label}' cannot be bound to "
        ++ "'http://www.w3.org/XML/1998/namespace'"
  | .xmlnsUriTaken label =>
      s!"the namespace prefix '{showBytes label}' cannot be bound to "
        ++ "'http://www.w3.org/2000/xmlns/'"

/-- The scope after one more attribute.  An empty prefix stands for none. -/
def Scope.declareOne (scope : Scope) (a : RawAttribute) :
    Except BindingFault Scope :=
  match declaration? a.key with
  | none => .ok scope
  | some .default => .ok (⟨none, a.value⟩ :: scope)
  | some (.named label) =>
      if label == xmlLabel then
        if a.value == xmlUri then .ok scope else .error (.xmlRebound a.value)
      else if label == xmlnsLabel then .error (.xmlnsBound a.value)
      else if a.value == xmlUri then .error (.xmlUriTaken label)
      else if a.value == xmlnsUri then .error (.xmlnsUriTaken label)
      else .ok (⟨if label.isEmpty then none else some label, a.value⟩ :: scope)

def Scope.declareAll (scope : Scope) : List RawAttribute -> Except BindingFault Scope
  | [] => .ok scope
  | a :: rest =>
      match scope.declareOne a with
      | .ok scope => scope.declareAll rest
      | .error fault => .error fault

def Scope.enter (scope : Scope) (content : Bytes) : Except BindingFault Scope :=
  scope.declareAll (scanAttributes false content).attributes

end Markup
end FlowConfig
