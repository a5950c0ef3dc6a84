import FlowConfig.Bytes

/-!
# Attributes of a tag

One pass over the content of a tag finds its attributes as bytes.  Positions
count from the start of the content, the tag name included.  The pass stops at
the first fault; the attributes found before it are still delivered, because
namespaces are declared by them whatever follows.
-/

namespace FlowConfig
namespace Markup

open Ascii

structure RawAttribute where
  position : Nat
  key : Bytes
  value : Bytes
deriving DecidableEq, Repr

inductive AttributeFault where
  | missingEquals
  | missingValue
  | unquotedValue
  | missingQuote (quote : UInt8)
  | repeated (previous : Nat)
deriving DecidableEq, Repr

def AttributeFault.message : AttributeFault -> String
  | .missingEquals => "attribute key must be directly followed by `=` or space"
  | .missingValue => "`=` must be followed by an attribute value"
  | .unquotedValue => "attribute value must be enclosed in `\"` or `'`"
  | .missingQuote quote =>
      s!"missing closing quote `{Char.ofNat quote.toNat}` in attribute value"
  | .repeated previous =>
      s!"duplicated attribute, previous declaration at position {previous}"

/-- Where the pass stands.  Keys and values being read are latest first. -/
inductive AttributeState where
  | gap
  | key (start : Nat) (name : Bytes)
  | afterKey (start : Nat) (name : Bytes)
  | beforeValue (start : Nat) (name : Bytes)
  | value (start : Nat) (name : Bytes) (quote : UInt8) (raw : Bytes)
deriving Repr

/-- The attributes found, and the fault that ended the pass with its position. -/
structure AttributeScan where
  attributes : List RawAttribute
  fault : Option (Nat × AttributeFault)
deriving Repr

def AttributeState.unfinished : AttributeState -> Option AttributeFault
  | .gap => none
  | .key _ _ => some .missingEquals
  | .afterKey _ _ => some .missingEquals
  | .beforeValue _ _ => some .missingValue
  | .value _ _ quote _ => some (.missingQuote quote)

def previousPosition? (found : List RawAttribute) (key : Bytes) : Option Nat :=
  (found.find? fun a => a.key == key).map RawAttribute.position

/-- The state after the equals sign of a key.  With `distinct` set, a key that
was found before is a fault, reported before its value is looked at. -/
def acceptKey (distinct : Bool) (found : List RawAttribute) (start : Nat) (key : Bytes) :
    Except (Nat × AttributeFault) AttributeState :=
  if distinct then
    match previousPosition? found key with
    | some previous => .error (start, .repeated previous)
    | none => .ok (.beforeValue start key)
  else .ok (.beforeValue start key)

/-- One byte of the content at position `index`: the next state and the
attribute that the byte completes. -/
def attributeStep (distinct : Bool) (found : List RawAttribute) (index : Nat)
    (state : AttributeState) (b : UInt8) :
    Except (Nat × AttributeFault) (AttributeState × Option RawAttribute) :=
  match state with
  | .gap =>
      if isSpace b then .ok (.gap, none) else .ok (.key index [b], none)
  | .key start name =>
      if b == equals then
        (acceptKey distinct found start name.reverse).map fun s => (s, none)
      else if isSpace b then .ok (.afterKey start name.reverse, none)
      else .ok (.key start (b :: name), none)
  | .afterKey start name =>
      if b == equals then (acceptKey distinct found start name).map fun s => (s, none)
      else if isSpace b then .ok (.afterKey start name, none)
      else .error (index, .missingEquals)
  | .beforeValue start name =>
      if b == doubleQuote || b == apostrophe then .ok (.value start name b [], none)
      else if isSpace b then .ok (.beforeValue start name, none)
      else .error (index, .unquotedValue)
  | .value start name quote raw =>
      if b == quote then .ok (.gap, some ⟨start, name, raw.reverse⟩)
      else .ok (.value start name quote (b :: raw), none)

def scanFrom (distinct : Bool) (index : Nat) (state : AttributeState)
    (found : List RawAttribute) : Bytes -> AttributeScan
  | [] => ⟨found.reverse, state.unfinished.map fun fault => (index, fault)⟩
  | b :: rest =>
      match attributeStep distinct found index state b with
      | .error fault => ⟨found.reverse, some fault⟩
      | .ok (state, none) => scanFrom distinct (index + 1) state found rest
      | .ok (state, some a) =>
          scanFrom distinct (index + 1) state (a :: found) rest

def tagName (content : Bytes) : Bytes :=
  content.takeWhile fun b => !isSpace b

def scanAttributes (distinct : Bool) (content : Bytes) : AttributeScan :=
  let n := (tagName content).length
  scanFrom distinct n .gap [] (content.drop n)

end Markup
end FlowConfig
