import FlowConfig.Markup.Piece
import FlowConfig.Markup.Reference
import FlowConfig.Markup.Scope

/-!
# The markup reader

The reader goes from piece to piece and keeps the names of the open elements, so
every end tag it comes to closes the start tag it belongs to.  What a piece holds
is decoded apart from that, with the namespaces in force there.
-/

namespace FlowConfig
namespace Markup

structure Located (A : Type) where
  offset : Nat
  value : A
deriving DecidableEq, Repr

/-- A start tag.  Attribute keys are local names, or `{uri}name` in a
namespace. -/
structure Tag where
  name : String
  uri : Option String
  attributes : List (String × String)
deriving DecidableEq, Repr

/-!
# Faults
-/

inductive Fault where
  | piece (fault : PieceFault)
  | unmatchedEnd (name : String)
  | mismatchedEnd (expected found : String)
  | undecodable (malformed : Utf8.Malformed)
  | malformedCdata (malformed : Utf8.Malformed)
  | malformedName (malformed : Utf8.Malformed)
  | reference (fault : ReferenceFault)
  | attribute (position : Nat) (fault : AttributeFault)
  | binding (fault : BindingFault)
  | unboundElement (label name : String)
  | unboundAttribute (label name element : String)
  | repeatedAttribute (key element : String)
deriving DecidableEq, Repr

def Fault.message : Fault -> String
  | .piece fault => fault.message
  | .unmatchedEnd name =>
      s!"ill-formed document: close tag `</{name}>` does not match any open tag"
  | .mismatchedEnd expected found =>
      s!"ill-formed document: expected `</{expected}>`, but `</{found}>` was found"
  | .undecodable malformed => "cannot decode input using UTF-8: " ++ malformed.message
  | .malformedCdata malformed => malformed.message
  | .malformedName malformed => "Invalid UTF-8 in name: " ++ malformed.message
  | .reference fault => fault.message
  | .attribute position fault => s!"position {position}: {fault.message}"
  | .binding fault => fault.message
  | .unboundElement label name =>
      s!"The prefix \"{label}\" for element \"{name}\" is not bound"
  | .unboundAttribute label name element =>
      s!"The prefix \"{label}\" for attribute \"{name}\" on element \"{element}\" is not bound"
  | .repeatedAttribute key element =>
      s!"Attribute \"{key}\" was already specified for element \"{element}\""

/-- Where a fault in a piece at `offset` is located.  Bindings are reported for
the document as a whole. -/
def Fault.offsetFrom (offset : Nat) : Fault -> Nat
  | .piece fault => offset + fault.shift
  | .binding _ => 0
  | _ => offset

/-!
# Decoding
-/

def decodeName (raw : Bytes) : Except Fault String :=
  match Utf8.decodeString raw with
  | .ok name => .ok name
  | .error malformed => .error (.malformedName malformed)

def decodeText (raw : Bytes) : Except Fault String :=
  match Utf8.decode raw with
  | .error malformed => .error (.undecodable malformed)
  | .ok cs =>
      match unescape cs with
      | .ok cs => .ok (String.ofList cs)
      | .error fault => .error (.reference fault)

def decodeCdata (raw : Bytes) : Except Fault String :=
  match Utf8.decodeString raw with
  | .ok content => .ok content
  | .error malformed => .error (.malformedCdata malformed)

def expandedName (uri name : String) : String :=
  "\x7b" ++ uri ++ "\x7d" ++ name

/-!
# One piece after another
-/

structure OpenName where
  name : Bytes
  outer : Scope
deriving Repr

/-- What reading remembers: the open elements, innermost first, and the scope. -/
structure ReaderState where
  opened : List OpenName
  scope : Scope
deriving Repr

def ReaderState.initial : ReaderState :=
  ⟨[], Scope.initial⟩

def enterScope (scope : Scope) (content : Bytes) : Except Fault Scope :=
  match scope.enter content with
  | .ok inner => .ok inner
  | .error fault => .error (.binding fault)

def dropTrailingSpace (bytes : Bytes) : Bytes :=
  (bytes.reverse.dropWhile Ascii.isSpace).reverse

/-- The name in an end tag: spaces after it are dropped, unless there is nothing
but spaces. -/
def endName (content : Bytes) : Bytes :=
  if content.all Ascii.isSpace then content else dropTrailingSpace content

def showName (raw : Bytes) : String :=
  match Utf8.decodeString raw with
  | .ok name => name
  | .error _ => ""

def closeName (state : ReaderState) (name : Bytes) : Except Fault ReaderState :=
  match state.opened with
  | [] => .error (.unmatchedEnd (showName name))
  | innermost :: opened =>
      if innermost.name == name then .ok ⟨opened, innermost.outer⟩
      else .error (.mismatchedEnd (showName innermost.name) (showName name))

/-- The scope that a piece is decoded in, and what is remembered after it. -/
def ReaderState.pass (state : ReaderState) : Piece -> Except Fault (Scope × ReaderState)
  | .startTag content => do
      let scope ← enterScope state.scope content
      .ok (scope, ⟨⟨tagName content, state.scope⟩ :: state.opened, scope⟩)
  | .emptyTag content => do
      let scope ← enterScope state.scope content
      .ok (scope, state)
  | .endTag content => do
      let next ← closeName state (endName content)
      .ok (state.scope, next)
  | .text _ | .cdata _ | .instruction _ | .comment _ | .doctype _ => .ok (state.scope, state)

/-- The next piece, which starts with the byte `b` at `offset`, the scope it is decoded
in, and what is remembered after it. -/
def ReaderState.next (state : ReaderState) (offset : Nat) (b : UInt8) (rest : Bytes) :
    Except (Located Fault) (Piece × Scope × ReaderState) :=
  match readPiece b rest with
  | .error fault =>
      let fault := Fault.piece fault
      .error ⟨fault.offsetFrom offset, fault⟩
  | .ok piece =>
      match state.pass piece with
      | .error fault => .error ⟨fault.offsetFrom offset, fault⟩
      | .ok (scope, after) => .ok (piece, scope, after)

def byteOrderMark : Bytes := [0xEF, 0xBB, 0xBF]

def dropByteOrderMark (bytes : Bytes) : Bytes :=
  if byteOrderMark.isPrefixOf bytes then bytes.drop 3 else bytes

end Markup
end FlowConfig
