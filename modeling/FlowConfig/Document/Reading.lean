import FlowConfig.Document
import FlowConfig.Document.Builder
import FlowConfig.Reporting
import FlowConfig.Schema.Flow
import FlowConfig.Schema.Validation

/-!
# Reading a document

The pieces of a text are put together to a tree as they are read, and the tree is
validated against the flow configuration schema.  Every issue goes to the handler
where it is met.  An empty text holds no document.
-/

namespace FlowConfig
namespace Document

open Markup (Located Piece RawAttribute AttributeFault ReaderState Scope)
open Reporting

section

variable {State : Type} (handler : Handler State) (input : Bytes)

/-!
# Start tags

Names, namespaces and values are decoded one after the other, and the first that
cannot be decoded ends reading at the offset of the tag.
-/

def readElementName (offset : Nat) (scope : Scope) (raw : Bytes) :
    Reporting State (String × Option String) := do
  let (label, localPart) := Markup.splitName raw
  let name ← orFatal handler input Markup.Fault.message offset (Markup.decodeName localPart)
  match scope.resolve label with
  | .unbound => return (name, none)
  | .bound uri => do
      let uri ← orFatal handler input Markup.Fault.message offset (Markup.decodeName uri)
      return (name, some uri)
  | .unknownPrefix label =>
      let fault := Markup.Fault.unboundElement (Utf8.decodeLossy label) name
      fatal handler input fault.message offset

def readAttributeKey (offset : Nat) (scope : Scope) (element : String) (raw : Bytes) :
    Reporting State String := do
  let (label, localPart) := Markup.splitName raw
  let name ← orFatal handler input Markup.Fault.message offset (Markup.decodeName localPart)
  match scope.resolveAttribute label with
  | .unbound => return name
  | .bound uri => do
      let uri ← orFatal handler input Markup.Fault.message offset (Markup.decodeName uri)
      return Markup.expandedName uri name
  | .unknownPrefix label =>
      let fault := Markup.Fault.unboundAttribute (Utf8.decodeLossy label) name element
      fatal handler input fault.message offset

/-- The attributes of an element from left to right, up to the end of the tag or the
fault behind them.  Declarations are left out, and `before` holds the decoded ones,
latest first. -/
def readAttributes (offset : Nat) (scope : Scope) (element : String)
    (fault : Option (Nat × AttributeFault)) (before : List (String × String)) :
    List RawAttribute -> Reporting State (List (String × String))
  | [] =>
      match fault with
      | none => return before.reverse
      | some (position, fault) =>
          fatal handler input (Markup.Fault.attribute position fault).message offset
  | a :: rest =>
      if (Markup.declaration? a.key).isSome then
        readAttributes offset scope element fault before rest
      else do
        let key ← readAttributeKey handler input offset scope element a.key
        let value ← orFatal handler input Markup.Fault.message offset (Markup.decodeText a.value)
        if before.any (fun (k, _) => k == key) then
          fatal handler input (Markup.Fault.repeatedAttribute key element).message offset
        else readAttributes offset scope element fault ((key, value) :: before) rest

def openElement (offset : Nat) (scope : Scope) (builder : Builder) (content : Bytes) :
    Reporting State Builder := do
  let (name, uri) ← readElementName handler input offset scope (Markup.tagName content)
  let scan := Markup.scanAttributes true content
  let attributes ← readAttributes handler input offset scope name scan.fault [] scan.attributes
  orFatal handler input StructureFault.message offset
    (builder.start ⟨name, uri, attributes⟩ offset)

/-!
# One piece after another
-/

def doctypeWarning (offset : Nat) : Issue :=
  Issue.locatedAt .warning "DOCTYPE declaration ignored" input offset

/-- What a piece adds to the document.  A document type declaration is reported and
otherwise ignored. -/
def readPart (offset : Nat) (scope : Scope) (builder : Builder) :
    Piece -> Reporting State Builder
  | .startTag content => openElement handler input offset scope builder content
  | .emptyTag content => do
      let builder ← openElement handler input offset scope builder content
      orFatal handler input StructureFault.message offset builder.close
  | .endTag _ => orFatal handler input StructureFault.message offset builder.close
  | .text raw => do
      let content ← orFatal handler input Markup.Fault.message offset (Markup.decodeText raw)
      orFatal handler input StructureFault.message offset (builder.text content)
  | .cdata raw => do
      let content ← orFatal handler input Markup.Fault.message offset (Markup.decodeCdata raw)
      orFatal handler input StructureFault.message offset (builder.text content)
  | .doctype _ => do
      warn handler (doctypeWarning input offset)
      return builder
  | .instruction _ => return builder
  | .comment _ => return builder

def readFrom (offset : Nat) (reader : ReaderState) (builder : Builder) (bytes : Bytes) :
    Reporting State Element :=
  match bytes with
  | [] => orFatal handler input StructureFault.message input.length builder.finish
  | b :: rest =>
      match reader.next offset b rest with
      | .error fault => fatal handler input fault.value.message fault.offset
      | .ok (piece, scope, reader) => do
          let builder ← readPart handler input offset scope builder piece
          readFrom (offset + piece.size) reader builder (rest.drop (piece.size - 1))
termination_by bytes.length
decreasing_by simp only [List.length_drop, List.length_cons]; omega

def readRoot : Reporting State Element :=
  readFrom handler input 0 ReaderState.initial Builder.empty (Markup.dropByteOrderMark input)

/-!
# The whole text
-/

def schemaIssue (e : Element) (v : Violation) : Issue :=
  Issue.locatedAt .error v.message input e.origin.offset

def readValid : Reporting State (Option Document) :=
  if input.isEmpty then return none
  else do
    let root ← readRoot handler input
    match flowSchema.validate root with
    | .ok () => return some (ofRoot root)
    | .error (e, v) => abort handler (schemaIssue input e v)

end

section

variable {State : Type} (handler : Handler State) (state : State) (input : Bytes)

/-- The tree of a well-formed text, or the issue that ended reading. -/
def readTree : State × Except Issue Element :=
  runFrom state (readRoot handler input)

def read : State × Except Issue (Option Document) :=
  runFrom state (readValid handler input)

end

/-- Reads a document when nobody listens to the issues. -/
def parse (input : Bytes) : Except Issue (Option Document) :=
  (read Handler.silent () input).2

end Document
end FlowConfig
