import FlowConfig.Markup.Reader

/-!
# Transcripts

What a text says when nobody listens to its reading: tags with their names
resolved, decoded text, and the markup that leaves no trace in a document.  The
events end at the end of the text or at the first fault; a fault never takes back
the events before it.
-/

namespace FlowConfig
namespace Markup

inductive Event where
  | startTag (tag : Tag)
  | emptyTag (tag : Tag)
  | endTag
  | text (content : String)
  | cdata (content : String)
  | instruction
  | comment
  | doctype
deriving DecidableEq, Repr

/-!
# Decoding of tags
-/

def decodeElementName (scope : Scope) (raw : Bytes) :
    Except Fault (String × Option String) := do
  let (label, localPart) := splitName raw
  let name ← decodeName localPart
  match scope.resolve label with
  | .unbound => .ok (name, none)
  | .bound uri => do
      let uri ← decodeName uri
      .ok (name, some uri)
  | .unknownPrefix label => .error (.unboundElement (Utf8.decodeLossy label) name)

def decodeAttributeKey (scope : Scope) (element : String) (raw : Bytes) :
    Except Fault String := do
  let (label, localPart) := splitName raw
  let name ← decodeName localPart
  match scope.resolveAttribute label with
  | .unbound => .ok name
  | .bound uri => do
      let uri ← decodeName uri
      .ok (expandedName uri name)
  | .unknownPrefix label => .error (.unboundAttribute (Utf8.decodeLossy label) name element)

/-- The attributes of an element from left to right; declarations are left
out, and `before` holds the decoded ones, latest first. -/
def decodeAttributes (scope : Scope) (element : String)
    (before : List (String × String)) : List RawAttribute ->
    Except Fault (List (String × String))
  | [] => .ok before.reverse
  | a :: rest =>
      if (declaration? a.key).isSome then decodeAttributes scope element before rest
      else do
        let key ← decodeAttributeKey scope element a.key
        let value ← decodeText a.value
        if before.any (fun (k, _) => k == key) then .error (.repeatedAttribute key element)
        else decodeAttributes scope element ((key, value) :: before) rest

def decodeTag (scope : Scope) (content : Bytes) : Except Fault Tag := do
  let (name, uri) ← decodeElementName scope (tagName content)
  let scan := scanAttributes true content
  let attributes ← decodeAttributes scope name [] scan.attributes
  match scan.fault with
  | none => .ok ⟨name, uri, attributes⟩
  | some (position, fault) => .error (.attribute position fault)

/-!
# One piece after another
-/

def readEnd (state : ReaderState) (content : Bytes) :
    Except Fault (Event × ReaderState) :=
  let name := endName content
  match state.opened with
  | [] => .error (.unmatchedEnd (showName name))
  | innermost :: opened =>
      if innermost.name == name then .ok (.endTag, ⟨opened, innermost.outer⟩)
      else .error (.mismatchedEnd (showName innermost.name) (showName name))

def readEvent (state : ReaderState) : Piece -> Except Fault (Event × ReaderState)
  | .text raw => do
      let content ← decodeText raw
      .ok (.text content, state)
  | .startTag content => do
      let scope ← enterScope state.scope content
      let tag ← decodeTag scope content
      .ok (.startTag tag, ⟨⟨tagName content, state.scope⟩ :: state.opened, scope⟩)
  | .emptyTag content => do
      let scope ← enterScope state.scope content
      let tag ← decodeTag scope content
      .ok (.emptyTag tag, state)
  | .endTag content => readEnd state content
  | .cdata raw => do
      let content ← decodeCdata raw
      .ok (.cdata content, state)
  | .instruction _ => .ok (.instruction, state)
  | .comment _ => .ok (.comment, state)
  | .doctype _ => .ok (.doctype, state)

/-- The events of a text, and the fault that ended reading, if one did. -/
structure Transcript where
  events : List (Located Event)
  fault : Option (Located Fault)
deriving Repr

/-- Reads on at byte `offset`, with the events before it latest first. -/
def transcribeFrom (offset : Nat) (state : ReaderState)
    (before : List (Located Event)) (bytes : Bytes) : Transcript :=
  match bytes with
  | [] => ⟨before.reverse, none⟩
  | b :: rest =>
      match readPiece b rest with
      | .error fault =>
          let fault := Fault.piece fault
          ⟨before.reverse, some ⟨fault.offsetFrom offset, fault⟩⟩
      | .ok piece =>
          match readEvent state piece with
          | .error fault => ⟨before.reverse, some ⟨fault.offsetFrom offset, fault⟩⟩
          | .ok (event, state) =>
              transcribeFrom (offset + piece.size) state (⟨offset, event⟩ :: before)
                (rest.drop (piece.size - 1))
termination_by bytes.length
decreasing_by simp only [List.length_drop, List.length_cons]; omega

def transcribe (bytes : Bytes) : Transcript :=
  transcribeFrom 0 ReaderState.initial [] (dropByteOrderMark bytes)

end Markup
end FlowConfig
