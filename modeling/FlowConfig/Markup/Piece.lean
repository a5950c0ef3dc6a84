import FlowConfig.Bytes

/-!
# Pieces of markup

A document text is cut into pieces: runs of text, tags, comments, processing
instructions, CDATA sections and document type declarations.  Cutting needs no
memory of earlier pieces.  Each piece knows the bytes it was read from.
-/

namespace FlowConfig
namespace Markup

open Ascii

inductive Piece where
  | text (raw : Bytes)
  | startTag (content : Bytes)
  | emptyTag (content : Bytes)
  | endTag (content : Bytes)
  | instruction (content : Bytes)
  | comment (content : Bytes)
  | cdata (content : Bytes)
  | doctype (content : Bytes)
deriving DecidableEq, Repr

def Piece.size : Piece -> Nat
  | .text raw => raw.length
  | .startTag content => content.length + 2
  | .emptyTag content => content.length + 3
  | .endTag content => content.length + 3
  | .instruction content => content.length + 4
  | .comment content => content.length + 7
  | .cdata content => content.length + 12
  | .doctype content => content.length + 10

inductive PieceFault where
  | tagNotClosed
  | instructionNotClosed
  | commentNotClosed
  | cdataNotClosed
  | doctypeNotClosed
  | doctypeWithoutName (bodyLength : Nat)
  | unknownMarkup
deriving DecidableEq, Repr

def PieceFault.message : PieceFault -> String
  | .tagNotClosed =>
      "syntax error: tag not closed: `>` not found before end of input"
  | .instructionNotClosed =>
      "syntax error: processing instruction or xml declaration not closed: "
        ++ "`?>` not found before end of input"
  | .commentNotClosed =>
      "syntax error: comment not closed: `-->` not found before end of input"
  | .cdataNotClosed =>
      "syntax error: CDATA not closed: `]]>` not found before end of input"
  | .doctypeNotClosed =>
      "syntax error: DOCTYPE not closed: `>` not found before end of input"
  | .doctypeWithoutName _ =>
      "ill-formed document: `<!DOCTYPE>` declaration does not contain a name of a document type"
  | .unknownMarkup =>
      "syntax error: unknown or missed symbol in markup"

/-- How far behind the start of the piece a fault is located: a declaration
without a name is found out at the bracket that closes it. -/
def PieceFault.shift : PieceFault -> Nat
  | .doctypeWithoutName bodyLength => bodyLength + 2
  | _ => 0

/-!
# Where a piece ends
-/

/-- The number of bytes before the first closing bracket outside quotes, added
to `n`.  Inside quotes only the same quote is looked for. -/
def tagLength? : Option UInt8 -> Nat -> Bytes -> Option Nat
  | _, _, [] => none
  | some quote, n, b :: rest =>
      tagLength? (if b == quote then none else some quote) (n + 1) rest
  | none, n, b :: rest =>
      if b == greaterThan then some n
      else if b == doubleQuote || b == apostrophe then tagLength? (some b) (n + 1) rest
      else tagLength? none (n + 1) rest

def lengthBefore? (mark : Bytes) : Nat -> Bytes -> Option Nat
  | _, [] => none
  | n, b :: rest =>
      if mark.isPrefixOf (b :: rest) then some n else lengthBefore? mark (n + 1) rest

/-- The number of bytes before the closing bracket that balances, where each
opening bracket needs one of its own. -/
def balancedLength? : Nat -> Nat -> Bytes -> Option Nat
  | _, _, [] => none
  | depth, n, b :: rest =>
      if b == lessThan then balancedLength? (depth + 1) (n + 1) rest
      else if b == greaterThan then
        match depth with
        | 0 => some n
        | depth + 1 => balancedLength? depth (n + 1) rest
      else balancedLength? depth (n + 1) rest

/-!
# Kinds of markup
-/

def commentStart : Bytes := [minus, minus]
def commentEnd : Bytes := [minus, minus, greaterThan]
def cdataStart : Bytes := Bytes.ofString "[CDATA["
def cdataEnd : Bytes := [closeBracket, closeBracket, greaterThan]
def instructionEnd : Bytes := [questionMark, greaterThan]
def doctypeKeyword : Bytes := Bytes.ofString "DOCTYPE"

def upperAscii (b : UInt8) : UInt8 :=
  if 97 ≤ b && b ≤ 122 then b - 32 else b

def readComment (rest : Bytes) : Except PieceFault Piece :=
  if commentStart.isPrefixOf rest then
    match lengthBefore? commentEnd 0 (rest.drop 2) with
    | some n => .ok (.comment ((rest.drop 2).take n))
    | none => .error .commentNotClosed
  else .error .commentNotClosed

def readCdata (rest : Bytes) : Except PieceFault Piece :=
  if cdataStart.isPrefixOf rest then
    match lengthBefore? cdataEnd 0 (rest.drop 7) with
    | some n => .ok (.cdata ((rest.drop 7).take n))
    | none => .error .cdataNotClosed
  else .error .cdataNotClosed

def readDoctype (rest : Bytes) : Except PieceFault Piece :=
  match balancedLength? 0 0 rest with
  | none => .error .doctypeNotClosed
  | some n =>
      let body := rest.take n
      if doctypeKeyword.isPrefixOf (body.map upperAscii) then
        let content := body.drop 7
        if content.all isSpace then .error (.doctypeWithoutName n)
        else .ok (.doctype content)
      else .error .doctypeNotClosed

def readDeclaration (rest : Bytes) : Except PieceFault Piece :=
  match rest with
  | [] => .error .unknownMarkup
  | b :: _ =>
      if b == minus then readComment rest
      else if b == openBracket then readCdata rest
      else if upperAscii b == 68 then readDoctype rest
      else .error .unknownMarkup

/-- What follows `<?`; at least one byte stands before the end mark. -/
def readInstruction (rest : Bytes) : Except PieceFault Piece :=
  match rest with
  | greaterThan :: _ => .error .instructionNotClosed
  | _ =>
      match lengthBefore? instructionEnd 0 rest with
      | some n => .ok (.instruction (rest.take n))
      | none => .error .instructionNotClosed

def readEndTag (rest : Bytes) : Except PieceFault Piece :=
  match tagLength? none 0 rest with
  | some n => .ok (.endTag (rest.take n))
  | none => .error .tagNotClosed

def readStartTag (rest : Bytes) : Except PieceFault Piece :=
  match tagLength? none 0 rest with
  | none => .error .tagNotClosed
  | some n =>
      let content := rest.take n
      if content.getLast? == some slash then .ok (.emptyTag content.dropLast)
      else .ok (.startTag content)

def readMarkup (rest : Bytes) : Except PieceFault Piece :=
  match rest with
  | bang :: rest => readDeclaration rest
  | slash :: rest => readEndTag rest
  | questionMark :: rest => readInstruction rest
  | _ => readStartTag rest

def readPiece (b : UInt8) (rest : Bytes) : Except PieceFault Piece :=
  if b == lessThan then readMarkup rest
  else .ok (.text (b :: rest.takeWhile (fun c => c != lessThan)))

end Markup
end FlowConfig
