import FlowConfig.Text.Numeral
import FlowConfig.Text.Utf8

/-!
# Character references

Text and attribute values name characters by references: five entities, and
code points in decimal or hexadecimal digits.  Positions in faults count bytes
of the decoded run.
-/

namespace FlowConfig
namespace Markup

inductive ReferenceFault where
  | unterminated (start stop : Nat)
  | unknownEntity (start stop : Nat) (name : String)
  | signed
  | numeral (fault : Text.NumeralFault)
  | nul
  | invalidCodePoint (n : Nat)
deriving DecidableEq, Repr

def ReferenceFault.message : ReferenceFault -> String
  | .unterminated start stop =>
      s!"Error while escaping character at range {start}..{stop}: Cannot find ';' after '&'"
  | .unknownEntity start stop name =>
      s!"at {start}..{stop}: unrecognized entity `{name}`"
  | .signed => "invalid character reference: unexpected number sign"
  | .numeral fault => "invalid character reference: " ++ fault.message
  | .nul => "invalid character reference: 0x0 character is not permitted in XML"
  | .invalidCodePoint n => s!"invalid character reference: `{n}` is not a valid codepoint"

def entity? (name : List Char) : Option Char :=
  if name = ['l', 't'] then some '<'
  else if name = ['g', 't'] then some '>'
  else if name = ['a', 'm', 'p'] then some '&'
  else if name = ['a', 'p', 'o', 's'] then some '\''
  else if name = ['q', 'u', 'o', 't'] then some '"'
  else none

def readCodePoint (radix : Nat) (digits : List Char) : Except ReferenceFault Char :=
  match digits with
  | '+' :: _ => .error .signed
  | '-' :: _ => .error .signed
  | _ =>
      match Text.readNumeral radix UInt32.size digits with
      | .error fault => .error (.numeral fault)
      | .ok n =>
          if n = 0 then .error .nul
          else if n.isValidChar then .ok (Char.ofNat n)
          else .error (.invalidCodePoint n)

def readReference (start : Nat) (body : List Char) : Except ReferenceFault Char :=
  match body with
  | '#' :: 'x' :: digits => readCodePoint 16 digits
  | '#' :: digits => readCodePoint 10 digits
  | _ =>
      match entity? body with
      | some c => .ok c
      | none =>
          .error (.unknownEntity (start + 1) (start + 1 + Utf8.width body) (String.ofList body))

/-- A reference being read: where its ampersand stands, and what follows that
so far, latest first. -/
structure Pending where
  start : Nat
  body : List Char

def unescapeFrom (index : Nat) (pending : Option Pending) (before : List Char) :
    List Char -> Except ReferenceFault (List Char)
  | [] =>
      match pending with
      | none => .ok before.reverse
      | some p => .error (.unterminated p.start index)
  | c :: rest =>
      match pending with
      | none =>
          if c = '&' then unescapeFrom (index + 1) (some ⟨index, []⟩) before rest
          else unescapeFrom (index + c.utf8Size) none (c :: before) rest
      | some p =>
          if c = ';' then
            match readReference p.start p.body.reverse with
            | .ok d => unescapeFrom (index + 1) none (d :: before) rest
            | .error fault => .error fault
          else if c = '&' then
            .error (.unterminated p.start (index + Utf8.width (c :: rest)))
          else unescapeFrom (index + c.utf8Size) (some { p with body := c :: p.body }) before rest

def unescape (cs : List Char) : Except ReferenceFault (List Char) :=
  unescapeFrom 0 none [] cs

end Markup
end FlowConfig
