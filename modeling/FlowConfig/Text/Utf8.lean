import FlowConfig.Bytes

/-!
# UTF-8

Decoding with an exact account of what is malformed: the index where the
sequence at fault begins, and how many of its bytes could still have begun a
character.  A sequence that is merely cut short by the end of the text has no
such length.
-/

namespace FlowConfig
namespace Utf8

/-- Where a text stops being UTF-8; no length when the text ends too early. -/
structure Malformed where
  index : Nat
  length : Option Nat
deriving DecidableEq, Repr

def Malformed.message (m : Malformed) : String :=
  match m.length with
  | some n => s!"invalid utf-8 sequence of {n} bytes from index {m.index}"
  | none => s!"incomplete utf-8 byte sequence from index {m.index}"

/-!
# One character

The first byte fixes how many bytes follow and the range of the second one,
which excludes overlong forms, surrogates and values past the last character.
-/

/-- What a first byte announces: the bytes that follow and the range of the
first of them. -/
structure Lead where
  tails : Nat
  low : UInt8
  high : UInt8
deriving DecidableEq, Repr

def lead? (b : UInt8) : Option Lead :=
  if b < 0xC2 then none
  else if b < 0xE0 then some ⟨1, 0x80, 0xBF⟩
  else if b == 0xE0 then some ⟨2, 0xA0, 0xBF⟩
  else if b == 0xED then some ⟨2, 0x80, 0x9F⟩
  else if b < 0xF0 then some ⟨2, 0x80, 0xBF⟩
  else if b == 0xF0 then some ⟨3, 0x90, 0xBF⟩
  else if b < 0xF4 then some ⟨3, 0x80, 0xBF⟩
  else if b == 0xF4 then some ⟨3, 0x80, 0x8F⟩
  else none

def isTail (b : UInt8) : Bool :=
  0x80 ≤ b && b ≤ 0xBF

/-- A first byte read with the bytes after it: a character and the number of
further bytes it takes, or the length of the malformed sequence. -/
inductive Reading where
  | char (c : Char) (tails : Nat)
  | malformed (length : Option Nat)
deriving DecidableEq, Repr

def low6 (b : UInt8) : Nat :=
  b.toNat % 64

def readSequence (a : UInt8) (rest : Bytes) : Reading :=
  match lead? a with
  | none => .malformed (some 1)
  | some l =>
      match rest with
      | [] => .malformed none
      | b :: rest =>
          if l.low ≤ b && b ≤ l.high then
            if l.tails == 1 then
              .char (Char.ofNat (a.toNat % 32 * 64 + low6 b)) 1
            else
              match rest with
              | [] => .malformed none
              | c :: rest =>
                  if isTail c then
                    if l.tails == 2 then
                      .char (Char.ofNat ((a.toNat % 16 * 64 + low6 b) * 64 + low6 c)) 2
                    else
                      match rest with
                      | [] => .malformed none
                      | d :: _ =>
                          if isTail d then
                            .char (Char.ofNat
                              (((a.toNat % 8 * 64 + low6 b) * 64 + low6 c) * 64 + low6 d)) 3
                          else .malformed (some 3)
                  else .malformed (some 2)
          else .malformed (some 1)

def readChar (a : UInt8) (rest : Bytes) : Reading :=
  if a < 0x80 then .char (Char.ofNat a.toNat) 0 else readSequence a rest

/-!
# Whole texts
-/

/-- Decodes from `index` on, with the characters before it latest first. -/
def decodeFrom (index : Nat) (before : List Char) (bytes : Bytes) :
    Except Malformed (List Char) :=
  match bytes with
  | [] => .ok before.reverse
  | a :: rest =>
      match readChar a rest with
      | .char c tails => decodeFrom (index + 1 + tails) (c :: before) (rest.drop tails)
      | .malformed length => .error ⟨index, length⟩
termination_by bytes.length
decreasing_by simp only [List.length_drop, List.length_cons]; omega

def decode (bytes : Bytes) : Except Malformed (List Char) :=
  decodeFrom 0 [] bytes

def decodeString (bytes : Bytes) : Except Malformed String :=
  (decode bytes).map String.ofList

def replacement : Char := '\uFFFD'

def decodeLossyFrom (before : List Char) (bytes : Bytes) : List Char :=
  match bytes with
  | [] => before.reverse
  | a :: rest =>
      match readChar a rest with
      | .char c tails => decodeLossyFrom (c :: before) (rest.drop tails)
      | .malformed (some length) =>
          decodeLossyFrom (replacement :: before) (rest.drop (length - 1))
      | .malformed none => (replacement :: before).reverse
termination_by bytes.length
decreasing_by all_goals simp only [List.length_drop, List.length_cons]; omega

def decodeLossy (bytes : Bytes) : String :=
  String.ofList (decodeLossyFrom [] bytes)

def encode (cs : List Char) : Bytes :=
  cs.flatMap String.utf8EncodeChar

def width (cs : List Char) : Nat :=
  cs.foldl (fun n c => n + c.utf8Size) 0

end Utf8
end FlowConfig
