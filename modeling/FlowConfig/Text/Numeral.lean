import FlowConfig.Text.Blank

/-!
# Numerals

Whole numbers written in digits.  The readers go from left to right, so of two
faults the first one met is reported; the bound is checked after every digit.
-/

namespace FlowConfig
namespace Text

def isAsciiDigit (c : Char) : Bool :=
  '0' ≤ c && c ≤ '9'

def digit? (radix : Nat) (c : Char) : Option Nat :=
  let value :=
    if isAsciiDigit c then some (c.toNat - '0'.toNat)
    else if 'a' ≤ c && c ≤ 'z' then some (c.toNat - 'a'.toNat + 10)
    else if 'A' ≤ c && c ≤ 'Z' then some (c.toNat - 'A'.toNat + 10)
    else none
  value.filter (fun d => d < radix)

inductive NumeralFault where
  | empty
  | badDigit
  | tooLarge
deriving DecidableEq, Repr

def NumeralFault.message : NumeralFault -> String
  | .empty => "cannot parse integer from empty string"
  | .badDigit => "invalid digit found in string"
  | .tooLarge => "number too large to fit in target type"

def readDigits (radix bound : Nat) : Nat -> List Char -> Except NumeralFault Nat
  | value, [] => .ok value
  | value, c :: rest =>
      match digit? radix c with
      | none => .error .badDigit
      | some d =>
          if value * radix + d < bound then readDigits radix bound (value * radix + d) rest
          else .error .tooLarge

def readNumeral (radix bound : Nat) (cs : List Char) : Except NumeralFault Nat :=
  match cs with
  | [] => .error .empty
  | _ => readDigits radix bound 0 cs

/-!
# Machine integers

A leading plus sign is allowed, a minus sign only where the type has negative
values.  Surrounding blanks are not.
-/

def readUInt32 (cs : List Char) : Option UInt32 :=
  let digits :=
    match cs with
    | '+' :: rest => rest
    | _ => cs
  match readNumeral 10 UInt32.size digits with
  | .ok n => some (UInt32.ofNat n)
  | .error _ => none

def int64Bound : Nat := 9223372036854775808

def readInt64 (cs : List Char) : Option Int :=
  match cs with
  | '-' :: rest =>
      match readNumeral 10 (int64Bound + 1) rest with
      | .ok n => some (-(n : Int))
      | .error _ => none
  | '+' :: rest =>
      match readNumeral 10 int64Bound rest with
      | .ok n => some n
      | .error _ => none
  | _ =>
      match readNumeral 10 int64Bound cs with
      | .ok n => some n
      | .error _ => none

def splitOnce (mark : Char) : List Char -> Option (List Char × List Char)
  | [] => none
  | c :: rest =>
      if c = mark then some ([], rest)
      else (splitOnce mark rest).map fun (before, after) => (c :: before, after)

end Text
end FlowConfig
