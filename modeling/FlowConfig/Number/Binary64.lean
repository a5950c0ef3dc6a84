import FlowConfig.Text.Numeral

/-!
# Double-precision numbers

Canvas coordinates are IEEE 754 doubles, kept here by their bits.  Reading a
decimal numeral rounds its exact value to the nearest double, a tie to the even
one; all of the arithmetic is on natural numbers.
-/

namespace FlowConfig

structure Binary64 where
  bits : UInt64
deriving DecidableEq, Repr, Inhabited

namespace Binary64

def zero : Binary64 := ⟨0⟩
def infinity : Binary64 := ⟨0x7FF0000000000000⟩
def notANumber : Binary64 := ⟨0x7FF8000000000000⟩

def isNaN (x : Binary64) : Bool :=
  0x7FF0000000000000 < x.bits &&& 0x7FFFFFFFFFFFFFFF

def withSign (negative : Bool) (x : Binary64) : Binary64 :=
  if negative then ⟨x.bits ||| 0x8000000000000000⟩ else x

/-!
# Rounding a quotient
-/

def roundHalfEven (num den : Nat) : Nat :=
  let q := num / den
  let r := num % den
  if den < 2 * r || (2 * r == den && q % 2 == 1) then q + 1 else q

/-- The quotient `num / den`, scaled by the power of two `2 ^ (-exponent)`. -/
def scaled (num den : Nat) (exponent : Int) : Nat × Nat :=
  match exponent with
  | .ofNat e => (num, den <<< e)
  | .negSucc e => (num <<< (e + 1), den)

def leadingExponent (num den : Nat) : Int :=
  let guess : Int := (num.log2 : Int) - (den.log2 : Int)
  let (n, d) := scaled num den guess
  if d ≤ n then guess else guess - 1

def leadingBit : Nat := 4503599627370496

/-- The double nearest to the quotient of two positive numbers. -/
def ofQuotient (num den : Nat) : Binary64 :=
  let exponent := max (leadingExponent num den - 52) (-1074)
  let (n, d) := scaled num den exponent
  let significand := roundHalfEven n d
  if significand < leadingBit then ⟨UInt64.ofNat significand⟩
  else
    let biased := (exponent + 1075).toNat
    let bits := biased * leadingBit + (significand - leadingBit)
    if bits < infinity.bits.toNat then ⟨UInt64.ofNat bits⟩ else infinity

def ofDecimal (digits : Nat) (exponent : Int) : Binary64 :=
  if digits = 0 then zero
  else
    match exponent with
    | .ofNat e => ofQuotient (digits * Nat.pow 10 e) 1
    | .negSucc e => ofQuotient digits (Nat.pow 10 (e + 1))

/-!
# Overflow of a scaled number

A number may also be formed by rounding its digits and its power of ten first
and rounding their product again.
-/

def roundWhole (n : Nat) : Nat :=
  if n < 2 * leadingBit then n
  else
    let unit := 1 <<< (n.log2 - 52)
    roundHalfEven n unit * unit

def overflowBound : Nat := (1 <<< 1024) - (1 <<< 970)

def maxPower : Nat := 308

def overflows (digits : Nat) (exponent : Int) : Bool :=
  match exponent with
  | .negSucc _ => false
  | .ofNat e =>
      if digits = 0 then false
      else if maxPower < e then true
      else overflowBound ≤ roundWhole digits * roundWhole (Nat.pow 10 e)

/-!
# Reading decimal numerals

An optional sign, then `inf`, `infinity` or `nan` in any case, or digits with an
optional point and an optional exponent.
-/

def lowerAscii (c : Char) : Char :=
  if 'A' ≤ c && c ≤ 'Z' then Char.ofNat (c.toNat + 32) else c

def digitValue (c : Char) : Nat :=
  c.toNat - '0'.toNat

/-- Digits read so far.  The latest ones are kept apart, so that a long row of
digits costs little arithmetic on large numbers. -/
structure Gathered where
  high : Nat
  unit : Nat
  low : Nat
deriving DecidableEq, Repr

namespace Gathered

def empty : Gathered := ⟨0, 1, 0⟩

def value (g : Gathered) : Nat :=
  g.high * g.unit + g.low

def push (g : Gathered) (c : Char) : Gathered :=
  if g.unit < 100000000000000000 then ⟨g.high, g.unit * 10, g.low * 10 + digitValue c⟩
  else ⟨g.value, 10, digitValue c⟩

end Gathered

def digitsValue (cs : List Char) : Nat :=
  (cs.foldl Gathered.push Gathered.empty).value

/-- The double nearest to a row of digits scaled by a power of ten.  Values far
outside the range are settled by the number of digits alone. -/
def ofDigits (digits : List Char) (exponent : Int) : Binary64 :=
  let significant := digits.dropWhile fun c => c == '0'
  let magnitude : Int := significant.length + exponent
  if significant.isEmpty then zero
  else if 400 < magnitude then infinity
  else if magnitude < -400 then zero
  else ofDecimal (digitsValue significant) exponent

def exponentBound : Nat := 65536

def exponentValue (cs : List Char) : Nat :=
  cs.foldl (fun n c => if n < exponentBound then n * 10 + digitValue c else n) 0

def splitSign (cs : List Char) : Bool × List Char :=
  match cs with
  | '-' :: rest => (true, rest)
  | '+' :: rest => (false, rest)
  | _ => (false, cs)

def readExponent (cs : List Char) : Option Int :=
  match cs with
  | [] => some 0
  | c :: rest =>
      if c = 'e' ∨ c = 'E' then
        let (negative, digits) := splitSign rest
        if !digits.isEmpty && digits.all Text.isAsciiDigit then
          let value : Int := exponentValue digits
          some (if negative then -value else value)
        else none
      else none

def readUnsigned (cs : List Char) : Option Binary64 :=
  let whole := cs.takeWhile Text.isAsciiDigit
  let rest := cs.dropWhile Text.isAsciiDigit
  let (fraction, rest) :=
    match rest with
    | '.' :: after => (after.takeWhile Text.isAsciiDigit, after.dropWhile Text.isAsciiDigit)
    | _ => ([], rest)
  if whole.isEmpty && fraction.isEmpty then none
  else
    (readExponent rest).map fun exponent =>
      ofDigits (whole ++ fraction) (exponent - fraction.length)

def read (cs : List Char) : Option Binary64 :=
  let (negative, rest) := splitSign cs
  let word := String.ofList (rest.map lowerAscii)
  if word = "inf" ∨ word = "infinity" then some (withSign negative infinity)
  else if word = "nan" then some notANumber
  else (readUnsigned rest).map (withSign negative)

end Binary64
end FlowConfig
