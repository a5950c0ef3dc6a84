import FlowConfig.Json.Text
import FlowConfig.Number.Binary64

/-!
# JSON scalars

Words, numbers and strings.  A scalar is either looked at in full, when its
value matters or must at least be one that could be held, or it is skipped.
-/

namespace FlowConfig
namespace Json

/-- How closely a value is looked at. -/
inductive Scrutiny where
  | full
  | loose
deriving DecidableEq, Repr

/-- The fault where a number lacks a digit.  Only a full reading tells a number
that is cut short from one that is wrong. -/
def Scrutiny.missingDigit : Scrutiny -> Bytes -> Fault
  | .full, [] => .ended
  | _, _ => .malformed

/-!
# Numbers

The parts of a number as written.  A fraction or an exponent has at least one
digit, and only a lone zero begins with zero.
-/

structure Numeral where
  negative : Bool
  whole : Bytes
  fraction : Bytes
  exponent : Option Int
deriving DecidableEq, Repr

def digitsValue (digits : Bytes) : Nat :=
  digits.foldl (fun n b => n * 10 + (b.toNat - Ascii.zero.toNat)) 0

/-- An exponent that has come to this takes no further digits; no text is long
enough to make up for it. -/
def exponentBound : Nat := UInt32.size

def exponentValue (digits : Bytes) : Nat :=
  digits.foldl (fun n b =>
    if n < exponentBound then n * 10 + (b.toNat - Ascii.zero.toNat) else n) 0

def scanDigits (s : Scrutiny) (input : Bytes) : Except Fault (Bytes × Bytes) :=
  let digits := input.takeWhile Ascii.isDigit
  let rest := input.dropWhile Ascii.isDigit
  if digits.isEmpty then .error (s.missingDigit rest) else .ok (digits, rest)

def scanSign (input : Bytes) : Bool × Bytes :=
  match input with
  | [] => (false, [])
  | b :: rest =>
      if b = Ascii.minus then (true, rest)
      else if b = Ascii.plus then (false, rest)
      else (false, input)

def scanWhole (s : Scrutiny) (input : Bytes) : Except Fault (Bytes × Bytes) :=
  match scanDigits s input with
  | .error fault => .error fault
  | .ok (digits, rest) =>
      if digits.head? = some Ascii.zero && digits.length ≠ 1 then .error .malformed
      else .ok (digits, rest)

def scanFraction (s : Scrutiny) (input : Bytes) : Except Fault (Bytes × Bytes) :=
  match input with
  | [] => .ok ([], [])
  | b :: rest => if b = Ascii.dot then scanDigits s rest else .ok ([], input)

def isExponentMark (b : UInt8) : Bool :=
  b == 101 || b == 69

def scanExponent (s : Scrutiny) (input : Bytes) : Except Fault (Option Int × Bytes) :=
  match input with
  | [] => .ok (none, [])
  | b :: rest =>
      if isExponentMark b then
        let (negative, rest) := scanSign rest
        match scanDigits s rest with
        | .error fault => .error fault
        | .ok (digits, rest) =>
            let value : Int := exponentValue digits
            .ok (some (if negative then -value else value), rest)
      else .ok (none, input)

def scanUnsigned (s : Scrutiny) (negative : Bool) (input : Bytes) :
    Except Fault (Numeral × Bytes) :=
  match scanWhole s input with
  | .error fault => .error fault
  | .ok (whole, rest) =>
      match scanFraction s rest with
      | .error fault => .error fault
      | .ok (fraction, rest) =>
          match scanExponent s rest with
          | .error fault => .error fault
          | .ok (exponent, rest) => .ok (⟨negative, whole, fraction, exponent⟩, rest)

def scanNumeral (s : Scrutiny) (input : Bytes) : Except Fault (Numeral × Bytes) :=
  match input with
  | [] => scanUnsigned s false []
  | b :: rest =>
      if b = Ascii.minus then scanUnsigned s true rest else scanUnsigned s false input

theorem length_of_scanDigits {s : Scrutiny} {input digits rest : Bytes}
    (h : scanDigits s input = .ok (digits, rest)) :
    rest.length < input.length := by
  have hsplit : (input.takeWhile Ascii.isDigit).length + (input.dropWhile Ascii.isDigit).length
      = input.length := by
    rw [← List.length_append, List.takeWhile_append_dropWhile]
  simp only [scanDigits] at h
  split at h
  · cases h
  · next hne =>
      simp only [Except.ok.injEq, Prod.mk.injEq] at h
      have hpos : 0 < (input.takeWhile Ascii.isDigit).length := by
        cases hdigits : input.takeWhile Ascii.isDigit with
        | nil => simp [hdigits] at hne
        | cons => simp
      rw [← h.right]
      omega

theorem length_scanSign_le (input : Bytes) : (scanSign input).2.length ≤ input.length := by
  unfold scanSign
  split
  · simp
  · split
    · simp
    · split <;> simp

theorem length_of_scanFraction {s : Scrutiny} {input digits rest : Bytes}
    (h : scanFraction s input = .ok (digits, rest)) :
    rest.length ≤ input.length := by
  unfold scanFraction at h
  split at h
  · simp only [Except.ok.injEq, Prod.mk.injEq] at h
    simp [← h.right]
  · split at h
    · have hlt := length_of_scanDigits h
      rw [List.length_cons]
      omega
    · simp only [Except.ok.injEq, Prod.mk.injEq] at h
      simp [← h.right]

theorem length_of_scanExponent {s : Scrutiny} {input rest : Bytes} {e : Option Int}
    (h : scanExponent s input = .ok (e, rest)) :
    rest.length ≤ input.length := by
  unfold scanExponent at h
  split at h
  · simp only [Except.ok.injEq, Prod.mk.injEq] at h
    simp [← h.right]
  · next tail =>
      split at h
      · have hsign := length_scanSign_le tail
        simp only at h
        split at h
        · cases h
        · next hdigits =>
            have hlt := length_of_scanDigits hdigits
            simp only [Except.ok.injEq, Prod.mk.injEq] at h
            rw [← h.right, List.length_cons]
            omega
      · simp only [Except.ok.injEq, Prod.mk.injEq] at h
        simp [← h.right]

theorem length_of_scanUnsigned {s : Scrutiny} {negative : Bool} {input rest : Bytes} {n : Numeral}
    (h : scanUnsigned s negative input = .ok (n, rest)) :
    rest.length < input.length := by
  unfold scanUnsigned at h
  split at h
  · cases h
  · next hwhole =>
      split at h
      · cases h
      · next hfraction =>
          split at h
          · cases h
          · next hexponent =>
              have hdigits := hwhole
              simp only [scanWhole] at hdigits
              split at hdigits
              · cases hdigits
              · next hscan =>
                  split at hdigits
                  · cases hdigits
                  · simp only [Except.ok.injEq, Prod.mk.injEq] at hdigits h
                    have h1 := length_of_scanDigits hscan
                    have h2 := length_of_scanFraction hfraction
                    have h3 := length_of_scanExponent hexponent
                    rw [hdigits.right] at h1
                    rw [← h.right]
                    omega

theorem length_of_scanNumeral {s : Scrutiny} {input rest : Bytes} {n : Numeral}
    (h : scanNumeral s input = .ok (n, rest)) :
    rest.length < input.length := by
  unfold scanNumeral at h
  split at h
  · exact length_of_scanUnsigned h
  · split at h
    · have hlt := length_of_scanUnsigned h
      rw [List.length_cons]
      omega
    · exact length_of_scanUnsigned h

/-!
# Range

A number that is looked at in full must be one that a double can hold.  Its
significand keeps as many leading digits as fit a 64-bit word, and is scaled by
a power of ten; both are rounded before they are multiplied.
-/

/-- Appends digits to a value while it fits a 64-bit word; also counts the
digits left out. -/
def keepDigits (value : Nat) : Bytes -> Nat × Nat
  | [] => (value, 0)
  | b :: rest =>
      let next := value * 10 + (b.toNat - Ascii.zero.toNat)
      if next < UInt64.size then keepDigits next rest else (value, rest.length + 1)

def Numeral.inRange (n : Numeral) : Bool :=
  let (value, droppedWhole) := keepDigits 0 n.whole
  let (significand, dropped) := keepDigits value n.fraction
  let scale : Int := droppedWhole - (n.fraction.length - dropped : Nat) + n.exponent.getD 0
  !Binary64.overflows significand scale

/-!
# Scalars
-/

/-- Of numbers only the whole ones written without sign, fraction and exponent
have a value here. -/
inductive Scalar where
  | null
  | bool (b : Bool)
  | natural (n : Nat)
  | number
  | text (s : String)
deriving DecidableEq, Repr

def Scalar.ofNumeral (n : Numeral) : Scalar :=
  if !n.negative && n.fraction.isEmpty && n.exponent.isNone then .natural (digitsValue n.whole)
  else .number

inductive Word where
  | null
  | true
  | false
deriving DecidableEq, Repr

def word? (b : UInt8) : Option (Word × Bytes) :=
  match Char.ofNat b.toNat with
  | 'n' => some (.null, Bytes.ofString "ull")
  | 't' => some (.true, Bytes.ofString "rue")
  | 'f' => some (.false, Bytes.ofString "alse")
  | _ => none

def Word.scalar : Word -> Scalar
  | .null => .null
  | .true => .bool Bool.true
  | .false => .bool Bool.false

def beginsNumber (b : UInt8) : Bool :=
  b == Ascii.minus || Ascii.isDigit b

def readScalar (input : Bytes) : Except Fault (Scalar × Bytes) :=
  match input with
  | [] => .error .ended
  | b :: rest =>
      if b = Ascii.doubleQuote then
        match readText rest with
        | .error fault => .error fault
        | .ok (s, rest) => .ok (.text s, rest)
      else if beginsNumber b then
        match scanNumeral .full input with
        | .error fault => .error fault
        | .ok (n, rest) => if n.inRange then .ok (Scalar.ofNumeral n, rest) else .error .malformed
      else
        match word? b with
        | none => .error .malformed
        | some (word, letters) =>
            match readWord letters rest with
            | .error fault => .error fault
            | .ok rest => .ok (word.scalar, rest)

def skipScalar (input : Bytes) : Except Fault Bytes :=
  match input with
  | [] => .error .ended
  | b :: rest =>
      if b = Ascii.doubleQuote then skipText rest
      else if beginsNumber b then
        match scanNumeral .loose input with
        | .error fault => .error fault
        | .ok (_, rest) => .ok rest
      else
        match word? b with
        | none => .error .malformed
        | some (_, letters) => readWord letters rest

theorem length_of_readScalar {input rest : Bytes} {a : Scalar}
    (h : readScalar input = .ok (a, rest)) :
    rest.length < input.length := by
  unfold readScalar at h
  split at h
  · cases h
  · split at h
    · split at h
      · cases h
      · next htext =>
          have hlt := length_of_readText htext
          simp only [Except.ok.injEq, Prod.mk.injEq] at h
          rw [← h.right, List.length_cons]
          omega
    · split at h
      · split at h
        · cases h
        · next hnumeral =>
            split at h
            · simp only [Except.ok.injEq, Prod.mk.injEq] at h
              rw [← h.right]
              exact length_of_scanNumeral hnumeral
            · cases h
      · split at h
        · cases h
        · split at h
          · cases h
          · next hword =>
              have hle := length_of_readWord hword
              simp only [Except.ok.injEq, Prod.mk.injEq] at h
              rw [← h.right, List.length_cons]
              omega

theorem length_of_skipScalar {input rest : Bytes} (h : skipScalar input = .ok rest) :
    rest.length < input.length := by
  unfold skipScalar at h
  split at h
  · cases h
  · split at h
    · have hlt := length_of_skipText h
      rw [List.length_cons]
      omega
    · split at h
      · split at h
        · cases h
        · next hnumeral =>
            simp only [Except.ok.injEq] at h
            rw [← h]
            exact length_of_scanNumeral hnumeral
      · split at h
        · cases h
        · have hle := length_of_readWord h
          rw [List.length_cons]
          omega

end Json
end FlowConfig
