import FlowConfig.Json.Reader
import FlowConfig.Text.Numeral
import FlowConfig.Text.Utf8

/-!
# JSON strings

A string is read up to its closing quote.  Control characters must be escaped;
the text must be UTF-8, and escaped surrogates must come in pairs.  A string
that is skipped is scanned for its end, and only its escapes are looked at.
-/

namespace FlowConfig
namespace Json

def hexDigit? (b : UInt8) : Option Nat :=
  Text.digit? 16 (Char.ofNat b.toNat)

def readHex (input : Bytes) : Except Fault (Nat × Bytes) :=
  match input with
  | a :: b :: c :: d :: rest =>
      match hexDigit? a, hexDigit? b, hexDigit? c, hexDigit? d with
      | some x, some y, some z, some w => .ok (((x * 16 + y) * 16 + z) * 16 + w, rest)
      | _, _, _, _ => .error .malformed
  | _ => .error .ended

def isLowSurrogate (n : Nat) : Bool :=
  0xDC00 ≤ n && n ≤ 0xDFFF

def isHighSurrogate (n : Nat) : Bool :=
  0xD800 ≤ n && n ≤ 0xDBFF

def letterU : UInt8 := 117

def readLowSurrogate (input : Bytes) : Except Fault (Nat × Bytes) :=
  match input with
  | [] => .error .ended
  | b :: rest =>
      if b = Ascii.backslash then
        match rest with
        | [] => .error .ended
        | c :: rest =>
            if c = letterU then
              match readHex rest with
              | .error fault => .error fault
              | .ok (n, rest) => if isLowSurrogate n then .ok (n, rest) else .error .malformed
            else .error .malformed
      else .error .malformed

/-- The character whose number is escaped, after `\u`. -/
def readEscapedNumber (input : Bytes) : Except Fault (Char × Bytes) :=
  match readHex input with
  | .error fault => .error fault
  | .ok (n, rest) =>
      if isLowSurrogate n then .error .malformed
      else if isHighSurrogate n then
        match readLowSurrogate rest with
        | .error fault => .error fault
        | .ok (m, rest) =>
            .ok (Char.ofNat ((n - 0xD800) * 1024 + (m - 0xDC00) + 0x10000), rest)
      else .ok (Char.ofNat n, rest)

def shortEscape? (b : UInt8) : Option Char :=
  match Char.ofNat b.toNat with
  | '"' => some '"'
  | '\\' => some '\\'
  | '/' => some '/'
  | 'b' => some '\x08'
  | 'f' => some '\x0c'
  | 'n' => some '\n'
  | 'r' => some '\r'
  | 't' => some '\t'
  | _ => none

def readEscape (input : Bytes) : Except Fault (Char × Bytes) :=
  match input with
  | [] => .error .ended
  | b :: rest =>
      match shortEscape? b with
      | some c => .ok (c, rest)
      | none => if b = letterU then readEscapedNumber rest else .error .malformed

/-- An escape that is skipped: its digits are checked, not what they stand for. -/
def skipEscape (input : Bytes) : Except Fault Bytes :=
  match input with
  | [] => .error .ended
  | b :: rest =>
      match shortEscape? b with
      | some _ => .ok rest
      | none =>
          if b = letterU then (readHex rest).map Prod.snd else .error .malformed

theorem length_of_readHex {input rest : Bytes} {n : Nat} (h : readHex input = .ok (n, rest)) :
    rest.length < input.length := by
  unfold readHex at h
  split at h
  · split at h
    · simp only [Except.ok.injEq, Prod.mk.injEq] at h
      rw [← h.right]
      simp only [List.length_cons]
      omega
    · cases h
  · cases h

theorem length_of_readLowSurrogate {input rest : Bytes} {n : Nat}
    (h : readLowSurrogate input = .ok (n, rest)) :
    rest.length < input.length := by
  unfold readLowSurrogate at h
  split at h
  · cases h
  · split at h
    · split at h
      · cases h
      · split at h
        · split at h
          · cases h
          · next hhex =>
              have hlt := length_of_readHex hhex
              split at h
              · simp only [Except.ok.injEq, Prod.mk.injEq] at h
                rw [← h.right]
                simp only [List.length_cons]
                omega
              · cases h
        · cases h
    · cases h

theorem length_of_readEscapedNumber {input rest : Bytes} {c : Char}
    (h : readEscapedNumber input = .ok (c, rest)) :
    rest.length < input.length := by
  unfold readEscapedNumber at h
  split at h
  · cases h
  · next hhex =>
      have hlt := length_of_readHex hhex
      split at h
      · cases h
      · split at h
        · split at h
          · cases h
          · next hlow =>
              have hlow := length_of_readLowSurrogate hlow
              simp only [Except.ok.injEq, Prod.mk.injEq] at h
              rw [← h.right]
              omega
        · simp only [Except.ok.injEq, Prod.mk.injEq] at h
          rw [← h.right]
          exact hlt

theorem length_of_readEscape {input rest : Bytes} {c : Char}
    (h : readEscape input = .ok (c, rest)) :
    rest.length < input.length := by
  unfold readEscape at h
  split at h
  · cases h
  · split at h
    · simp only [Except.ok.injEq, Prod.mk.injEq] at h
      rw [← h.right]
      simp
    · split at h
      · have hlt := length_of_readEscapedNumber h
        rw [List.length_cons]
        omega
      · cases h

theorem length_of_skipEscape {input rest : Bytes} (h : skipEscape input = .ok rest) :
    rest.length < input.length := by
  unfold skipEscape at h
  split at h
  · cases h
  · split at h
    · simp only [Except.ok.injEq] at h
      rw [← h]
      simp
    · split at h
      · next tail _ _ _ =>
          cases hhex : readHex tail with
          | error fault => simp [hhex, Except.map] at h
          | ok r =>
              obtain ⟨n, r⟩ := r
              have hlt := length_of_readHex hhex
              simp only [hhex, Except.map, Except.ok.injEq] at h
              rw [← h, List.length_cons]
              omega
      · cases h

/-!
# Whole strings
-/

/-- The bytes of a string up to its closing quote, after those in `before`,
which are latest first. -/
def textBytesFrom (before : Bytes) (input : Bytes) : Except Fault (Bytes × Bytes) :=
  match input with
  | [] => .error .ended
  | b :: rest =>
      if b = Ascii.doubleQuote then .ok (before.reverse, rest)
      else if b = Ascii.backslash then
        match _h : readEscape rest with
        | .error fault => .error fault
        | .ok (c, rest) => textBytesFrom ((String.utf8EncodeChar c).reverse ++ before) rest
      else if b < Ascii.space then .error .malformed
      else textBytesFrom (b :: before) rest
termination_by input.length
decreasing_by
  · have hlt := length_of_readEscape _h
    simp only [List.length_cons]
    omega
  · simp

/-- A string after its opening quote.  Whether it is UTF-8 is seen at its end. -/
def readText (input : Bytes) : Except Fault (String × Bytes) :=
  match textBytesFrom [] input with
  | .error fault => .error fault
  | .ok (bytes, rest) =>
      match Utf8.decodeString bytes with
      | .ok s => .ok (s, rest)
      | .error _ => .error .malformed

def skipText (input : Bytes) : Except Fault Bytes :=
  match input with
  | [] => .error .ended
  | b :: rest =>
      if b = Ascii.doubleQuote then .ok rest
      else if b = Ascii.backslash then
        match _h : skipEscape rest with
        | .error fault => .error fault
        | .ok rest => skipText rest
      else if b < Ascii.space then .error .malformed
      else skipText rest
termination_by input.length
decreasing_by
  · have hlt := length_of_skipEscape _h
    simp only [List.length_cons]
    omega
  · simp

theorem length_of_textBytesFrom {before input bytes rest : Bytes}
    (h : textBytesFrom before input = .ok (bytes, rest)) :
    rest.length < input.length := by
  fun_induction textBytesFrom before input with
  | case1 => cases h
  | case2 =>
      simp only [Except.ok.injEq, Prod.mk.injEq] at h
      simp [h.right]
  | case3 => cases h
  | case4 _ _ _ _ hescape _ ih =>
      have hlt := length_of_readEscape hescape
      have hrest := ih h
      simp only [List.length_cons]
      omega
  | case5 => cases h
  | case6 _ _ _ _ _ _ ih =>
      have hrest := ih h
      simp only [List.length_cons]
      omega

theorem length_of_readText {input rest : Bytes} {s : String}
    (h : readText input = .ok (s, rest)) :
    rest.length < input.length := by
  unfold readText at h
  split at h
  · cases h
  · next hbytes =>
      split at h
      · simp only [Except.ok.injEq, Prod.mk.injEq] at h
        rw [← h.right]
        exact length_of_textBytesFrom hbytes
      · cases h

theorem length_of_skipText {input rest : Bytes} (h : skipText input = .ok rest) :
    rest.length < input.length := by
  fun_induction skipText input with
  | case1 => cases h
  | case2 =>
      simp only [Except.ok.injEq] at h
      simp [h]
  | case3 => cases h
  | case4 _ _ hescape _ ih =>
      have hlt := length_of_skipEscape hescape
      have hrest := ih h
      simp only [List.length_cons]
      omega
  | case5 => cases h
  | case6 _ _ _ _ _ ih =>
      have hrest := ih h
      simp only [List.length_cons]
      omega

end Json
end FlowConfig
