import FlowConfig.Gzip.Huffman

/-!
# Tokens

Compressed content is written in tokens: single bytes, and copies of bytes that
came before.  Bytes before the beginning count as zeros.
-/

namespace FlowConfig
namespace Gzip

abbrev Output := Array UInt8

inductive Token where
  | literal (b : UInt8)
  | copy (length distance : Nat)
deriving DecidableEq, Repr

/-- The byte that was produced `distance` bytes ago. -/
def byteBack (out : Output) (distance : Nat) : UInt8 :=
  if distance ≤ out.size then out[out.size - distance]?.getD 0 else 0

def copyBytes (out : Output) (distance : Nat) : Nat -> Output
  | 0 => out
  | length + 1 => copyBytes (out.push (byteBack out distance)) distance length

def Token.apply (out : Output) : Token -> Output
  | .literal b => out.push b
  | .copy length distance => copyBytes out distance length

/-!
# Symbols

A length or a distance is written as a symbol for its range, followed by the
bits that tell the numbers of the range apart.
-/

/-- The least number of a range and how many further bits it has. -/
structure Range where
  base : Nat
  extraBits : Nat
deriving DecidableEq, Repr

def ranges (entries : List (Nat × Nat)) : Array Range :=
  (entries.map fun e => ⟨e.1, e.2⟩).toArray

def lengthRanges : Array Range :=
  ranges [(3, 0), (4, 0), (5, 0), (6, 0), (7, 0), (8, 0), (9, 0), (10, 0), (11, 1), (13, 1),
    (15, 1), (17, 1), (19, 2), (23, 2), (27, 2), (31, 2), (35, 3), (43, 3), (51, 3), (59, 3),
    (67, 4), (83, 4), (99, 4), (115, 4), (131, 5), (163, 5), (195, 5), (227, 5), (258, 0)]

def distanceRanges : Array Range :=
  ranges [(1, 0), (2, 0), (3, 0), (4, 0), (5, 1), (7, 1), (9, 2), (13, 2), (17, 3), (25, 3),
    (33, 4), (49, 4), (65, 5), (97, 5), (129, 6), (193, 6), (257, 7), (385, 7), (513, 8),
    (769, 8), (1025, 9), (1537, 9), (2049, 10), (3073, 10), (4097, 11), (6145, 11), (8193, 12),
    (12289, 12), (16385, 13), (24577, 13)]

/-- The symbol that ends a block; the symbols for lengths follow it. -/
def endOfBlock : Nat := 256

structure Codes where
  literals : Code
  distances : Code

def readBits (n : Nat) (s : BitSource) : Except Fault (Nat × BitSource) :=
  match s.number? n with
  | none => .error .incomplete
  | some r => .ok r

theorem size_of_readBits {n value : Nat} {s t : BitSource} (h : readBits n s = .ok (value, t)) :
    t.size + n = s.size := by
  unfold readBits at h
  split at h
  · cases h
  · next hnumber =>
      simp only [Except.ok.injEq] at h
      rw [h] at hnumber
      exact BitSource.size_of_number? hnumber

def readInRange (table : Array Range) (index : Nat) (s : BitSource) :
    Except Fault (Nat × BitSource) :=
  match table[index]? with
  | none => .error .corrupt
  | some range =>
      match readBits range.extraBits s with
      | .error fault => .error fault
      | .ok (extra, s) => .ok (range.base + extra, s)

theorem size_of_readInRange {table : Array Range} {index value : Nat} {s t : BitSource}
    (h : readInRange table index s = .ok (value, t)) :
    t.size ≤ s.size := by
  unfold readInRange at h
  split at h
  · cases h
  · split at h
    · cases h
    · next hbits =>
        have hsize := size_of_readBits hbits
        simp only [Except.ok.injEq, Prod.mk.injEq] at h
        rw [← h.right]
        omega

def readCopy (codes : Codes) (symbol : Nat) (s : BitSource) :
    Except Fault (Token × BitSource) :=
  match readInRange lengthRanges (symbol - endOfBlock - 1) s with
  | .error fault => .error fault
  | .ok (length, s) =>
      match codes.distances.decode s with
      | .error fault => .error fault
      | .ok (distanceSymbol, s) =>
          match readInRange distanceRanges distanceSymbol s with
          | .error fault => .error fault
          | .ok (distance, s) => .ok (.copy length distance, s)

theorem size_of_readCopy {codes : Codes} {symbol : Nat} {s t : BitSource} {token : Token}
    (h : readCopy codes symbol s = .ok (token, t)) :
    t.size ≤ s.size := by
  unfold readCopy at h
  split at h
  · cases h
  · next hlength =>
      split at h
      · cases h
      · next hsymbol =>
          split at h
          · cases h
          · next hdistance =>
              have h1 := size_of_readInRange hlength
              have h2 := Code.size_of_decode hsymbol
              have h3 := size_of_readInRange hdistance
              simp only [Except.ok.injEq, Prod.mk.injEq] at h
              rw [← h.right]
              omega

def readToken (codes : Codes) (s : BitSource) : Except Fault (Option Token × BitSource) :=
  match codes.literals.decode s with
  | .error fault => .error fault
  | .ok (symbol, s) =>
      if symbol < endOfBlock then .ok (some (.literal (UInt8.ofNat symbol)), s)
      else if symbol = endOfBlock then .ok (none, s)
      else
        match readCopy codes symbol s with
        | .error fault => .error fault
        | .ok (token, s) => .ok (some token, s)

theorem size_of_readToken {codes : Codes} {s t : BitSource} {token : Option Token}
    (h : readToken codes s = .ok (token, t)) :
    t.size < s.size := by
  unfold readToken at h
  split at h
  · cases h
  · next hsymbol =>
      have h1 := Code.size_of_decode hsymbol
      split at h
      · simp only [Except.ok.injEq, Prod.mk.injEq] at h
        rw [← h.right]
        exact h1
      · split at h
        · simp only [Except.ok.injEq, Prod.mk.injEq] at h
          rw [← h.right]
          exact h1
        · split at h
          · cases h
          · next hcopy =>
              have h2 := size_of_readCopy hcopy
              simp only [Except.ok.injEq, Prod.mk.injEq] at h
              rw [← h.right]
              omega

def readTokens (codes : Codes) (out : Output) (s : BitSource) :
    Except Fault (Output × BitSource) :=
  match _h : readToken codes s with
  | .error fault => .error fault
  | .ok (none, s) => .ok (out, s)
  | .ok (some token, s) => readTokens codes (token.apply out) s
termination_by s.size
decreasing_by exact size_of_readToken _h

theorem size_of_readTokens {codes : Codes} {out final : Output} {s t : BitSource}
    (h : readTokens codes out s = .ok (final, t)) :
    t.size < s.size := by
  fun_induction readTokens codes out s with
  | case1 => cases h
  | case2 _ _ _ htoken =>
      simp only [Except.ok.injEq, Prod.mk.injEq] at h
      rw [← h.right]
      exact size_of_readToken htoken
  | case3 _ _ _ _ htoken ih =>
      have h1 := size_of_readToken htoken
      have h2 := ih h
      omega

end Gzip
end FlowConfig
