import FlowConfig.Bytes

/-!
# Bits

A compressed body is a row of bits.  Within a byte the lowest bit comes first.
A source of bits holds what is left of the byte that was begun and the bytes
after it.
-/

namespace FlowConfig
namespace Gzip

def byteBits (b : UInt8) : List Bool :=
  (List.range 8).map fun i => b.toNat.testBit i

@[simp] theorem length_byteBits (b : UInt8) : (byteBits b).length = 8 := by
  simp [byteBits]

structure BitSource where
  begun : List Bool
  bytes : Bytes
deriving DecidableEq, Repr

namespace BitSource

def ofBytes (bytes : Bytes) : BitSource := ⟨[], bytes⟩

def toList (s : BitSource) : List Bool :=
  s.begun ++ s.bytes.flatMap byteBits

def size (s : BitSource) : Nat :=
  s.begun.length + 8 * s.bytes.length

theorem length_toList (s : BitSource) : s.toList.length = s.size := by
  obtain ⟨begun, bytes⟩ := s
  induction bytes with
  | nil => simp [toList, size]
  | cons b rest ih =>
      simp only [toList, size, List.length_append, List.flatMap_cons, length_byteBits,
        List.length_cons] at ih ⊢
      omega

def next? (s : BitSource) : Option (Bool × BitSource) :=
  match s with
  | ⟨bit :: begun, bytes⟩ => some (bit, ⟨begun, bytes⟩)
  | ⟨[], []⟩ => none
  | ⟨[], b :: bytes⟩ =>
      match byteBits b with
      | [] => none
      | bit :: begun => some (bit, ⟨begun, bytes⟩)

theorem toList_of_next? {s t : BitSource} {bit : Bool} (h : s.next? = some (bit, t)) :
    s.toList = bit :: t.toList := by
  obtain ⟨begun, bytes⟩ := s
  cases begun with
  | cons c begun =>
      simp only [next?, Option.some.injEq, Prod.mk.injEq] at h
      rw [← h.left, ← h.right]
      rfl
  | nil =>
      cases bytes with
      | nil => simp [next?] at h
      | cons b bytes =>
          simp only [next?] at h
          split at h
          · cases h
          · next hbits =>
              simp only [Option.some.injEq, Prod.mk.injEq] at h
              rw [← h.left, ← h.right]
              simp [toList, hbits]

theorem next?_eq_none_iff (s : BitSource) : s.next? = none <-> s.toList = [] := by
  constructor
  · intro h
    obtain ⟨begun, bytes⟩ := s
    cases begun with
    | cons c begun => simp [next?] at h
    | nil =>
        cases bytes with
        | nil => rfl
        | cons b bytes =>
            simp only [next?] at h
            split at h
            · next hbits =>
                have hlength := length_byteBits b
                simp [hbits] at hlength
            · cases h
  · intro h
    cases hnext : s.next? with
    | none => rfl
    | some r =>
        obtain ⟨bit, t⟩ := r
        rw [toList_of_next? hnext] at h
        cases h

theorem size_of_next? {s t : BitSource} {bit : Bool} (h : s.next? = some (bit, t)) :
    t.size + 1 = s.size := by
  rw [← length_toList, ← length_toList, toList_of_next? h]
  rfl

/-- A number of `n` bits, the lowest first. -/
def number? : Nat -> BitSource -> Option (Nat × BitSource)
  | 0, s => some (0, s)
  | n + 1, s =>
      match s.next? with
      | none => none
      | some (bit, s) =>
          match s.number? n with
          | none => none
          | some (value, s) => some (bit.toNat + 2 * value, s)

theorem size_of_number? {n value : Nat} {s t : BitSource} (h : s.number? n = some (value, t)) :
    t.size + n = s.size := by
  induction n generalizing s value with
  | zero =>
      simp only [number?, Option.some.injEq, Prod.mk.injEq] at h
      rw [h.right]
      rfl
  | succ n ih =>
      simp only [number?] at h
      split at h
      · cases h
      · next hnext =>
          have hbit := size_of_next? hnext
          split at h
          · cases h
          · next hnumber =>
              simp only [Option.some.injEq, Prod.mk.injEq] at h
              rw [h.right] at hnumber
              have hrest := ih hnumber
              omega

def align (s : BitSource) : Bytes :=
  s.bytes

theorem size_ofBytes (bytes : Bytes) : (ofBytes bytes).size = 8 * bytes.length := by
  simp [ofBytes, size]

theorem length_align_le (s : BitSource) : 8 * s.align.length ≤ s.size := by
  simp [align, size]

end BitSource

/-!
# Writing bits
-/

/-- The number whose bits are given, the lowest first. -/
def ofBits (bits : List Bool) : Nat :=
  bits.foldr (fun bit n => bit.toNat + 2 * n) 0

def numberBits (n value : Nat) : List Bool :=
  (List.range n).map fun i => value.testBit i

/-- The bytes that hold the given bits; the last one is filled up with zeros. -/
def packFrom (before : Bytes) (bits : List Bool) : Bytes :=
  match bits with
  | [] => before.reverse
  | bit :: rest =>
      packFrom (UInt8.ofNat (ofBits ((bit :: rest).take 8)) :: before) ((bit :: rest).drop 8)
termination_by bits.length
decreasing_by simp only [List.length_drop, List.length_cons]; omega

def pack (bits : List Bool) : Bytes :=
  packFrom [] bits

end Gzip
end FlowConfig
