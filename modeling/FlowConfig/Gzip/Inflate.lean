import FlowConfig.Gzip.Checksum
import FlowConfig.Gzip.Codes

/-!
# Inflating

A compressed body is a row of blocks.  A block is stored as it is, or written in
tokens; the last one is marked.
-/

namespace FlowConfig
namespace Gzip

def splitBytes (n : Nat) (bytes : Bytes) : Option (Bytes × Bytes) :=
  if n ≤ bytes.length then some (bytes.splitAt n) else none

theorem length_of_splitBytes {n : Nat} {bytes front rest : Bytes}
    (h : splitBytes n bytes = some (front, rest)) :
    rest.length ≤ bytes.length := by
  unfold splitBytes at h
  split at h
  · simp only [List.splitAt_eq, Option.some.injEq, Prod.mk.injEq] at h
    rw [← h.right, List.length_drop]
    omega
  · cases h

/-- A block that is stored as it is begins at a byte with its length, written a
second time in complement. -/
def readStored (out : Output) (s : BitSource) : Except Fault (Output × BitSource) :=
  match splitBytes 4 s.align with
  | none => .error .incomplete
  | some (head, rest) =>
      let length := ofLittleEndian (head.take 2)
      if length + ofLittleEndian (head.drop 2) = 0xFFFF then
        match splitBytes length rest with
        | none => .error .incomplete
        | some (content, rest) => .ok (out ++ content, BitSource.ofBytes rest)
      else .error .corrupt

theorem size_of_readStored {out final : Output} {s t : BitSource}
    (h : readStored out s = .ok (final, t)) :
    t.size ≤ s.size := by
  unfold readStored at h
  split at h
  · cases h
  · next hhead =>
      simp only at h
      split at h
      · split at h
        · cases h
        · next hcontent =>
            have h1 := length_of_splitBytes hhead
            have h2 := length_of_splitBytes hcontent
            have h3 := BitSource.length_align_le s
            simp only [Except.ok.injEq, Prod.mk.injEq] at h
            rw [← h.right, BitSource.size_ofBytes]
            omega
      · cases h

def readContent (kind : Nat) (out : Output) (s : BitSource) :
    Except Fault (Output × BitSource) :=
  match kind with
  | 0 => readStored out s
  | 1 => readTokens fixedCodes out s
  | 2 =>
      match readCodes s with
      | .error fault => .error fault
      | .ok (codes, s) => readTokens codes out s
  | _ => .error .corrupt

theorem size_of_readContent {kind : Nat} {out final : Output} {s t : BitSource}
    (h : readContent kind out s = .ok (final, t)) :
    t.size ≤ s.size := by
  unfold readContent at h
  split at h
  · exact size_of_readStored h
  · have hlt := size_of_readTokens h
    omega
  · split at h
    · cases h
    · next hcodes =>
        have h1 := size_of_readCodes hcodes
        have h2 := size_of_readTokens h
        omega
  · cases h

def readBlock (out : Output) (s : BitSource) : Except Fault ((Bool × Output) × BitSource) :=
  match readBits 1 s with
  | .error fault => .error fault
  | .ok (last, s) =>
      match readBits 2 s with
      | .error fault => .error fault
      | .ok (kind, s) =>
          match readContent kind out s with
          | .error fault => .error fault
          | .ok (out, s) => .ok ((last == 1, out), s)

theorem size_of_readBlock {out : Output} {r : Bool × Output} {s t : BitSource}
    (h : readBlock out s = .ok (r, t)) :
    t.size < s.size := by
  unfold readBlock at h
  split at h
  · cases h
  · next h1 =>
      split at h
      · cases h
      · next h2 =>
          split at h
          · cases h
          · next h3 =>
              have h1 := size_of_readBits h1
              have h2 := size_of_readBits h2
              have h3 := size_of_readContent h3
              simp only [Except.ok.injEq, Prod.mk.injEq] at h
              rw [← h.right]
              omega

def readBlocks (out : Output) (s : BitSource) : Except Fault (Output × BitSource) :=
  match _h : readBlock out s with
  | .error fault => .error fault
  | .ok ((true, out), s) => .ok (out, s)
  | .ok ((false, out), s) => readBlocks out s
termination_by s.size
decreasing_by exact size_of_readBlock _h

theorem size_of_readBlocks {out final : Output} {s t : BitSource}
    (h : readBlocks out s = .ok (final, t)) :
    t.size < s.size := by
  fun_induction readBlocks out s with
  | case1 => cases h
  | case2 _ _ _ _ hblock =>
      simp only [Except.ok.injEq, Prod.mk.injEq] at h
      rw [← h.right]
      exact size_of_readBlock hblock
  | case3 _ _ _ _ hblock ih =>
      have h1 := size_of_readBlock hblock
      have h2 := ih h
      omega

def inflate (bytes : Bytes) : Except Fault (Output × Bytes) :=
  match readBlocks #[] (BitSource.ofBytes bytes) with
  | .error fault => .error fault
  | .ok (out, s) => .ok (out, s.align)

theorem length_of_inflate {bytes rest : Bytes} {out : Output}
    (h : inflate bytes = .ok (out, rest)) :
    rest.length < bytes.length := by
  unfold inflate at h
  split at h
  · cases h
  · next s hblocks =>
      have h1 := size_of_readBlocks hblocks
      have h2 := BitSource.length_align_le s
      rw [BitSource.size_ofBytes] at h1
      simp only [Except.ok.injEq, Prod.mk.injEq] at h
      rw [← h.right]
      omega

end Gzip
end FlowConfig
