import FlowConfig.Bytes

/-!
# Checksums

The cyclic redundancy check of gzip, one bit at a time: the remainder after
division by a fixed polynomial, lowest bit first.
-/

namespace FlowConfig
namespace Gzip

def polynomial : UInt32 := 0xEDB88320

def shiftBit (crc : UInt32) : UInt32 :=
  if crc &&& 1 = 1 then (crc >>> 1) ^^^ polynomial else crc >>> 1

def checksumStep (crc : UInt32) (b : UInt8) : UInt32 :=
  let crc := crc ^^^ b.toUInt32
  shiftBit (shiftBit (shiftBit (shiftBit (shiftBit (shiftBit (shiftBit (shiftBit crc)))))))

def checksum (bytes : Bytes) : UInt32 :=
  bytes.foldl checksumStep 0xFFFFFFFF ^^^ 0xFFFFFFFF

/-!
# Numbers in bytes

Numbers are written lowest byte first.
-/

def ofLittleEndian (bytes : Bytes) : Nat :=
  bytes.foldr (fun b n => b.toNat + 256 * n) 0

def littleEndian : Nat -> Nat -> Bytes
  | 0, _ => []
  | width + 1, n => UInt8.ofNat n :: littleEndian width (n / 256)

theorem length_littleEndian (width n : Nat) : (littleEndian width n).length = width := by
  induction width generalizing n with
  | zero => rfl
  | succ width ih => simp [littleEndian, ih]

theorem ofLittleEndian_littleEndian (width n : Nat) :
    ofLittleEndian (littleEndian width n) = n % Nat.pow 256 width := by
  induction width generalizing n with
  | zero => simp [littleEndian, ofLittleEndian, Nat.mod_one]
  | succ width ih =>
      have hcons : ofLittleEndian (littleEndian (width + 1) n)
          = (UInt8.ofNat n).toNat + 256 * ofLittleEndian (littleEndian width (n / 256)) := rfl
      have hpow : Nat.pow 256 (width + 1) = 256 * Nat.pow 256 width := Nat.mul_comm _ _
      rw [hcons, ih, UInt8.toNat_ofNat', hpow, Nat.mod_mul]

end Gzip
end FlowConfig
