import FlowConfig.Gzip.Deflate
import FlowConfig.Gzip.Inflate

/-!
# Gzip files

A file is a row of members, each with a header, a compressed body and a trailer
that holds the checksum and the length of the content.  The content of the file
is that of its members in a row.
-/

namespace FlowConfig
namespace Gzip

def magic : Bytes := [0x1F, 0x8B]

def deflateMethod : UInt8 := 8

/-!
# Headers

Flags tell which optional fields follow the fixed part of a header.
-/

def fixedHeaderLength : Nat := 10

def hasFlag (flags : UInt8) (bit : UInt8) : Bool :=
  flags &&& bit != 0

def checksumFlag : UInt8 := 0x02
def extraFlag : UInt8 := 0x04
def nameFlag : UInt8 := 0x08
def commentFlag : UInt8 := 0x10
def reservedFlags : UInt8 := 0xE0

def takeExactly (n : Nat) (bytes : Bytes) : Except Fault (Bytes × Bytes) :=
  match splitBytes n bytes with
  | some r => .ok r
  | none => .error .ended

def readFixedHeader (bytes : Bytes) : Except Fault (UInt8 × Bytes) :=
  match takeExactly fixedHeaderLength bytes with
  | .error fault => .error fault
  | .ok (head, rest) =>
      match head with
      | a :: b :: method :: flags :: _ =>
          if [a, b] = magic && method = deflateMethod && !hasFlag flags reservedFlags then
            .ok (flags, rest)
          else .error .header
      | _ => .error .header

def skipExtra (bytes : Bytes) : Except Fault Bytes :=
  match takeExactly 2 bytes with
  | .error fault => .error fault
  | .ok (head, rest) => (takeExactly (ofLittleEndian head) rest).map Prod.snd

def longestText : Nat := 65535

/-- What follows a text, which ends with a zero, when `room` more bytes of it are
allowed. -/
def skipText (room : Nat) (bytes : Bytes) : Except Fault Bytes :=
  match bytes with
  | [] => .error .ended
  | b :: rest =>
      if b = 0 then .ok rest
      else
        match room with
        | 0 => .error .fieldTooLong
        | room + 1 => skipText room rest

def skipField (present : Bool) (skip : Bytes -> Except Fault Bytes) (bytes : Bytes) :
    Except Fault Bytes :=
  if present then skip bytes else .ok bytes

/-- Checks the checksum of a header against the bytes before it. -/
def checkHeader (header : Bytes) (bytes : Bytes) : Except Fault Bytes :=
  let before := header.take (header.length - bytes.length)
  match takeExactly 2 bytes with
  | .error fault => .error fault
  | .ok (sum, rest) =>
      if ofLittleEndian sum = (checksum before).toNat % 65536 then .ok rest
      else .error .checksum

def readHeader (bytes : Bytes) : Except Fault Bytes :=
  match readFixedHeader bytes with
  | .error fault => .error fault
  | .ok (flags, rest) =>
      match skipField (hasFlag flags extraFlag) skipExtra rest with
      | .error fault => .error fault
      | .ok rest =>
          match skipField (hasFlag flags nameFlag) (skipText longestText) rest with
          | .error fault => .error fault
          | .ok rest =>
              match skipField (hasFlag flags commentFlag) (skipText longestText) rest with
              | .error fault => .error fault
              | .ok rest => skipField (hasFlag flags checksumFlag) (checkHeader bytes) rest

/-!
# Members
-/

def trailerLength : Nat := 8

def trailer (content : Bytes) : Bytes :=
  littleEndian 4 (checksum content).toNat ++ littleEndian 4 content.length

def readTrailer (content : Bytes) (bytes : Bytes) : Except Fault Bytes :=
  match takeExactly trailerLength bytes with
  | .error fault => .error fault
  | .ok (given, rest) => if given = trailer content then .ok rest else .error .checksum

def readMember (bytes : Bytes) : Except Fault (Bytes × Bytes) :=
  match readHeader bytes with
  | .error fault => .error fault
  | .ok rest =>
      match inflate rest with
      | .error fault => .error fault
      | .ok (out, rest) =>
          match readTrailer out.toList rest with
          | .error fault => .error fault
          | .ok rest => .ok (out.toList, rest)

theorem length_of_takeExactly {n : Nat} {bytes front rest : Bytes}
    (h : takeExactly n bytes = .ok (front, rest)) :
    rest.length ≤ bytes.length := by
  unfold takeExactly at h
  split at h
  · next hsplit =>
      simp only [Except.ok.injEq] at h
      rw [h] at hsplit
      exact length_of_splitBytes hsplit
  · cases h

theorem length_of_skipText {room : Nat} {bytes rest : Bytes}
    (h : skipText room bytes = .ok rest) :
    rest.length ≤ bytes.length := by
  induction bytes generalizing room with
  | nil => simp [skipText] at h
  | cons b tail ih =>
      unfold skipText at h
      split at h
      · simp only [Except.ok.injEq] at h
        simp [h]
      · split at h
        · cases h
        · have hrest := ih h
          rw [List.length_cons]
          omega

theorem length_of_skipExtra {bytes rest : Bytes} (h : skipExtra bytes = .ok rest) :
    rest.length ≤ bytes.length := by
  unfold skipExtra at h
  split at h
  · cases h
  · next head tail hhead =>
      cases hcontent : takeExactly (ofLittleEndian head) tail with
      | error fault => simp [hcontent, Except.map] at h
      | ok r =>
          obtain ⟨content, r⟩ := r
          simp only [hcontent, Except.map, Except.ok.injEq] at h
          have h1 := length_of_takeExactly hhead
          have h2 := length_of_takeExactly hcontent
          rw [← h]
          omega

theorem length_of_skipField {present : Bool} {skip : Bytes -> Except Fault Bytes}
    (hskip : forall {bytes rest : Bytes}, skip bytes = .ok rest -> rest.length ≤ bytes.length)
    {bytes rest : Bytes} (h : skipField present skip bytes = .ok rest) :
    rest.length ≤ bytes.length := by
  unfold skipField at h
  split at h
  · exact hskip h
  · simp only [Except.ok.injEq] at h
    simp [h]

theorem length_of_checkHeader {header bytes rest : Bytes}
    (h : checkHeader header bytes = .ok rest) :
    rest.length ≤ bytes.length := by
  simp only [checkHeader] at h
  split at h
  · cases h
  · next htake =>
      split at h
      · simp only [Except.ok.injEq] at h
        rw [← h]
        exact length_of_takeExactly htake
      · cases h

theorem length_of_readFixedHeader {bytes rest : Bytes} {flags : UInt8}
    (h : readFixedHeader bytes = .ok (flags, rest)) :
    rest.length ≤ bytes.length := by
  unfold readFixedHeader at h
  split at h
  · cases h
  · next htake =>
      split at h
      · split at h
        · simp only [Except.ok.injEq, Prod.mk.injEq] at h
          rw [← h.right]
          exact length_of_takeExactly htake
        · cases h
      · cases h

theorem length_of_readHeader {bytes rest : Bytes} (h : readHeader bytes = .ok rest) :
    rest.length ≤ bytes.length := by
  unfold readHeader at h
  split at h
  · cases h
  · next h1 =>
      split at h
      · cases h
      · next h2 =>
          split at h
          · cases h
          · next h3 =>
              split at h
              · cases h
              · next h4 =>
                  have h1 := length_of_readFixedHeader h1
                  have h2 := length_of_skipField length_of_skipExtra h2
                  have h3 := length_of_skipField length_of_skipText h3
                  have h4 := length_of_skipField length_of_skipText h4
                  have h5 := length_of_skipField length_of_checkHeader h
                  omega

theorem length_of_readMember {bytes content rest : Bytes}
    (h : readMember bytes = .ok (content, rest)) :
    rest.length < bytes.length := by
  unfold readMember at h
  split at h
  · cases h
  · next hheader =>
      split at h
      · cases h
      · next hbody =>
          split at h
          · cases h
          · next htrailer =>
              have h1 := length_of_readHeader hheader
              have h2 := length_of_inflate hbody
              unfold readTrailer at htrailer
              split at htrailer
              · cases htrailer
              · next htake =>
                  have h3 := length_of_takeExactly htake
                  split at htrailer
                  · simp only [Except.ok.injEq] at htrailer
                    simp only [Except.ok.injEq, Prod.mk.injEq] at h
                    rw [← h.right, ← htrailer]
                    omega
                  · cases htrailer

/-!
# Whole files
-/

/-- The content of all members, after the content in `before`.  Whatever follows
a member must be another one. -/
def decompressFrom (before : Output) (bytes : Bytes) : Except Fault Bytes :=
  match _h : readMember bytes with
  | .error fault => .error fault
  | .ok (content, rest) =>
      if rest.isEmpty then .ok (before ++ content).toList
      else decompressFrom (before ++ content) rest
termination_by bytes.length
decreasing_by exact length_of_readMember _h

def decompress (bytes : Bytes) : Except Fault Bytes :=
  decompressFrom #[] bytes

/-- The header of the files that are written: no optional fields, no time, and
no named system. -/
def header : Bytes :=
  magic ++ [deflateMethod, 0, 0, 0, 0, 0, 0, 0xFF]

def compress (level : Nat) (content : Bytes) : Bytes :=
  header ++ deflate level content ++ trailer content

end Gzip
end FlowConfig
