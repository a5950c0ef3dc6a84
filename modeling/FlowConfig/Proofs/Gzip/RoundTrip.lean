import FlowConfig.Gzip.Member
import FlowConfig.Proofs.Gzip.Copies

/-!
# Compressed content is read back

At every level the blocks that are written are read back to the content, up to
the byte where the trailer begins.  So a file that was written holds its content,
and a member in front of other bytes is read without touching these.
-/

namespace FlowConfig
namespace Gzip

open BitSource

/-!
# Heads of blocks
-/

theorem blockHead_eq (last : Bool) (kind : Nat) :
    blockHead last kind = numberBits 1 last.toNat ++ numberBits 2 kind := by
  cases last with
  | false => rfl
  | true => rfl

theorem exists_readBlock {last : Bool} {kind : Nat} (hkind : kind < 4) {more : List Bool}
    {rest : Bytes} {s : BitSource} (hs : s.Gives (blockHead last kind ++ more) rest) :
    exists t, t.Gives more rest ∧ forall out,
      readBlock out s = (readContent kind out t).map fun r => ((last, r.1), r.2) := by
  rw [blockHead_eq, List.append_assoc] at hs
  have hlast : last.toNat < 2 ^ 1 := Bool.toNat_lt last
  rcases hs.exists_readBits hlast with ⟨t, hmark, ht⟩
  rcases ht.exists_readBits hkind with ⟨u, hnumber, hu⟩
  refine ⟨u, hu, ?_⟩
  intro out
  have hequal : (last.toNat == 1) = last := by
    cases last with
    | false => rfl
    | true => rfl
  rw [readBlock, hmark]
  simp only [hnumber, hequal]
  cases readContent kind out u with
  | error fault => rfl
  | ok r => rfl

theorem readBlocks_of_last {out final : Output} {s t : BitSource}
    (h : readBlock out s = .ok ((true, final), t)) : readBlocks out s = .ok (final, t) := by
  rw [readBlocks]
  split
  · next hfault => rw [h] at hfault; cases hfault
  · next hread =>
      rw [h] at hread
      cases hread
      rfl
  · next hread => rw [h] at hread; cases hread

theorem readBlocks_of_not_last {out next : Output} {s t : BitSource}
    (h : readBlock out s = .ok ((false, next), t)) : readBlocks out s = readBlocks next t := by
  rw [readBlocks]
  split
  · next hfault => rw [h] at hfault; cases hfault
  · next hread => rw [h] at hread; cases hread
  · next hread =>
      rw [h] at hread
      cases hread
      rfl

/-!
# Blocks of tokens
-/

theorem exists_readBlocks_tokenBlock {ts : List Token}
    (hfits : forall token, token ∈ ts -> token.Fits) (out : Output) (rest : Bytes) :
    exists t, readBlocks out (ofBytes (tokenBlock ts ++ rest)) = .ok (ts.foldl Token.apply out, t) ∧
      t.align = rest := by
  rcases exists_gives_ofBytes_pack
    (blockHead true 1 ++ ts.flatMap Token.bits ++ literalWord endOfBlock) rest with
    ⟨padding, hpadding, hs⟩
  simp only [List.append_assoc] at hs
  rcases exists_readBlock (by decide) hs with ⟨t, ht, hblock⟩
  rcases exists_readTokens hfits out ht with ⟨u, htokens, hu⟩
  refine ⟨u, readBlocks_of_last ?_, hu.align_eq hpadding⟩
  have hcontent : readContent 1 out t = .ok (ts.foldl Token.apply out, u) := htokens
  rw [tokenBlock]
  simp only [List.append_assoc]
  rw [hblock, hcontent]
  rfl

/-!
# Stored blocks
-/

theorem splitBytes_append (front rest : Bytes) :
    splitBytes front.length (front ++ rest) = some (front, rest) := by
  simp [splitBytes]

theorem splitBytes_of_length_eq {n : Nat} {front : Bytes} (h : front.length = n) (rest : Bytes) :
    splitBytes n (front ++ rest) = some (front, rest) := by
  rw [← h, splitBytes_append]

theorem readStored_of_align {out : Output} {s : BitSource} {content rest : Bytes}
    (hlength : content.length ≤ longestStored)
    (hs : s.align = littleEndian 2 content.length ++ littleEndian 2 (0xFFFF - content.length) ++
      content ++ rest) :
    readStored out s = .ok (out ++ content, ofBytes rest) := by
  have hhead : (littleEndian 2 content.length ++
      littleEndian 2 (0xFFFF - content.length)).length = 4 := by
    rw [List.length_append, length_littleEndian, length_littleEndian]
  have htwo : (littleEndian 2 content.length).length = 2 := length_littleEndian 2 content.length
  have hbound : content.length < 65536 := Nat.lt_succ_of_le hlength
  have hlow : ofLittleEndian (littleEndian 2 content.length) = content.length := by
    rw [ofLittleEndian_littleEndian]
    exact Nat.mod_eq_of_lt hbound
  have hhigh : ofLittleEndian (littleEndian 2 (0xFFFF - content.length)) =
      0xFFFF - content.length := by
    rw [ofLittleEndian_littleEndian]
    exact Nat.mod_eq_of_lt (Nat.lt_succ_of_le (Nat.sub_le _ _))
  have hsum : content.length + (0xFFFF - content.length) = 0xFFFF := Nat.add_sub_of_le hlength
  rw [readStored, hs, List.append_assoc (_ ++ _), splitBytes_of_length_eq hhead]
  simp only [List.take_left' htwo, List.drop_left' htwo, hlow, hhigh, hsum, if_true,
    splitBytes_append]

theorem exists_readBlock_storedBlock {content : Bytes} (hlength : content.length ≤ longestStored)
    (last : Bool) (out : Output) (rest : Bytes) :
    readBlock out (ofBytes (storedBlock last content ++ rest)) =
      .ok ((last, out ++ content), ofBytes rest) := by
  have hbytes : storedBlock last content ++ rest = pack (blockHead last 0) ++
      (littleEndian 2 content.length ++ littleEndian 2 (0xFFFF - content.length) ++ content ++
        rest) := by
    simp only [storedBlock, List.append_assoc]
  rw [hbytes]
  rcases exists_gives_ofBytes_pack (blockHead last 0)
    (littleEndian 2 content.length ++ littleEndian 2 (0xFFFF - content.length) ++ content ++
      rest) with ⟨padding, hpadding, hs⟩
  rcases exists_readBlock (by decide) hs with ⟨t, ht, hblock⟩
  have hcontent : readContent 0 out t = .ok (out ++ content, ofBytes rest) :=
    readStored_of_align hlength (ht.align_eq hpadding)
  rw [hblock, hcontent]
  rfl

theorem readBlocks_storedBlocks (content : Bytes) (out : Output) (rest : Bytes) :
    readBlocks out (ofBytes (storedBlocks content ++ rest)) =
      .ok (out ++ content, ofBytes rest) := by
  fun_induction storedBlocks content generalizing out with
  | case1 content hshort =>
      exact readBlocks_of_last (exists_readBlock_storedBlock hshort true out rest)
  | case2 content hlong ih =>
      have hfirst : (content.take longestStored).length ≤ longestStored :=
        List.length_take_le longestStored content
      have hjoin : out ++ content.take longestStored ++ content.drop longestStored =
          out ++ content := by
        apply Array.toList_inj.mp
        rw [Array.toList_appendList, Array.toList_appendList, Array.toList_appendList,
          List.append_assoc, List.take_append_drop]
      rw [List.append_assoc,
        readBlocks_of_not_last (exists_readBlock_storedBlock hfirst false out _), ih, hjoin]

/-!
# Members
-/

/-- What was deflated is inflated to the same content, up to the bytes that
follow. -/
theorem exists_inflate_deflate (level : Nat) (content rest : Bytes) :
    exists out, inflate (deflate level content ++ rest) = .ok (out, rest) ∧
      out.toList = content := by
  rw [inflate, deflate]
  by_cases hlevel : level = 0
  · rw [if_pos hlevel, readBlocks_storedBlocks]
    exact ⟨#[] ++ content, rfl, by simp⟩
  · have htokens := completes_tokens level content.toArray
    rw [if_neg hlevel]
    rcases exists_readBlocks_tokenBlock htokens.fit #[] rest with ⟨t, hread, halign⟩
    rw [hread]
    simp only [halign]
    exact ⟨_, rfl, htokens.toList_foldl #[] rfl⟩

theorem readHeader_header (rest : Bytes) : readHeader (header ++ rest) = .ok rest := by
  have hlength : header.length = fixedHeaderLength := rfl
  have hfixed : readFixedHeader (header ++ rest) = .ok (0, rest) := by
    rw [readFixedHeader, takeExactly, splitBytes_of_length_eq hlength]
    rfl
  rw [readHeader, hfixed]
  rfl

theorem readTrailer_trailer (content rest : Bytes) :
    readTrailer content (trailer content ++ rest) = .ok rest := by
  have hlength : (trailer content).length = trailerLength := by
    rw [trailer, List.length_append, length_littleEndian, length_littleEndian]
    rfl
  rw [readTrailer, takeExactly, splitBytes_of_length_eq hlength]
  exact if_pos rfl

theorem readMember_compress (level : Nat) (content rest : Bytes) :
    readMember (compress level content ++ rest) = .ok (content, rest) := by
  rcases exists_inflate_deflate level content (trailer content ++ rest) with
    ⟨out, hinflate, hout⟩
  have hbytes : compress level content ++ rest =
      header ++ (deflate level content ++ (trailer content ++ rest)) := by
    simp only [compress, List.append_assoc]
  rw [readMember, hbytes, readHeader_header]
  simp only [hinflate, hout, readTrailer_trailer]

theorem decompressFrom_compress (before : Output) (level : Nat) (content rest : Bytes) :
    decompressFrom before (compress level content ++ rest) =
      if rest.isEmpty then .ok (before.toList ++ content)
      else decompressFrom (before ++ content) rest := by
  rw [decompressFrom]
  split
  · next hfault => rw [readMember_compress] at hfault; cases hfault
  · next hread =>
      rw [readMember_compress] at hread
      cases hread
      rw [Array.toList_appendList]

theorem decompress_compress (level : Nat) (content : Bytes) :
    decompress (compress level content) = .ok content := by
  have hmember := decompressFrom_compress #[] level content []
  rw [List.append_nil] at hmember
  exact hmember

theorem compress_ne_nil (level : Nat) (content : Bytes) : compress level content ≠ [] := by
  rw [compress, header, magic]
  simp

end Gzip
end FlowConfig
