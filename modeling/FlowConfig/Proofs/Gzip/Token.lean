import FlowConfig.Proofs.Gzip.Huffman

/-!
# Tokens that were written

A token that can be written in the fixed codes is read back as itself, so a row
of tokens is read to the effect that it has when it is applied.
-/

namespace FlowConfig
namespace Gzip

open BitSource

/-!
# Ranges
-/

/-- Each range leaves no gap to the next one, and the last one reaches a limit. -/
def covers (limit : Nat) : List Range -> Bool
  | [] => false
  | [r] => limit ≤ r.base + 2 ^ r.extraBits
  | r :: next :: rest => next.base ≤ r.base + 2 ^ r.extraBits && covers limit (next :: rest)

theorem exists_range_of_covers {limit n : Nat} {first : Range} {rest : List Range}
    (hcovers : covers limit (first :: rest) = true) (hfirst : first.base ≤ n) (hn : n < limit) :
    exists r,
      (first :: rest)[((first :: rest).takeWhile fun r => r.base ≤ n).length - 1]? = some r ∧
        r.base ≤ n ∧ n < r.base + 2 ^ r.extraBits := by
  induction rest generalizing first with
  | nil =>
      refine ⟨first, ?_, hfirst, Nat.lt_of_lt_of_le hn (of_decide_eq_true hcovers)⟩
      simp [hfirst]
  | cons next rest ih =>
      rw [covers, Bool.and_eq_true, decide_eq_true_eq] at hcovers
      by_cases hnext : next.base ≤ n
      · rcases ih hcovers.right hnext with ⟨r, hget, hr⟩
        refine ⟨r, ?_, hr⟩
        rw [← hget]
        simp [hfirst, hnext]
      · refine ⟨first, ?_, hfirst, ?_⟩
        · simp [hfirst, hnext]
        · exact Nat.lt_of_lt_of_le (Nat.lt_of_not_le hnext) hcovers.left

structure RangesFor (table : Array Range) (least limit : Nat) : Prop where
  first : table.toList.head?.map Range.base = some least
  covered : covers limit table.toList = true

theorem rangesFor_lengths : RangesFor lengthRanges leastCopy (longestCopy + 1) :=
  ⟨by decide, by decide⟩

theorem rangesFor_distances : RangesFor distanceRanges 1 (farthestCopy + 1) :=
  ⟨by decide, by decide⟩

namespace RangesFor

variable {table : Array Range} {least limit n : Nat}

theorem exists_range (h : RangesFor table least limit) (hleast : least ≤ n) (hn : n < limit) :
    exists r, table[rangeIndex table n]? = some r ∧ r.base ≤ n ∧
      n < r.base + 2 ^ r.extraBits := by
  obtain ⟨hfirst, hcovered⟩ := h
  rw [← Array.getElem?_toList, rangeIndex]
  cases hlist : table.toList with
  | nil =>
      rw [hlist] at hfirst
      cases hfirst
  | cons first rest =>
      rw [hlist] at hfirst hcovered
      cases hfirst
      exact exists_range_of_covers hcovered hleast hn

theorem rangeIndex_lt (h : RangesFor table least limit) (hleast : least ≤ n) (hn : n < limit) :
    rangeIndex table n < table.size := by
  rcases h.exists_range hleast hn with ⟨r, hget, _⟩
  exact (Array.getElem?_eq_some_iff.mp hget).choose

/-- A number is read back from the bits that tell it from the others in its
range. -/
theorem exists_readInRange (h : RangesFor table least limit) (hleast : least ≤ n) (hn : n < limit)
    {more : List Bool} {rest : Bytes} {s : BitSource}
    (hs : s.Gives (extraBits table (rangeIndex table n) n ++ more) rest) :
    exists t, readInRange table (rangeIndex table n) s = .ok (n, t) ∧ t.Gives more rest := by
  rcases h.exists_range hleast hn with ⟨r, hget, hbase, hlt⟩
  rw [extraBits, hget] at hs
  rcases hs.exists_readBits (by omega) with ⟨t, hread, ht⟩
  refine ⟨t, ?_, ht⟩
  rw [readInRange, hget]
  simp only [hread]
  rw [Nat.add_sub_of_le hbase]

end RangesFor

/-!
# Tokens
-/

/-- The token can be written: a copy has a length and a distance within the
limits of the format. -/
def Token.Fits : Token -> Prop
  | .literal _ => True
  | .copy length distance =>
      leastCopy ≤ length ∧ length ≤ longestCopy ∧ 1 ≤ distance ∧ distance ≤ farthestCopy

theorem exists_readCopy {length distance : Nat} (hfits : (Token.copy length distance).Fits)
    {more : List Bool} {rest : Bytes} {s : BitSource}
    (hs : s.Gives (extraBits lengthRanges (rangeIndex lengthRanges length) length ++
      (distanceWord (rangeIndex distanceRanges distance) ++
        (extraBits distanceRanges (rangeIndex distanceRanges distance) distance ++ more))) rest) :
    exists t, readCopy fixedCodes (endOfBlock + 1 + rangeIndex lengthRanges length) s =
      .ok (.copy length distance, t) ∧ t.Gives more rest := by
  obtain ⟨hleast, hlongest, hnear, hfar⟩ := hfits
  have hshort : length < longestCopy + 1 := by omega
  have hclose : distance < farthestCopy + 1 := by omega
  have hsymbol : rangeIndex distanceRanges distance < 32 :=
    Nat.lt_trans (rangesFor_distances.rangeIndex_lt hnear hclose) (by decide)
  have hindex : endOfBlock + 1 + rangeIndex lengthRanges length - endOfBlock - 1 =
      rangeIndex lengthRanges length := by
    omega
  rcases rangesFor_lengths.exists_readInRange hleast hshort hs with
    ⟨t, hlength, ht⟩
  rcases exists_decode_distanceWord hsymbol ht with ⟨u, hdecode, hu⟩
  rcases rangesFor_distances.exists_readInRange hnear hclose hu with
    ⟨v, hdistance, hv⟩
  refine ⟨v, ?_, hv⟩
  unfold readCopy
  simp only [hindex, hlength, hdecode, hdistance]

theorem exists_readToken {token : Token} (hfits : token.Fits) {more : List Bool} {rest : Bytes}
    {s : BitSource} (hs : s.Gives (token.bits ++ more) rest) :
    exists t, readToken fixedCodes s = .ok (some token, t) ∧ t.Gives more rest := by
  cases token with
  | literal b =>
      have hbyte : b.toNat < endOfBlock := b.toNat_lt
      rcases exists_decode_literalWord (Nat.lt_trans hbyte (by decide)) hs with ⟨t, hdecode, ht⟩
      refine ⟨t, ?_, ht⟩
      rw [readToken, hdecode]
      simp only [hbyte, if_true, UInt8.ofNat_toNat]
  | copy length distance =>
      have hshort : length < longestCopy + 1 := by
        have hlongest := hfits.right.left
        omega
      have hindex := rangesFor_lengths.rangeIndex_lt hfits.left hshort
      have hsize : lengthRanges.size = 29 := by decide
      have hsymbol : endOfBlock + 1 + rangeIndex lengthRanges length < 288 := by
        rw [hsize] at hindex
        simp only [endOfBlock]
        omega
      have hnotByte : ¬ endOfBlock + 1 + rangeIndex lengthRanges length < endOfBlock := by omega
      have hnotEnd : endOfBlock + 1 + rangeIndex lengthRanges length ≠ endOfBlock := by omega
      simp only [Token.bits, List.append_assoc] at hs
      rcases exists_decode_literalWord hsymbol hs with ⟨t, hdecode, ht⟩
      rcases exists_readCopy hfits ht with ⟨u, hcopy, hu⟩
      refine ⟨u, ?_, hu⟩
      rw [readToken, hdecode]
      simp only [hnotByte, hnotEnd, if_false, hcopy]

theorem exists_readToken_end {more : List Bool} {rest : Bytes} {s : BitSource}
    (hs : s.Gives (literalWord endOfBlock ++ more) rest) :
    exists t, readToken fixedCodes s = .ok (none, t) ∧ t.Gives more rest := by
  rcases exists_decode_literalWord (by decide) hs with ⟨t, hdecode, ht⟩
  refine ⟨t, ?_, ht⟩
  rw [readToken, hdecode]
  simp only [Nat.lt_irrefl, if_false, if_true]

theorem exists_readTokens {ts : List Token} (hfits : forall token, token ∈ ts -> token.Fits)
    (out : Output) {more : List Bool} {rest : Bytes} {s : BitSource}
    (hs : s.Gives (ts.flatMap Token.bits ++ (literalWord endOfBlock ++ more)) rest) :
    exists t, readTokens fixedCodes out s = .ok (ts.foldl Token.apply out, t) ∧
      t.Gives more rest := by
  induction ts generalizing out s with
  | nil =>
      rw [List.flatMap_nil, List.nil_append] at hs
      rcases exists_readToken_end hs with ⟨t, hend, ht⟩
      refine ⟨t, ?_, ht⟩
      rw [readTokens]
      split
      · next hfault => rw [hend] at hfault; cases hfault
      · next hread =>
          rw [hend] at hread
          cases hread
          rfl
      · next hread => rw [hend] at hread; cases hread
  | cons token ts ih =>
      rw [List.flatMap_cons, List.append_assoc] at hs
      rcases exists_readToken (hfits token List.mem_cons_self) hs with ⟨t, htoken, ht⟩
      rcases ih (fun other hmem => hfits other (List.mem_cons_of_mem token hmem))
        (token.apply out) ht with ⟨u, hrest, hu⟩
      refine ⟨u, ?_, hu⟩
      rw [readTokens]
      split
      · next hfault => rw [htoken] at hfault; cases hfault
      · next hread => rw [htoken] at hread; cases hread
      · next hread =>
          rw [htoken] at hread
          cases hread
          exact hrest

end Gzip
end FlowConfig
