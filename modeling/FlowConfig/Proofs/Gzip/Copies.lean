import FlowConfig.Proofs.Gzip.Token

/-!
# Tokens that are found

The tokens found for some data can be written, and applied one after the other
they produce the data.  Where copies are looked for, and how many places are
tried, has no influence on this: a copy is only taken after its bytes were
compared.
-/

namespace FlowConfig
namespace Gzip

/-!
# Comparing
-/

theorem commonLength_le (data : Array UInt8) (i j limit : Nat) :
    commonLength data i j limit ≤ limit := by
  induction limit generalizing i j with
  | zero => exact Nat.le_refl 0
  | succ limit ih =>
      rw [commonLength]
      split
      · split
        · exact Nat.succ_le_succ (ih (i + 1) (j + 1))
        · exact Nat.zero_le _
      · exact Nat.zero_le _

theorem exists_common_of_lt {data : Array UInt8} {i j limit k : Nat}
    (h : k < commonLength data i j limit) :
    exists b, data[i + k]? = some b ∧ data[j + k]? = some b := by
  induction limit generalizing i j k with
  | zero => cases h
  | succ limit ih =>
      rw [commonLength] at h
      split at h
      · next a b ha hb =>
          split at h
          · next heq =>
              cases k with
              | zero => exact ⟨a, ha, heq ▸ hb⟩
              | succ k =>
                  rcases ih (Nat.lt_of_succ_lt_succ h) with ⟨c, hi, hj⟩
                  rw [Nat.add_right_comm] at hi hj
                  exact ⟨c, hi, hj⟩
          · cases h
      · cases h

/-- At a place of the data, the next bytes are the same as some distance ago. -/
structure Repeats (data : Array UInt8) (i length distance : Nat) : Prop where
  near : 1 ≤ distance
  within : distance ≤ i
  same : forall k, k < length -> exists b, data[i + k]? = some b ∧ data[i - distance + k]? = some b

structure Copies (data : Array UInt8) (i : Nat) (copy : Nat × Nat) : Prop where
  longest : copy.1 ≤ longestCopy
  farthest : copy.2 ≤ farthestCopy
  repeats : Repeats data i copy.1 copy.2

theorem bestCopy_eq_none_or (data : Array UInt8) (i : Nat) (candidates : List Nat) :
    bestCopy data i candidates = (0, 0) ∨ Copies data i (bestCopy data i candidates) := by
  refine List.foldlRecOn (motive := fun best => best = (0, 0) ∨ Copies data i best)
    candidates _ (Or.inl rfl) ?_
  intro best hbest j _
  simp only
  split
  · next h =>
      rw [Bool.and_eq_true, Bool.and_eq_true, decide_eq_true_eq, decide_eq_true_eq,
        decide_eq_true_eq] at h
      obtain ⟨⟨_, hbefore⟩, hfar⟩ := h
      have hback : i - (i - j) = j := by omega
      refine Or.inr ⟨commonLength_le data i j longestCopy, hfar, ?_, Nat.sub_le i j, ?_⟩
      · show 1 ≤ i - j
        omega
      · intro k hk
        rw [hback]
        exact exists_common_of_lt hk
  · exact hbest

theorem copies_bestCopy {data : Array UInt8} {i : Nat} {candidates : List Nat}
    (h : leastCopy ≤ (bestCopy data i candidates).1) :
    Copies data i (bestCopy data i candidates) := by
  rcases bestCopy_eq_none_or data i candidates with hnone | hcopies
  · rw [hnone] at h
    cases h
  · exact hcopies

/-!
# Copying
-/

/-- The output so far is the data up to a place. -/
def Produces (data : Array UInt8) (i : Nat) (out : Output) : Prop :=
  out.toList = data.toList.take i

theorem produces_push {data : Array UInt8} {i : Nat} {out : Output} {b : UInt8}
    (h : Produces data i out) (hb : data[i]? = some b) : Produces data (i + 1) (out.push b) := by
  rw [Produces, Array.toList_push, h, List.take_add_one, Array.getElem?_toList, hb]
  rfl

theorem byteBack_of_produces {data : Array UInt8} {i distance : Nat} {out : Output} {b : UInt8}
    (h : Produces data i out) (hi : i < data.size) (hnear : 1 ≤ distance) (hwithin : distance ≤ i)
    (hb : data[i - distance]? = some b) : byteBack out distance = b := by
  have hsize : out.size = i := by
    rw [← Array.length_toList, h, List.length_take, Array.length_toList]
    omega
  have hlt : i - distance < i := by omega
  rw [byteBack, hsize, if_pos hwithin, ← Array.getElem?_toList, h, List.getElem?_take_of_lt hlt,
    Array.getElem?_toList, hb, Option.getD_some]

theorem produces_copyBytes {data : Array UInt8} {i length distance : Nat} {out : Output}
    (h : Produces data i out) (hrepeats : Repeats data i length distance) :
    Produces data (i + length) (copyBytes out distance length) := by
  induction length generalizing i out with
  | zero => exact h
  | succ length ih =>
      obtain ⟨hnear, hwithin, hsame⟩ := hrepeats
      rcases hsame 0 (Nat.zero_lt_succ length) with ⟨b, hb, hback⟩
      have hi : i < data.size := (Array.getElem?_eq_some_iff.mp hb).choose
      rw [copyBytes, byteBack_of_produces h hi hnear hwithin hback, Nat.add_comm length 1,
        ← Nat.add_assoc]
      apply ih (produces_push h hb)
      refine ⟨hnear, Nat.le_succ_of_le hwithin, ?_⟩
      intro k hk
      rcases hsame (k + 1) (Nat.succ_lt_succ hk) with ⟨c, hc, hcback⟩
      have hplace : i + 1 + k = i + (k + 1) := by omega
      have hsource : i + 1 - distance + k = i - distance + (k + 1) := by omega
      rw [hplace, hsource]
      exact ⟨c, hc, hcback⟩

/-!
# Tokens
-/

/-- The tokens can be written, and take output up to a place to all of the
data. -/
structure Completes (data : Array UInt8) (i : Nat) (ts : List Token) : Prop where
  fit : forall token, token ∈ ts -> token.Fits
  toList_foldl : forall out, Produces data i out ->
    (ts.foldl Token.apply out).toList = data.toList

theorem completes_cons {data : Array UInt8} {i next : Nat} {token : Token} {ts : List Token}
    (hfits : token.Fits) (happly : forall out, Produces data i out ->
      Produces data next (token.apply out))
    (h : Completes data next ts) : Completes data i (token :: ts) where
  fit := List.forall_mem_cons.mpr ⟨hfits, h.fit⟩
  toList_foldl := fun out hout => h.toList_foldl (token.apply out) (happly out hout)

theorem exists_tokensFrom (effort : Nat) (data : Array UInt8) (places : Places) (i : Nat)
    (before : List Token) :
    exists ts, tokensFrom effort data places i before = before.reverse ++ ts ∧
      Completes data i ts := by
  fun_induction tokensFrom effort data places i before with
  | case1 places i before hlt length distance hbest hleast ih =>
      rcases ih with ⟨ts, hts, hcompletes⟩
      have hcopies : Copies data i (length, distance) := by
        rw [← hbest]
        apply copies_bestCopy
        rw [hbest]
        exact hleast
      refine ⟨.copy length distance :: ts, ?_, completes_cons ?_ ?_ hcompletes⟩
      · rw [hts, List.reverse_cons, List.append_assoc]
        rfl
      · exact ⟨hleast, hcopies.longest, hcopies.repeats.near, hcopies.farthest⟩
      · exact fun out hout => produces_copyBytes hout hcopies.repeats
  | case2 places i before hlt length distance hbest hshort ih =>
      rcases ih with ⟨ts, hts, hcompletes⟩
      refine ⟨.literal data[i] :: ts, ?_, completes_cons trivial ?_ hcompletes⟩
      · rw [hts, List.reverse_cons, List.append_assoc]
        rfl
      · exact fun out hout => produces_push hout (Array.getElem?_eq_getElem hlt)
  | case3 places i before hend =>
      refine ⟨[], (List.append_nil _).symm, List.forall_mem_nil _, ?_⟩
      intro out hout
      have hall : data.toList.length ≤ i := by simpa using hend
      exact hout.trans (List.take_of_length_le hall)

theorem completes_tokens (effort : Nat) (data : Array UInt8) :
    Completes data 0 (tokens effort data) := by
  rcases exists_tokensFrom effort data ∅ 0 [] with ⟨ts, hts, hcompletes⟩
  rw [tokens, hts]
  exact hcompletes

end Gzip
end FlowConfig
