import FlowConfig.Gzip.Deflate
import FlowConfig.Proofs.Gzip.Bits
import Mathlib.Data.List.Sort

/-!
# Words of a code

The word of a symbol leads back to the symbol.  In the fixed codes every symbol
that can be written has a word.
-/

namespace FlowConfig
namespace Gzip

open BitSource

theorem Tree.exists_decode {tree : Tree} {symbol : Nat} {word more : List Bool} {rest : Bytes}
    {s : BitSource} (hword : tree.word? symbol = some word) (h : s.Gives (word ++ more) rest) :
    exists t, tree.decode s = .ok (symbol, t) ∧ t.Gives more rest := by
  induction tree generalizing s word with
  | missing => cases hword
  | leaf other =>
      rw [word?] at hword
      split at hword
      · next heq =>
          cases hword
          rw [← heq]
          exact ⟨s, rfl, h⟩
      · cases hword
  | node zero one ihzero ihone =>
      rw [word?] at hword
      split at hword
      · next inner hinner =>
          cases hword
          rcases h.exists_next? with ⟨t, hnext, ht⟩
          rcases ihzero hinner ht with ⟨u, hdecode, hu⟩
          refine ⟨u, ?_, hu⟩
          rw [decode, hnext]
          exact hdecode
      · rcases Option.map_eq_some_iff.mp hword with ⟨inner, hinner, rfl⟩
        rcases h.exists_next? with ⟨t, hnext, ht⟩
        rcases ihone hinner ht with ⟨u, hdecode, hu⟩
        refine ⟨u, ?_, hu⟩
        rw [decode, hnext]
        exact hdecode

def Tree.symbols : Tree -> List Nat
  | missing => []
  | leaf symbol => [symbol]
  | node zero one => zero.symbols ++ one.symbols

theorem Tree.exists_word? {tree : Tree} {symbol : Nat} (h : symbol ∈ tree.symbols) :
    exists word, tree.word? symbol = some word := by
  induction tree with
  | missing => cases h
  | leaf other =>
      cases List.mem_singleton.mp h
      exact ⟨[], if_pos rfl⟩
  | node zero one ihzero ihone =>
      rw [word?]
      cases hzero : zero.word? symbol with
      | some word => exact ⟨false :: word, rfl⟩
      | none =>
          rcases List.mem_append.mp h with hmem | hmem
          · rcases ihzero hmem with ⟨word, hword⟩
            rw [hzero] at hword
            cases hword
          · rcases ihone hmem with ⟨word, hword⟩
            exact ⟨true :: word, by rw [hword]; rfl⟩

/-!
# Words in order

Words of one length keep the order of their symbols, so sorting them by insertion
gives the same code.
-/

theorem mergeSort_eq_insertionSort_of_stable {A : Type} {r : A -> A -> Prop} [DecidableRel r]
    (trans : forall a b c, r a b -> r b c -> r a c) (total : forall a b, r a b ∨ r b a)
    (as : List A) : as.mergeSort (fun a b => decide (r a b)) = as.insertionSort r := by
  have htrans : forall a b c, decide (r a b) = true -> decide (r b c) = true ->
      decide (r a c) = true := by
    simpa only [decide_eq_true_eq] using trans
  have htotal : forall a b, (decide (r a b) || decide (r b a)) = true := by
    simpa only [Bool.or_eq_true, decide_eq_true_eq] using total
  induction as with
  | nil => exact List.mergeSort_nil
  | cons a as ih =>
      rcases List.mergeSort_cons htrans htotal a as with ⟨front, back, hcons, hrest, hfront⟩
      have hsorted := List.pairwise_mergeSort htrans htotal (a :: as)
      rw [hcons] at hsorted
      rw [hcons, List.insertionSort_cons, ← ih, hrest]
      clear hcons hrest ih
      induction front with
      | nil =>
          cases back with
          | nil => rfl
          | cons b back =>
              have hab := List.rel_of_pairwise_cons hsorted List.mem_cons_self
              exact (List.orderedInsert_cons_of_le r back (of_decide_eq_true hab)).symm
      | cons b front ih =>
          have hb : ¬ r a b := by
            have hb := hfront b List.mem_cons_self
            simpa using hb
          have hmore := ih (fun c hc => hfront c (List.mem_cons_of_mem b hc))
            (List.pairwise_cons.mp hsorted).right
          rw [List.cons_append, List.cons_append, List.orderedInsert_of_not_le r _ hb, hmore]

theorem orderedWords_eq_insertionSort (lengths : List Nat) :
    Code.orderedWords lengths =
      (lengths.zipIdx.filter fun w => w.1 != 0).insertionSort fun v w => v.1 ≤ w.1 := by
  apply mergeSort_eq_insertionSort_of_stable
  · intro u v w huv hvw
    exact Nat.le_trans huv hvw
  · intro v w
    exact Nat.le_total v.1 w.1

/-!
# Fixed codes
-/

theorem getD_words {code : Code} {count symbol : Nat} (h : symbol < count) :
    (words code count)[symbol]?.getD [] = (code.tree.word? symbol).getD [] := by
  simp [words, h]

theorem symbols_fixedLiterals :
    fixedCodes.literals.tree.symbols =
      List.range' 256 24 ++ List.range 144 ++ List.range' 280 8 ++ List.range' 144 112 := by
  rw [fixedCodes, Code.ofLengths, orderedWords_eq_insertionSort]
  decide +kernel

theorem symbols_fixedDistances : fixedCodes.distances.tree.symbols = List.range 32 := by
  rw [fixedCodes, Code.ofLengths, Code.ofLengths, orderedWords_eq_insertionSort,
    orderedWords_eq_insertionSort]
  decide +kernel

theorem exists_decode_literalWord {symbol : Nat} (hsymbol : symbol < 288) {more : List Bool}
    {rest : Bytes} {s : BitSource} (h : s.Gives (literalWord symbol ++ more) rest) :
    exists t, fixedCodes.literals.decode s = .ok (symbol, t) ∧ t.Gives more rest := by
  have hmem : symbol ∈ fixedCodes.literals.tree.symbols := by
    rw [symbols_fixedLiterals]
    simp only [List.mem_append, List.mem_range'_1, List.mem_range]
    omega
  rcases Tree.exists_word? hmem with ⟨word, hword⟩
  rw [literalWord, literalWords, getD_words hsymbol, hword] at h
  exact Tree.exists_decode hword h

theorem exists_decode_distanceWord {symbol : Nat} (hsymbol : symbol < 32) {more : List Bool}
    {rest : Bytes} {s : BitSource} (h : s.Gives (distanceWord symbol ++ more) rest) :
    exists t, fixedCodes.distances.decode s = .ok (symbol, t) ∧ t.Gives more rest := by
  have hmem : symbol ∈ fixedCodes.distances.tree.symbols := by
    rw [symbols_fixedDistances]
    exact List.mem_range.mpr hsymbol
  rcases Tree.exists_word? hmem with ⟨word, hword⟩
  rw [distanceWord, distanceWords, getD_words hsymbol, hword] at h
  exact Tree.exists_decode hword h

end Gzip
end FlowConfig
