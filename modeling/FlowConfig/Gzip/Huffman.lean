import FlowConfig.Gzip.Bits
import FlowConfig.Gzip.Fault

/-!
# Prefix codes

A code is a binary tree with symbols at its leaves.  It is given by the length
of each symbol's code word: symbols are placed from left to right, shorter words
first, and among words of one length in the order of the symbols.
-/

namespace FlowConfig
namespace Gzip

inductive Tree where
  | missing
  | leaf (symbol : Nat)
  | node (zero one : Tree)
deriving DecidableEq, Repr

namespace Tree

def decode : Tree -> BitSource -> Except Fault (Nat × BitSource)
  | missing, _ => .error .corrupt
  | leaf symbol, s => .ok (symbol, s)
  | node zero one, s =>
      match s.next? with
      | none => .error .incomplete
      | some (false, s) => zero.decode s
      | some (true, s) => one.decode s

theorem size_of_decode {tree : Tree} {s t : BitSource} {symbol : Nat}
    (h : tree.decode s = .ok (symbol, t)) :
    t.size ≤ s.size := by
  induction tree generalizing s with
  | missing => cases h
  | leaf _ =>
      simp only [decode, Except.ok.injEq, Prod.mk.injEq] at h
      exact Nat.le_of_eq (congrArg BitSource.size h.right.symm)
  | node zero one ihzero ihone =>
      simp only [decode] at h
      split at h
      · cases h
      · next hnext =>
          have hbit := BitSource.size_of_next? hnext
          have hrest := ihzero h
          omega
      · next hnext =>
          have hbit := BitSource.size_of_next? hnext
          have hrest := ihone h
          omega

def word? (symbol : Nat) : Tree -> Option (List Bool)
  | missing => none
  | leaf other => if other = symbol then some [] else none
  | node zero one =>
      match zero.word? symbol with
      | some word => some (false :: word)
      | none => (one.word? symbol).map (true :: ·)

/-- Builds the subtree at a depth, with room for words that are longer by
`room`, from words in order; also gives the words that are left. -/
def build : Nat -> Nat -> List (Nat × Nat) -> Tree × List (Nat × Nat)
  | _, _, [] => (missing, [])
  | 0, depth, (length, symbol) :: rest =>
      if length = depth then (leaf symbol, rest) else (missing, (length, symbol) :: rest)
  | room + 1, depth, (length, symbol) :: rest =>
      if length = depth then (leaf symbol, rest)
      else
        let (zero, rest) := build room (depth + 1) ((length, symbol) :: rest)
        let (one, rest) := build room (depth + 1) rest
        (node zero one, rest)

end Tree

/-- A code whose words have at least one bit. -/
structure Code where
  zero : Tree
  one : Tree
deriving DecidableEq, Repr

def maxWordLength : Nat := 15

namespace Code

def tree (c : Code) : Tree :=
  .node c.zero c.one

def decode (c : Code) (s : BitSource) : Except Fault (Nat × BitSource) :=
  c.tree.decode s

theorem size_of_decode {c : Code} {s t : BitSource} {symbol : Nat}
    (h : c.decode s = .ok (symbol, t)) :
    t.size < s.size := by
  simp only [decode, tree, Tree.decode] at h
  split at h
  · cases h
  · next hnext =>
      have hbit := BitSource.size_of_next? hnext
      have hrest := Tree.size_of_decode h
      omega
  · next hnext =>
      have hbit := BitSource.size_of_next? hnext
      have hrest := Tree.size_of_decode h
      omega

/-- Symbols with the lengths of their words, in the order of the words. -/
def orderedWords (lengths : List Nat) : List (Nat × Nat) :=
  (lengths.zipIdx.filter fun w => w.1 != 0).mergeSort fun v w => v.1 ≤ w.1

def ofLengths (lengths : List Nat) : Code :=
  let words := orderedWords lengths
  let (zero, rest) := Tree.build (maxWordLength - 1) 1 words
  let (one, _) := Tree.build (maxWordLength - 1) 1 rest
  ⟨zero, one⟩

end Code

/-- The words of these lengths leave no sequence of bits without a meaning, and
no word begins another. -/
def isComplete (lengths : List Nat) : Bool :=
  (lengths.filter (· != 0)).foldl (fun share l => share + (1 <<< (maxWordLength - l))) 0
    == 1 <<< maxWordLength

/-- Besides complete codes there may be codes without words, and codes with a
single word of one bit. -/
def isUsable (lengths : List Nat) : Bool :=
  let words := lengths.filter (· != 0)
  isComplete lengths || words == [] || words == [1]

end Gzip
end FlowConfig
