import FlowConfig.Gzip.Token

/-!
# Codes of a block

A block is written in fixed codes, or brings its own.  Codes of its own are
given by their word lengths, which are themselves written in a code.
-/

namespace FlowConfig
namespace Gzip

def fixedLiteralLengths : List Nat :=
  List.replicate 144 8 ++ List.replicate 112 9 ++ List.replicate 24 7 ++ List.replicate 8 8

def fixedDistanceLengths : List Nat :=
  List.replicate 32 5

def fixedCodes : Codes :=
  ⟨Code.ofLengths fixedLiteralLengths, Code.ofLengths fixedDistanceLengths⟩

/-- The order in which a block gives the word lengths of the code for word
lengths. -/
def lengthOrder : List Nat :=
  [16, 17, 18, 0, 8, 7, 9, 6, 10, 5, 11, 4, 12, 3, 13, 2, 14, 1, 15]

def readLengthLengths : Nat -> BitSource -> Except Fault (List Nat × BitSource)
  | 0, s => .ok ([], s)
  | n + 1, s =>
      match readBits 3 s with
      | .error fault => .error fault
      | .ok (length, s) =>
          match readLengthLengths n s with
          | .error fault => .error fault
          | .ok (lengths, s) => .ok (length :: lengths, s)

theorem size_of_readLengthLengths {n : Nat} {lengths : List Nat} {s t : BitSource}
    (h : readLengthLengths n s = .ok (lengths, t)) :
    t.size ≤ s.size := by
  induction n generalizing s lengths with
  | zero =>
      simp only [readLengthLengths, Except.ok.injEq, Prod.mk.injEq] at h
      exact Nat.le_of_eq (congrArg BitSource.size h.right.symm)
  | succ n ih =>
      simp only [readLengthLengths] at h
      split at h
      · cases h
      · next hbits =>
          split at h
          · cases h
          · next hrest =>
              simp only [Except.ok.injEq, Prod.mk.injEq] at h
              rw [h.right] at hrest
              have h1 := size_of_readBits hbits
              have h2 := ih hrest
              omega

def arrangeLengths (lengths : List Nat) : List Nat :=
  (List.range lengthOrder.length).map fun symbol =>
    ((lengthOrder.zip lengths).lookup symbol).getD 0

/-- The word lengths that a symbol stands for, after those in `before`, which
are latest first. -/
def readRun (before : List Nat) (symbol : Nat) (s : BitSource) :
    Except Fault (List Nat × BitSource) :=
  let run (bits least length : Nat) : Except Fault (List Nat × BitSource) :=
    match readBits bits s with
    | .error fault => .error fault
    | .ok (n, s) => .ok (List.replicate (least + n) length, s)
  if symbol < 16 then .ok ([symbol], s)
  else if symbol = 16 then
    match before with
    | [] => .error .corrupt
    | length :: _ => run 2 3 length
  else if symbol = 17 then run 3 3 0
  else run 7 11 0

theorem size_of_readRun {before lengths : List Nat} {symbol : Nat} {s t : BitSource}
    (h : readRun before symbol s = .ok (lengths, t)) :
    t.size ≤ s.size := by
  have hrun : forall {bits least length : Nat},
      (match readBits bits s with
        | .error fault => Except.error fault
        | .ok (n, s) => .ok (List.replicate (least + n) length, s)) = .ok (lengths, t) ->
      t.size ≤ s.size := by
    intro bits least length h
    split at h
    · cases h
    · next hbits =>
        have hsize := size_of_readBits hbits
        simp only [Except.ok.injEq, Prod.mk.injEq] at h
        rw [← h.right]
        omega
  simp only [readRun] at h
  split at h
  · simp only [Except.ok.injEq, Prod.mk.injEq] at h
    exact Nat.le_of_eq (congrArg BitSource.size h.right.symm)
  · split at h
    · split at h
      · cases h
      · exact hrun h
    · split at h
      · exact hrun h
      · exact hrun h

/-- Word lengths until there are `total` of them.  A run may not go past. -/
def readLengths (code : Code) (total : Nat) (before : List Nat) (s : BitSource) :
    Except Fault (List Nat × BitSource) :=
  if before.length < total then
    match _h : code.decode s with
    | .error fault => .error fault
    | .ok (symbol, s) =>
        match _hrun : readRun before symbol s with
        | .error fault => .error fault
        | .ok (lengths, s) => readLengths code total (lengths ++ before) s
  else if before.length = total then .ok (before.reverse, s)
  else .error .corrupt
termination_by s.size
decreasing_by
  have h1 := Code.size_of_decode _h
  have h2 := size_of_readRun _hrun
  omega

theorem size_of_readLengths {code : Code} {total : Nat} {before lengths : List Nat}
    {s t : BitSource} (h : readLengths code total before s = .ok (lengths, t)) :
    t.size ≤ s.size := by
  fun_induction readLengths code total before s with
  | case1 => cases h
  | case2 => cases h
  | case3 _ _ _ _ _ hsymbol _ _ hrun ih =>
      have h1 := Code.size_of_decode hsymbol
      have h2 := size_of_readRun hrun
      have h3 := ih h
      omega
  | case4 =>
      simp only [Except.ok.injEq, Prod.mk.injEq] at h
      exact Nat.le_of_eq (congrArg BitSource.size h.right.symm)
  | case5 => cases h

structure CodeSizes where
  literals : Nat
  distances : Nat
  lengths : Nat
deriving DecidableEq, Repr

def readCodeSizes (s : BitSource) : Except Fault (CodeSizes × BitSource) :=
  match readBits 5 s with
  | .error fault => .error fault
  | .ok (literals, s) =>
      match readBits 5 s with
      | .error fault => .error fault
      | .ok (distances, s) =>
          match readBits 4 s with
          | .error fault => .error fault
          | .ok (lengths, s) =>
              if literals + 257 ≤ 286 && distances + 1 ≤ 30 then
                .ok (⟨literals + 257, distances + 1, lengths + 4⟩, s)
              else .error .corrupt

theorem size_of_readCodeSizes {sizes : CodeSizes} {s t : BitSource}
    (h : readCodeSizes s = .ok (sizes, t)) :
    t.size ≤ s.size := by
  unfold readCodeSizes at h
  split at h
  · cases h
  · next h1 =>
      split at h
      · cases h
      · next h2 =>
          split at h
          · cases h
          · next h3 =>
              have h1 := size_of_readBits h1
              have h2 := size_of_readBits h2
              have h3 := size_of_readBits h3
              split at h
              · simp only [Except.ok.injEq, Prod.mk.injEq] at h
                rw [← h.right]
                omega
              · cases h

def codesOfLengths (sizes : CodeSizes) (lengths : List Nat) : Except Fault Codes :=
  let literals := lengths.take sizes.literals
  let distances := lengths.drop sizes.literals
  if isUsable literals && isUsable distances then
    .ok ⟨Code.ofLengths literals, Code.ofLengths distances⟩
  else .error .corrupt

def readCodes (s : BitSource) : Except Fault (Codes × BitSource) :=
  match readCodeSizes s with
  | .error fault => .error fault
  | .ok (sizes, s) =>
      match readLengthLengths sizes.lengths s with
      | .error fault => .error fault
      | .ok (given, s) =>
          let lengthLengths := arrangeLengths given
          if isComplete lengthLengths then
            match readLengths (Code.ofLengths lengthLengths) (sizes.literals + sizes.distances)
                [] s with
            | .error fault => .error fault
            | .ok (lengths, s) =>
                match codesOfLengths sizes lengths with
                | .error fault => .error fault
                | .ok codes => .ok (codes, s)
          else .error .corrupt

theorem size_of_readCodes {codes : Codes} {s t : BitSource} (h : readCodes s = .ok (codes, t)) :
    t.size ≤ s.size := by
  unfold readCodes at h
  split at h
  · cases h
  · next h1 =>
      split at h
      · cases h
      · next h2 =>
          simp only at h
          split at h
          · split at h
            · cases h
            · next h3 =>
                split at h
                · cases h
                · have h1 := size_of_readCodeSizes h1
                  have h2 := size_of_readLengthLengths h2
                  have h3 := size_of_readLengths h3
                  simp only [Except.ok.injEq, Prod.mk.injEq] at h
                  rw [← h.right]
                  omega
          · cases h

end Gzip
end FlowConfig
