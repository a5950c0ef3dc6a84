import FlowConfig.Gzip.Member

/-!
# Reading when the bytes go on

Whatever is read of a compressed file is read from the front, and no byte behind
its end is looked at.  So an answer stays when bytes are added behind, with these
bytes among those that are left; and a fault stays as well, unless it was that the
bytes ended too early.
-/

namespace FlowConfig
namespace Gzip

variable {A R : Type}

/-- The answer for some bytes stays the answer when the bytes go on; what was left
has grown. -/
inductive Persists (grow : R -> R) : Except Fault R -> Except Fault R -> Prop where
  | ok (r : R) : Persists grow (.ok r) (.ok (grow r))
  | ended {fault : Fault} (hend : fault.isEnd = true) (long : Except Fault R) :
      Persists grow (.error fault) long
  | error (fault : Fault) : Persists grow (.error fault) (.error fault)

/-- What is read next depends on the answer, for some bytes as for the bytes that
go on. -/
@[elab_as_elim]
theorem Persists.elim {grow : R -> R} {motive : Except Fault R -> Except Fault R -> Prop}
    {short long : Except Fault R} (h : Persists grow short long)
    (ok : forall r, short = .ok r -> motive (.ok r) (.ok (grow r)))
    (ended : forall fault long, fault.isEnd = true -> motive (.error fault) long)
    (error : forall fault, motive (.error fault) (.error fault)) : motive short long := by
  cases h with
  | ok r => exact ok r rfl
  | ended hend long => exact ended _ long hend
  | error fault => exact error fault

theorem Persists.eq_grow {grow : R -> R} {r : R} {long : Except Fault R}
    (h : Persists grow (.ok r) long) : long = .ok (grow r) := by
  cases h
  rfl

theorem Persists.isEnd_or_eq {grow : R -> R} {fault : Fault} {long : Except Fault R}
    (h : Persists grow (.error fault) long) : fault.isEnd = true ∨ long = .error fault := by
  cases h with
  | ended hend _ => exact Or.inl hend
  | error _ => exact Or.inr rfl

/-!
# Bits
-/

namespace BitSource

def followedBy (s : BitSource) (more : Bytes) : BitSource :=
  ⟨s.begun, s.bytes ++ more⟩

def grow (more : Bytes) (r : A × BitSource) : A × BitSource :=
  (r.1, r.2.followedBy more)

theorem next?_followedBy {s t : BitSource} {bit : Bool} (h : s.next? = some (bit, t))
    (more : Bytes) : (s.followedBy more).next? = some (bit, t.followedBy more) := by
  obtain ⟨begun, bytes⟩ := s
  cases begun with
  | cons c begun =>
      cases h
      rfl
  | nil =>
      cases bytes with
      | nil => cases h
      | cons b bytes =>
          cases h
          rfl

theorem number?_followedBy {n value : Nat} {s t : BitSource} (h : s.number? n = some (value, t))
    (more : Bytes) : (s.followedBy more).number? n = some (value, t.followedBy more) := by
  induction n generalizing s value with
  | zero =>
      cases h
      rfl
  | succ n ih =>
      rw [number?] at h ⊢
      split at h
      · cases h
      · next hnext =>
          rw [next?_followedBy hnext]
          split at h
          · cases h
          · next hnumber =>
              cases h
              simp only [ih hnumber]

end BitSource

open BitSource

section

variable (more : Bytes)

theorem persists_readBits (n : Nat) (s : BitSource) :
    Persists (grow more) (readBits n s) (readBits n (s.followedBy more)) := by
  rw [readBits, readBits]
  cases hnumber : s.number? n with
  | none => exact .ended rfl _
  | some r =>
      obtain ⟨value, t⟩ := r
      rw [number?_followedBy hnumber]
      exact .ok (value, t)

theorem Tree.persists_decode (tree : Tree) (s : BitSource) :
    Persists (grow more) (tree.decode s) (tree.decode (s.followedBy more)) := by
  induction tree generalizing s with
  | missing => exact .error _
  | leaf symbol => exact .ok (symbol, s)
  | node zero one ihzero ihone =>
      rw [decode, decode]
      cases hnext : s.next? with
      | none => exact .ended rfl _
      | some r =>
          obtain ⟨bit, t⟩ := r
          rw [next?_followedBy hnext]
          cases bit with
          | false => exact ihzero t
          | true => exact ihone t

theorem Code.persists_decode (code : Code) (s : BitSource) :
    Persists (grow more) (code.decode s) (code.decode (s.followedBy more)) :=
  code.tree.persists_decode more s

/-!
# Tokens
-/

theorem persists_readInRange (table : Array Range) (index : Nat) (s : BitSource) :
    Persists (grow more) (readInRange table index s)
      (readInRange table index (s.followedBy more)) := by
  rw [readInRange, readInRange]
  cases table[index]? with
  | none => exact .error _
  | some range =>
      dsimp only
      refine (persists_readBits more range.extraBits s).elim ?_ (fun _ _ h => .ended h _)
        fun _ => .error _
      rintro ⟨extra, t⟩ _
      exact .ok (range.base + extra, t)

theorem persists_readCopy (codes : Codes) (symbol : Nat) (s : BitSource) :
    Persists (grow more) (readCopy codes symbol s)
      (readCopy codes symbol (s.followedBy more)) := by
  unfold readCopy
  generalize symbol - endOfBlock - 1 = index
  refine (persists_readInRange more lengthRanges index s).elim ?_ (fun _ _ h => .ended h _)
    fun _ => .error _
  rintro ⟨length, t⟩ _
  dsimp only [grow]
  refine (codes.distances.persists_decode more t).elim ?_ (fun _ _ h => .ended h _)
    fun _ => .error _
  rintro ⟨distanceSymbol, u⟩ _
  dsimp only [grow]
  refine (persists_readInRange more distanceRanges distanceSymbol u).elim ?_
    (fun _ _ h => .ended h _) fun _ => .error _
  rintro ⟨distance, v⟩ _
  exact .ok (Token.copy length distance, v)

theorem persists_readToken (codes : Codes) (s : BitSource) :
    Persists (grow more) (readToken codes s) (readToken codes (s.followedBy more)) := by
  unfold readToken
  refine (codes.literals.persists_decode more s).elim ?_ (fun _ _ h => .ended h _)
    fun _ => .error _
  rintro ⟨symbol, t⟩ _
  dsimp only [grow]
  by_cases hbyte : symbol < endOfBlock
  · rw [if_pos hbyte, if_pos hbyte]
    exact .ok (some (Token.literal (UInt8.ofNat symbol)), t)
  · by_cases hlast : symbol = endOfBlock
    · rw [if_neg hbyte, if_neg hbyte, if_pos hlast, if_pos hlast]
      exact .ok (none, t)
    · rw [if_neg hbyte, if_neg hbyte, if_neg hlast, if_neg hlast]
      have hcopy := persists_readCopy more codes symbol t
      generalize readCopy codes symbol t = short at hcopy ⊢
      generalize readCopy codes symbol (t.followedBy more) = long at hcopy ⊢
      cases hcopy with
      | ok r => exact .ok (some r.1, r.2)
      | ended hend _ => exact .ended hend _
      | error fault => exact .error fault

end

theorem readTokens_eq (codes : Codes) (out : Output) (s : BitSource) :
    readTokens codes out s =
      match readToken codes s with
      | .error fault => .error fault
      | .ok (none, s) => .ok (out, s)
      | .ok (some token, s) => readTokens codes (token.apply out) s := by
  rw [readTokens]
  split
  · next h => rw [h]
  · next h => rw [h]
  · next h => rw [h]

section

variable (more : Bytes)

theorem persists_readTokens (codes : Codes) (out : Output) (s : BitSource) :
    Persists (grow more) (readTokens codes out s)
      (readTokens codes out (s.followedBy more)) := by
  induction hsize : s.size using Nat.strongRecOn generalizing out s with
  | ind size ih =>
      rw [readTokens_eq, readTokens_eq codes out (s.followedBy more)]
      refine (persists_readToken more codes s).elim ?_ (fun _ _ h => .ended h _)
        fun _ => .error _
      rintro ⟨token, t⟩ hread
      cases token with
      | none => exact .ok (out, t)
      | some token =>
          have hless := size_of_readToken hread
          rw [hsize] at hless
          exact ih t.size hless (token.apply out) t rfl

/-!
# Codes
-/

theorem persists_readLengthLengths (n : Nat) (s : BitSource) :
    Persists (grow more) (readLengthLengths n s)
      (readLengthLengths n (s.followedBy more)) := by
  induction n generalizing s with
  | zero => exact .ok ([], s)
  | succ n ih =>
      unfold readLengthLengths
      refine (persists_readBits more 3 s).elim ?_ (fun _ _ h => .ended h _) fun _ => .error _
      rintro ⟨length, t⟩ _
      dsimp only [grow]
      refine (ih t).elim ?_ (fun _ _ h => .ended h _) fun _ => .error _
      rintro ⟨lengths, u⟩ _
      exact .ok (length :: lengths, u)

theorem persists_readRun (before : List Nat) (symbol : Nat) (s : BitSource) :
    Persists (grow more) (readRun before symbol s)
      (readRun before symbol (s.followedBy more)) := by
  have hpad : forall (least length : Nat) (r : Nat × BitSource), Persists (grow more)
      (.ok (List.replicate (least + r.1) length, r.2))
      (.ok (List.replicate (least + r.1) length, r.2.followedBy more)) :=
    fun least length r => .ok (List.replicate (least + r.1) length, r.2)
  unfold readRun
  dsimp only
  split
  · exact .ok ([symbol], s)
  · split
    · split
      · exact .error _
      · exact (persists_readBits more 2 s).elim (fun r _ => hpad 3 _ r) (fun _ _ h => .ended h _)
          fun _ => .error _
    · split
      · exact (persists_readBits more 3 s).elim (fun r _ => hpad 3 0 r) (fun _ _ h => .ended h _)
          fun _ => .error _
      · exact (persists_readBits more 7 s).elim (fun r _ => hpad 11 0 r)
          (fun _ _ h => .ended h _) fun _ => .error _

end

theorem readLengths_eq (code : Code) (total : Nat) (before : List Nat) (s : BitSource) :
    readLengths code total before s =
      if before.length < total then
        match code.decode s with
        | .error fault => .error fault
        | .ok (symbol, s) =>
            match readRun before symbol s with
            | .error fault => .error fault
            | .ok (lengths, s) => readLengths code total (lengths ++ before) s
      else if before.length = total then .ok (before.reverse, s)
      else .error .corrupt := by
  rw [readLengths]
  split
  · split
    · next h => rw [h]
    · next h =>
        rw [h]
        dsimp only
        split
        · next hrun => rw [hrun]
        · next hrun => rw [hrun]
  · rfl

section

variable (more : Bytes)

theorem persists_readLengths (code : Code) (total : Nat) (before : List Nat) (s : BitSource) :
    Persists (grow more) (readLengths code total before s)
      (readLengths code total before (s.followedBy more)) := by
  induction hsize : s.size using Nat.strongRecOn generalizing before s with
  | ind size ih =>
      rw [readLengths_eq, readLengths_eq code total before (s.followedBy more)]
      split
      · refine (code.persists_decode more s).elim ?_ (fun _ _ h => .ended h _)
          fun _ => .error _
        rintro ⟨symbol, t⟩ hsymbol
        dsimp only [grow]
        refine (persists_readRun more before symbol t).elim ?_ (fun _ _ h => .ended h _)
          fun _ => .error _
        rintro ⟨lengths, u⟩ hrun
        have hless := Code.size_of_decode hsymbol
        have hle := size_of_readRun hrun
        exact ih u.size (by omega) (lengths ++ before) u rfl
      · split
        · exact .ok (before.reverse, s)
        · exact .error _

theorem persists_readCodeSizes (s : BitSource) :
    Persists (grow more) (readCodeSizes s) (readCodeSizes (s.followedBy more)) := by
  unfold readCodeSizes
  refine (persists_readBits more 5 s).elim ?_ (fun _ _ h => .ended h _) fun _ => .error _
  rintro ⟨literals, t⟩ _
  dsimp only [grow]
  refine (persists_readBits more 5 t).elim ?_ (fun _ _ h => .ended h _) fun _ => .error _
  rintro ⟨distances, u⟩ _
  dsimp only [grow]
  refine (persists_readBits more 4 u).elim ?_ (fun _ _ h => .ended h _) fun _ => .error _
  rintro ⟨lengths, v⟩ _
  dsimp only [grow]
  split
  · exact .ok (CodeSizes.mk (literals + 257) (distances + 1) (lengths + 4), v)
  · exact .error _

theorem persists_readCodes (s : BitSource) :
    Persists (grow more) (readCodes s) (readCodes (s.followedBy more)) := by
  unfold readCodes
  refine (persists_readCodeSizes more s).elim ?_ (fun _ _ h => .ended h _) fun _ => .error _
  rintro ⟨sizes, t⟩ _
  dsimp only [grow]
  refine (persists_readLengthLengths more sizes.lengths t).elim ?_ (fun _ _ h => .ended h _)
    fun _ => .error _
  rintro ⟨given, u⟩ _
  dsimp only [grow]
  split
  · refine (persists_readLengths more _ _ [] u).elim ?_ (fun _ _ h => .ended h _)
      fun _ => .error _
    rintro ⟨lengths, v⟩ _
    dsimp only [grow]
    cases codesOfLengths sizes lengths with
    | error fault => exact .error fault
    | ok codes => exact .ok (codes, v)
  · exact .error _

/-!
# Blocks
-/

theorem splitBytes_append_of_some {n : Nat} {bytes front rest : Bytes}
    (h : splitBytes n bytes = some (front, rest)) :
    splitBytes n (bytes ++ more) = some (front, rest ++ more) := by
  rw [splitBytes] at h
  split at h
  · next hle =>
      have hlong : n ≤ (bytes ++ more).length := by
        rw [List.length_append]
        exact Nat.le_add_right_of_le hle
      rw [List.splitAt_eq] at h
      cases h
      rw [splitBytes, if_pos hlong, List.splitAt_eq, List.take_append_of_le_length hle,
        List.drop_append_of_le_length hle]
  · cases h

theorem persists_readStored (out : Output) (s : BitSource) :
    Persists (grow more) (readStored out s) (readStored out (s.followedBy more)) := by
  rw [readStored, readStored]
  cases hhead : splitBytes 4 s.align with
  | none => exact .ended rfl _
  | some r =>
      obtain ⟨head, rest⟩ := r
      have hlong : splitBytes 4 (s.followedBy more).align = some (head, rest ++ more) :=
        splitBytes_append_of_some more hhead
      rw [hlong]
      dsimp only
      split
      · cases hcontent : splitBytes (ofLittleEndian (head.take 2)) rest with
        | none => exact .ended rfl _
        | some r =>
            obtain ⟨content, left⟩ := r
            rw [splitBytes_append_of_some more hcontent]
            exact .ok (out ++ content, ofBytes left)
      · exact .error _

theorem persists_readContent (kind : Nat) (out : Output) (s : BitSource) :
    Persists (grow more) (readContent kind out s)
      (readContent kind out (s.followedBy more)) := by
  unfold readContent
  split
  · exact persists_readStored more out s
  · exact persists_readTokens more fixedCodes out s
  · refine (persists_readCodes more s).elim ?_ (fun _ _ h => .ended h _) fun _ => .error _
    rintro ⟨codes, t⟩ _
    exact persists_readTokens more codes out t
  · exact .error _

theorem persists_readBlock (out : Output) (s : BitSource) :
    Persists (grow more) (readBlock out s) (readBlock out (s.followedBy more)) := by
  unfold readBlock
  refine (persists_readBits more 1 s).elim ?_ (fun _ _ h => .ended h _) fun _ => .error _
  rintro ⟨last, t⟩ _
  dsimp only [grow]
  refine (persists_readBits more 2 t).elim ?_ (fun _ _ h => .ended h _) fun _ => .error _
  rintro ⟨kind, u⟩ _
  dsimp only [grow]
  refine (persists_readContent more kind out u).elim ?_ (fun _ _ h => .ended h _)
    fun _ => .error _
  rintro ⟨final, v⟩ _
  exact .ok ((last == 1, final), v)

end

theorem readBlocks_eq (out : Output) (s : BitSource) :
    readBlocks out s =
      match readBlock out s with
      | .error fault => .error fault
      | .ok ((true, out), s) => .ok (out, s)
      | .ok ((false, out), s) => readBlocks out s := by
  rw [readBlocks]
  split
  · next h => rw [h]
  · next h => rw [h]
  · next h => rw [h]

section

variable (more : Bytes)

theorem persists_readBlocks (out : Output) (s : BitSource) :
    Persists (grow more) (readBlocks out s) (readBlocks out (s.followedBy more)) := by
  induction hsize : s.size using Nat.strongRecOn generalizing out s with
  | ind size ih =>
      rw [readBlocks_eq, readBlocks_eq out (s.followedBy more)]
      refine (persists_readBlock more out s).elim ?_ (fun _ _ h => .ended h _)
        fun _ => .error _
      rintro ⟨⟨last, next⟩, t⟩ hread
      cases last with
      | true => exact .ok (next, t)
      | false =>
          have hless := size_of_readBlock hread
          rw [hsize] at hless
          exact ih t.size hless next t rfl

/-!
# Members

From here on what is left are bytes.
-/

def growRest (r : A × Bytes) : A × Bytes :=
  (r.1, r.2 ++ more)

theorem persists_inflate (bytes : Bytes) :
    Persists (growRest more) (inflate bytes) (inflate (bytes ++ more)) := by
  unfold inflate
  have hsource : ofBytes (bytes ++ more) = (ofBytes bytes).followedBy more := rfl
  rw [hsource]
  refine (persists_readBlocks more #[] (ofBytes bytes)).elim ?_ (fun _ _ h => .ended h _)
    fun _ => .error _
  rintro ⟨out, t⟩ _
  exact .ok (out, t.align)

theorem persists_takeExactly (n : Nat) (bytes : Bytes) :
    Persists (growRest more) (takeExactly n bytes) (takeExactly n (bytes ++ more)) := by
  rw [takeExactly, takeExactly]
  cases hsplit : splitBytes n bytes with
  | none => exact .ended rfl _
  | some r =>
      obtain ⟨front, rest⟩ := r
      rw [splitBytes_append_of_some more hsplit]
      exact .ok (front, rest)

theorem persists_readFixedHeader (bytes : Bytes) :
    Persists (growRest more) (readFixedHeader bytes) (readFixedHeader (bytes ++ more)) := by
  unfold readFixedHeader
  refine (persists_takeExactly more fixedHeaderLength bytes).elim ?_ (fun _ _ h => .ended h _)
    fun _ => .error _
  rintro ⟨head, rest⟩ _
  dsimp only [growRest]
  split
  · split
    · exact .ok (_, rest)
    · exact .error _
  · exact .error _

theorem persists_skipExtra (bytes : Bytes) :
    Persists (· ++ more) (skipExtra bytes) (skipExtra (bytes ++ more)) := by
  unfold skipExtra
  refine (persists_takeExactly more 2 bytes).elim ?_ (fun _ _ h => .ended h _) fun _ => .error _
  rintro ⟨head, rest⟩ _
  dsimp only [growRest]
  refine (persists_takeExactly more (ofLittleEndian head) rest).elim ?_
    (fun _ _ h => .ended h _) fun _ => .error _
  rintro ⟨extra, left⟩ _
  exact .ok left

theorem persists_skipText (room : Nat) (bytes : Bytes) :
    Persists (· ++ more) (skipText room bytes) (skipText room (bytes ++ more)) := by
  induction bytes generalizing room with
  | nil =>
      unfold skipText
      exact .ended rfl _
  | cons b rest ih =>
      rw [List.cons_append]
      unfold skipText
      split
      · exact .ok rest
      · cases room with
        | zero => exact .error _
        | succ room => exact ih room

theorem persists_checkHeader (header bytes : Bytes) :
    Persists (· ++ more) (checkHeader header bytes)
      (checkHeader (header ++ more) (bytes ++ more)) := by
  have hbefore : (header ++ more).take ((header ++ more).length - (bytes ++ more).length) =
      header.take (header.length - bytes.length) := by
    rw [List.length_append, List.length_append, Nat.add_sub_add_right,
      List.take_append_of_le_length (Nat.sub_le _ _)]
  unfold checkHeader
  rw [hbefore]
  dsimp only
  refine (persists_takeExactly more 2 bytes).elim ?_ (fun _ _ h => .ended h _) fun _ => .error _
  rintro ⟨sum, rest⟩ _
  dsimp only [growRest]
  split
  · exact .ok rest
  · exact .error _

theorem persists_skipField (present : Bool) {skip skip' : Bytes -> Except Fault Bytes}
    (hskip : forall bytes, Persists (· ++ more) (skip bytes) (skip' (bytes ++ more)))
    (bytes : Bytes) :
    Persists (· ++ more) (skipField present skip bytes)
      (skipField present skip' (bytes ++ more)) := by
  cases present with
  | false => exact .ok bytes
  | true => exact hskip bytes

theorem persists_readHeader (bytes : Bytes) :
    Persists (· ++ more) (readHeader bytes) (readHeader (bytes ++ more)) := by
  unfold readHeader
  refine (persists_readFixedHeader more bytes).elim ?_ (fun _ _ h => .ended h _)
    fun _ => .error _
  rintro ⟨flags, fields⟩ _
  dsimp only [growRest]
  refine (persists_skipField more _ (persists_skipExtra more) fields).elim ?_
    (fun _ _ h => .ended h _) fun _ => .error _
  intro names _
  dsimp only
  refine (persists_skipField more _ (persists_skipText more longestText) names).elim ?_
    (fun _ _ h => .ended h _) fun _ => .error _
  intro comments _
  dsimp only
  refine (persists_skipField more _ (persists_skipText more longestText) comments).elim ?_
    (fun _ _ h => .ended h _) fun _ => .error _
  intro sums _
  exact persists_skipField more _ (persists_checkHeader more bytes) sums

theorem persists_readTrailer (content bytes : Bytes) :
    Persists (· ++ more) (readTrailer content bytes) (readTrailer content (bytes ++ more)) := by
  unfold readTrailer
  refine (persists_takeExactly more trailerLength bytes).elim ?_ (fun _ _ h => .ended h _)
    fun _ => .error _
  rintro ⟨given, rest⟩ _
  dsimp only [growRest]
  split
  · exact .ok rest
  · exact .error _

theorem persists_readMember (bytes : Bytes) :
    Persists (growRest more) (readMember bytes) (readMember (bytes ++ more)) := by
  unfold readMember
  refine (persists_readHeader more bytes).elim ?_ (fun _ _ h => .ended h _) fun _ => .error _
  intro body _
  dsimp only
  refine (persists_inflate more body).elim ?_ (fun _ _ h => .ended h _) fun _ => .error _
  rintro ⟨out, behind⟩ _
  dsimp only [growRest]
  refine (persists_readTrailer more out.toList behind).elim ?_ (fun _ _ h => .ended h _)
    fun _ => .error _
  intro rest _
  exact .ok (out.toList, rest)

end

end Gzip
end FlowConfig
