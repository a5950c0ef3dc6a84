import FlowConfig.Proofs.Gzip.Persistence
import Mathlib.Data.List.Forall2

/-!
# Files of members

A member is read as far as it goes and no further.  So members in a row are read
one after the other, and a member whose end was cut off is not read at all.
-/

namespace FlowConfig
namespace Gzip

/-- The file is a single member with the content, by whichever encoder. -/
def IsMember (content file : Bytes) : Prop :=
  readMember file = .ok (content, [])

theorem IsMember.ne_nil {content file : Bytes} (h : IsMember content file) : file ≠ [] :=
  List.ne_nil_of_length_pos (Nat.zero_lt_of_lt (length_of_readMember h))

/-- A member is read in front of any bytes, and these are left. -/
theorem readMember_append {content file : Bytes} (h : IsMember content file) (rest : Bytes) :
    readMember (file ++ rest) = .ok (content, rest) := by
  have hpersists := persists_readMember rest file
  rw [h] at hpersists
  exact hpersists.eq_grow

theorem decompressFrom_eq (before : Output) (bytes : Bytes) :
    decompressFrom before bytes =
      match readMember bytes with
      | .error fault => .error fault
      | .ok (content, rest) =>
          if rest.isEmpty then .ok (before ++ content).toList
          else decompressFrom (before ++ content) rest := by
  rw [decompressFrom]
  split
  · next h => rw [h]
  · next h => rw [h]

/-!
# Members in a row
-/

theorem decompressFrom_flatten {contents files : List Bytes}
    (h : List.Forall₂ IsMember contents files) (hfiles : files ≠ []) (before : Output) :
    decompressFrom before files.flatten = .ok (before.toList ++ contents.flatten) := by
  induction h generalizing before with
  | nil => exact absurd rfl hfiles
  | @cons content file contents files hmember hmore ih =>
      rw [List.flatten_cons, decompressFrom_eq, readMember_append hmember]
      cases hmore with
      | nil => simp
      | @cons _ next _ files hnext _ =>
          have hnonempty : (next :: files).flatten.isEmpty = false :=
            List.isEmpty_eq_false_iff.mpr (List.append_ne_nil_of_left_ne_nil hnext.ne_nil _)
          simp only [hnonempty, Bool.false_eq_true, if_false]
          rw [ih (List.cons_ne_nil _ _), Array.toList_appendList]
          simp only [List.flatten_cons, List.append_assoc]

/-!
# Members that were cut off
-/

theorem exists_fault_of_take {content file : Bytes} {n : Nat} (h : IsMember content file)
    (hn : n < file.length) :
    exists fault, fault.isEnd = true ∧ readMember (file.take n) = .error fault := by
  have hpersists := persists_readMember (file.drop n) (file.take n)
  rw [List.take_append_drop, h] at hpersists
  cases hread : readMember (file.take n) with
  | ok r =>
      -- the bytes that were cut off would have been left over
      rw [hread] at hpersists
      have hleft := congrArg Prod.snd (Except.ok.inj hpersists.eq_grow)
      have hdrop : file.drop n = [] := (List.append_eq_nil_iff.mp hleft.symm).right
      have hle := List.drop_eq_nil_iff.mp hdrop
      exact absurd hn (Nat.not_lt.mpr hle)
  | error fault =>
      rw [hread] at hpersists
      rcases hpersists.isEnd_or_eq with hend | hwhole
      · exact ⟨fault, hend, rfl⟩
      · cases hwhole

theorem exists_fault_decompress_take {content file : Bytes} {n : Nat} (h : IsMember content file)
    (hn : n < file.length) :
    exists fault, fault.isEnd = true ∧ decompress (file.take n) = .error fault := by
  rcases exists_fault_of_take h hn with ⟨fault, hend, hread⟩
  refine ⟨fault, hend, ?_⟩
  rw [decompress, decompressFrom_eq, hread]

end Gzip
end FlowConfig
