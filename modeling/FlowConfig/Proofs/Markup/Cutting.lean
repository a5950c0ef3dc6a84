import FlowConfig.Markup.Piece

/-!
# Cutting a text into pieces

A piece is cut out with the ASCII marks around it: the text is the opening mark,
what the piece holds, the closing mark, and the rest.
-/

namespace FlowConfig
namespace Markup

open Ascii

def Piece.content : Piece -> Bytes
  | .text raw => raw
  | .startTag content => content
  | .emptyTag content => content
  | .endTag content => content
  | .instruction content => content
  | .comment content => content
  | .cdata content => content
  | .doctype content => content

def isAscii (bytes : Bytes) : Bool :=
  bytes.all fun b => b.toNat < 128

theorem toNat_lt_of_isAscii {bytes : Bytes} (h : isAscii bytes = true) :
    forall b, b ∈ bytes -> b.toNat < 128 :=
  fun b hb => of_decide_eq_true (List.all_eq_true.mp h b hb)

theorem isAscii_append {front back : Bytes} :
    isAscii (front ++ back) = (isAscii front && isAscii back) :=
  List.all_append

/-- The piece, less as many of its bytes as were passed already, stands at the
front of the bytes: what the piece holds is between marks in ASCII. -/
def Piece.IsFront (piece : Piece) (passed : Nat) (bytes : Bytes) : Prop :=
  exists opening closing after, bytes = opening ++ piece.content ++ closing ++ after ∧
    isAscii (opening ++ closing) = true ∧
      piece.size = passed + opening.length + piece.content.length + closing.length

variable {bytes rest : Bytes} {piece : Piece} {n passed : Nat}

/-- A mark that the bytes begin with comes before what follows it. -/
theorem Piece.isFront_append {mark : Bytes} (hmark : isAscii mark = true)
    (h : piece.IsFront (passed + mark.length) rest) : piece.IsFront passed (mark ++ rest) := by
  rcases h with ⟨opening, closing, after, rfl, hascii, hsize⟩
  refine ⟨mark ++ opening, closing, after, ?_, ?_, ?_⟩
  · simp only [List.append_assoc]
  · rw [List.append_assoc, isAscii_append, hmark, hascii, Bool.and_self]
  · rw [hsize, List.length_append, Nat.add_assoc passed]

theorem Piece.isFront_cons {b : UInt8} (hb : isAscii [b] = true)
    (h : piece.IsFront (passed + 1) rest) : piece.IsFront passed (b :: rest) :=
  Piece.isFront_append hb h

/-!
# Where a piece ends
-/

def EndsAt (mark : Bytes) (k n : Nat) (bytes : Bytes) : Prop :=
  exists before after, bytes = before ++ mark ++ after ∧ n = k + before.length

theorem endsAt_cons {mark : Bytes} {k : Nat} (b : UInt8) (h : EndsAt mark (k + 1) n rest) :
    EndsAt mark k n (b :: rest) := by
  rcases h with ⟨before, after, rfl, rfl⟩
  refine ⟨b :: before, after, rfl, ?_⟩
  rw [List.length_cons]
  omega

theorem endsAt_tagLength? {quote : Option UInt8} {k : Nat}
    (h : tagLength? quote k bytes = some n) : EndsAt [greaterThan] k n bytes := by
  fun_induction tagLength? quote k bytes with
  | case1 quote k => cases h
  | case2 quote k b rest ih => exact endsAt_cons b (ih h)
  | case3 k b rest hclose =>
      cases h
      rw [eq_of_beq hclose]
      exact ⟨[], rest, rfl, rfl⟩
  | case4 k b rest hopen hquote ih => exact endsAt_cons b (ih h)
  | case5 k b rest hopen hquote ih => exact endsAt_cons b (ih h)

theorem endsAt_lengthBefore? {mark : Bytes} {k : Nat}
    (h : lengthBefore? mark k bytes = some n) : EndsAt mark k n bytes := by
  fun_induction lengthBefore? mark k bytes with
  | case1 k => cases h
  | case2 k b rest hbegins =>
      cases h
      rcases List.isPrefixOf_iff_prefix.mp hbegins with ⟨after, hafter⟩
      exact ⟨[], after, hafter.symm, rfl⟩
  | case3 k b rest hbegins ih => exact endsAt_cons b (ih h)

theorem endsAt_balancedLength? {depth k : Nat} (h : balancedLength? depth k bytes = some n) :
    EndsAt [greaterThan] k n bytes := by
  fun_induction balancedLength? depth k bytes with
  | case1 depth k => cases h
  | case2 depth k b rest hopen ih => exact endsAt_cons b (ih h)
  | case3 k b rest hopen hclose =>
      cases h
      rw [eq_of_beq hclose]
      exact ⟨[], rest, rfl, rfl⟩
  | case4 k b rest hopen hclose depth ih => exact endsAt_cons b (ih h)
  | case5 depth k b rest hopen hclose ih => exact endsAt_cons b (ih h)

theorem isFront_of_endsAt {mark : Bytes} (h : EndsAt mark 0 n bytes)
    (hmark : isAscii mark = true) (hcontent : piece.content = bytes.take n)
    (hsize : piece.size = passed + piece.content.length + mark.length) :
    piece.IsFront passed bytes := by
  rcases h with ⟨before, after, rfl, rfl⟩
  have hbefore : piece.content = before := by
    rw [hcontent, Nat.zero_add, List.append_assoc, List.take_left]
  refine ⟨[], mark, after, ?_, hmark, hsize⟩
  rw [hbefore, List.nil_append]

theorem isFront_of_isPrefixOf {mark : Bytes} {k : Nat} (hbegins : mark.isPrefixOf bytes = true)
    (hlength : mark.length = k) (hmark : isAscii mark = true)
    (h : piece.IsFront (passed + k) (bytes.drop k)) : piece.IsFront passed bytes := by
  rcases List.isPrefixOf_iff_prefix.mp hbegins with ⟨after, rfl⟩
  rw [← hlength, List.drop_left] at h
  exact Piece.isFront_append hmark h

/-!
# The kinds of markup
-/

theorem isFront_readComment (h : readComment bytes = .ok piece) : piece.IsFront 2 bytes := by
  rw [readComment] at h
  split at h
  · next hbegins =>
      split at h
      · next n hend =>
          cases h
          apply isFront_of_isPrefixOf hbegins rfl (by decide)
          apply isFront_of_endsAt (endsAt_lengthBefore? hend) (by decide) rfl
          rw [Piece.size, Piece.content, Nat.add_right_comm]
          exact Nat.add_comm _ 7
      · cases h
  · cases h

theorem isFront_readCdata (h : readCdata bytes = .ok piece) : piece.IsFront 2 bytes := by
  rw [readCdata] at h
  split at h
  · next hbegins =>
      split at h
      · next n hend =>
          cases h
          apply isFront_of_isPrefixOf (k := 7) hbegins (by decide +kernel) (by decide +kernel)
          apply isFront_of_endsAt (endsAt_lengthBefore? hend) (by decide) rfl
          rw [Piece.size, Piece.content, Nat.add_right_comm]
          exact Nat.add_comm _ 12
      · cases h
  · cases h

theorem toNat_lt_of_upperAscii {b : UInt8} (h : (upperAscii b).toNat < 128) :
    b.toNat < 128 := by
  rw [upperAscii] at h
  split at h
  · next hlower =>
      rw [Bool.and_eq_true, decide_eq_true_iff, decide_eq_true_iff] at hlower
      exact Nat.lt_of_le_of_lt (UInt8.le_iff_toNat_le.mp hlower.right) (by decide)
  · exact h

theorem ascii_of_doctypeKeyword {body : Bytes}
    (h : doctypeKeyword.isPrefixOf (body.map upperAscii) = true) :
    7 ≤ body.length ∧ isAscii (body.take 7) = true := by
  have hlength : doctypeKeyword.length = 7 := by decide +kernel
  have hkeyword : isAscii doctypeKeyword = true := by decide +kernel
  rcases List.isPrefixOf_iff_prefix.mp h with ⟨after, hafter⟩
  constructor
  · rw [← List.length_map (f := upperAscii), ← hafter, List.length_append, hlength]
    exact Nat.le_add_right 7 after.length
  · rw [isAscii, List.all_eq_true]
    intro b hb
    apply decide_eq_true
    apply toNat_lt_of_upperAscii
    apply toNat_lt_of_isAscii hkeyword
    have hmem : upperAscii b ∈ (body.take 7).map upperAscii := List.mem_map_of_mem hb
    rw [List.map_take, ← hafter, ← hlength, List.take_left] at hmem
    exact hmem

theorem isFront_readDoctype (h : readDoctype bytes = .ok piece) : piece.IsFront 2 bytes := by
  rw [readDoctype] at h
  split at h
  · cases h
  · next n hend =>
      rcases endsAt_balancedLength? hend with ⟨body, after, rfl, rfl⟩
      rw [Nat.zero_add, List.append_assoc, List.take_left] at h
      simp only at h
      split at h
      · next hbegins =>
          rcases ascii_of_doctypeKeyword hbegins with ⟨hlong, hascii⟩
          split at h
          · cases h
          · cases h
            refine ⟨body.take 7, [greaterThan], after, ?_, ?_, ?_⟩
            · rw [Piece.content, List.take_append_drop]
            · rw [isAscii_append, hascii]
              rfl
            · rw [Piece.size, Piece.content, List.length_take, List.length_drop,
                List.length_singleton]
              omega
      · cases h

theorem isFront_readDeclaration (h : readDeclaration bytes = .ok piece) :
    piece.IsFront 2 bytes := by
  simp only [readDeclaration] at h
  split at h
  · cases h
  · split at h
    · exact isFront_readComment h
    · split at h
      · exact isFront_readCdata h
      · split at h
        · exact isFront_readDoctype h
        · cases h

theorem isFront_readInstruction (h : readInstruction bytes = .ok piece) :
    piece.IsFront 2 bytes := by
  simp only [readInstruction] at h
  split at h
  · cases h
  · split at h
    · next n hend =>
        cases h
        apply isFront_of_endsAt (endsAt_lengthBefore? hend) (by decide) rfl
        rw [Piece.size, Piece.content, Nat.add_right_comm]
        exact Nat.add_comm _ 4
    · cases h

theorem isFront_readEndTag (h : readEndTag bytes = .ok piece) : piece.IsFront 2 bytes := by
  rw [readEndTag] at h
  split at h
  · next n hend =>
      cases h
      apply isFront_of_endsAt (endsAt_tagLength? hend) (by decide) rfl
      rw [Piece.size, Piece.content, Nat.add_right_comm]
      exact Nat.add_comm _ 3
  · cases h

/-- The slash of an empty element belongs to the closing mark. -/
theorem isFront_readStartTag (h : readStartTag bytes = .ok piece) : piece.IsFront 1 bytes := by
  rw [readStartTag] at h
  split at h
  · cases h
  · next n hend =>
      simp only at h
      split at h
      · next hslash =>
          rcases endsAt_tagLength? hend with ⟨before, after, rfl, rfl⟩
          rw [Nat.zero_add, List.append_assoc, List.take_left] at h hslash
          cases h
          rcases List.getLast?_eq_some_iff.mp (eq_of_beq hslash) with ⟨content, rfl⟩
          refine ⟨[], [slash, greaterThan], after, ?_, by decide, ?_⟩
          · rw [Piece.content, List.dropLast_concat]
            simp
          · simp only [Piece.size, Piece.content, List.dropLast_concat, List.length_cons,
              List.length_nil]
            omega
      · cases h
        apply isFront_of_endsAt (endsAt_tagLength? hend) (by decide) rfl
        rw [Piece.size, Piece.content, Nat.add_right_comm]
        exact Nat.add_comm _ 2

theorem isFront_readMarkup (h : readMarkup bytes = .ok piece) : piece.IsFront 1 bytes := by
  simp only [readMarkup] at h
  split at h
  · exact Piece.isFront_cons (by decide) (isFront_readDeclaration h)
  · exact Piece.isFront_cons (by decide) (isFront_readEndTag h)
  · exact Piece.isFront_cons (by decide) (isFront_readInstruction h)
  · exact isFront_readStartTag h

theorem isFront_readPiece {b : UInt8} (h : readPiece b rest = .ok piece) :
    piece.IsFront 0 (b :: rest) := by
  rw [readPiece] at h
  split at h
  · next hopen =>
      rw [eq_of_beq hopen]
      exact Piece.isFront_cons (by decide) (isFront_readMarkup h)
  · cases h
    refine ⟨[], [], rest.dropWhile fun c => c != lessThan, ?_, by decide, ?_⟩
    · simp [Piece.content]
    · simp [Piece.size, Piece.content]

theorem size_pos_of_readPiece {b : UInt8} (h : readPiece b rest = .ok piece) :
    0 < piece.size := by
  rw [readPiece] at h
  split at h
  · rcases isFront_readMarkup h with ⟨opening, closing, after, _, _, hsize⟩
    omega
  · cases h
    exact Nat.succ_pos _

theorem exists_marks_of_readPiece {b : UInt8} (h : readPiece b rest = .ok piece) :
    exists opening closing, b :: rest =
        opening ++ piece.content ++ closing ++ rest.drop (piece.size - 1) ∧
      isAscii (opening ++ closing) = true ∧
        (opening ++ piece.content ++ closing).length = piece.size := by
  rcases isFront_readPiece h with ⟨opening, closing, after, hbytes, hascii, hsize⟩
  have hlength : (opening ++ piece.content ++ closing).length = piece.size := by
    rw [hsize, List.length_append, List.length_append, Nat.zero_add]
  have hafter : rest.drop (piece.size - 1) = after := by
    rw [← List.drop_succ_cons (a := b), Nat.sub_add_cancel (size_pos_of_readPiece h), hbytes,
      ← hlength, List.drop_left]
  exact ⟨opening, closing, hafter ▸ hbytes, hascii, hlength⟩

end Markup
end FlowConfig
