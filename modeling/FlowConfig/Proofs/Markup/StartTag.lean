import FlowConfig.Proofs.Markup.Cutting
import FlowConfig.Proofs.Markup.Parts
import Mathlib.Data.List.Forall2

/-!
# Start tags and where they stand

Cutting a text finds its start tags, each at the offset of its opening bracket.  Text,
comments, instructions and end tags between them only move the offsets on.  Reading
makes one event of each start tag, at the offset of the tag.
-/

namespace FlowConfig
namespace Markup

open Ascii

variable {bytes rest content : Bytes} {piece : Piece}

def Piece.tagContent? : Piece -> Option Bytes
  | .startTag content => some content
  | .emptyTag content => some content
  | _ => none

/-- The start tags of a text, the first byte of which is at `offset`. -/
def startTagsFrom (offset : Nat) (bytes : Bytes) : List (Located Bytes) :=
  match bytes with
  | [] => []
  | b :: rest =>
      match readPiece b rest with
      | .error _ => []
      | .ok piece =>
          (piece.tagContent?.map (Located.mk offset)).toList ++
            startTagsFrom (offset + piece.size) (rest.drop (piece.size - 1))
termination_by bytes.length
decreasing_by
  rw [List.length_drop, List.length_cons]
  exact Nat.lt_succ_of_le (Nat.sub_le _ _)

def startTags (bytes : Bytes) : List (Located Bytes) :=
  startTagsFrom 0 bytes

/-!
# Brackets
-/

/-- The start tag with this content has its opening bracket at the offset. -/
def StandsAt (bytes : Bytes) (offset : Nat) (content : Bytes) : Prop :=
  exists before closing after,
    bytes = before ++ lessThan :: (content ++ closing ++ after) ∧ before.length = offset ∧
      (closing = [greaterThan] ∨ closing = [slash, greaterThan])

theorem standsAt_append {offset : Nat} (front : Bytes) (h : StandsAt rest offset content) :
    StandsAt (front ++ rest) (front.length + offset) content := by
  rcases h with ⟨before, closing, after, rfl, rfl, hclosing⟩
  exact ⟨front ++ before, closing, after, (List.append_assoc front before _).symm,
    List.length_append, hclosing⟩

theorem tagContent?_of_readComment (h : readComment rest = .ok piece) :
    piece.tagContent? = none := by
  rw [readComment] at h
  split at h
  · split at h
    · cases h
      rfl
    · cases h
  · cases h

theorem tagContent?_of_readCdata (h : readCdata rest = .ok piece) :
    piece.tagContent? = none := by
  rw [readCdata] at h
  split at h
  · split at h
    · cases h
      rfl
    · cases h
  · cases h

theorem tagContent?_of_readDoctype (h : readDoctype rest = .ok piece) :
    piece.tagContent? = none := by
  rw [readDoctype] at h
  split at h
  · cases h
  · simp only at h
    split at h
    · split at h
      · cases h
      · cases h
        rfl
    · cases h

theorem tagContent?_of_readDeclaration (h : readDeclaration rest = .ok piece) :
    piece.tagContent? = none := by
  simp only [readDeclaration] at h
  split at h
  · cases h
  · split at h
    · exact tagContent?_of_readComment h
    · split at h
      · exact tagContent?_of_readCdata h
      · split at h
        · exact tagContent?_of_readDoctype h
        · cases h

theorem tagContent?_of_readEndTag (h : readEndTag rest = .ok piece) :
    piece.tagContent? = none := by
  rw [readEndTag] at h
  split at h
  · cases h
    rfl
  · cases h

theorem tagContent?_of_readInstruction (h : readInstruction rest = .ok piece) :
    piece.tagContent? = none := by
  simp only [readInstruction] at h
  split at h
  · cases h
  · split at h
    · cases h
      rfl
    · cases h

theorem standsAt_of_readStartTag (h : readStartTag rest = .ok piece)
    (hcontent : piece.tagContent? = some content) : StandsAt (lessThan :: rest) 0 content := by
  rw [readStartTag] at h
  split at h
  · cases h
  · next n hend =>
      rcases endsAt_tagLength? hend with ⟨before, after, rfl, rfl⟩
      rw [Nat.zero_add, List.append_assoc, List.take_left] at h
      simp only at h
      split at h
      · next hslash =>
          cases h
          cases hcontent
          rcases List.getLast?_eq_some_iff.mp (eq_of_beq hslash) with ⟨content, rfl⟩
          refine ⟨[], [slash, greaterThan], after, ?_, rfl, Or.inr rfl⟩
          simp
      · cases h
        cases hcontent
        refine ⟨[], [greaterThan], after, ?_, rfl, Or.inl rfl⟩
        simp

theorem standsAt_of_readPiece {b : UInt8} (h : readPiece b rest = .ok piece)
    (hcontent : piece.tagContent? = some content) : StandsAt (b :: rest) 0 content := by
  rw [readPiece] at h
  split at h
  · next hopen =>
      rw [eq_of_beq hopen]
      simp only [readMarkup] at h
      split at h
      · rw [tagContent?_of_readDeclaration h] at hcontent
        cases hcontent
      · rw [tagContent?_of_readEndTag h] at hcontent
        cases hcontent
      · rw [tagContent?_of_readInstruction h] at hcontent
        cases hcontent
      · exact standsAt_of_readStartTag h hcontent
  · cases h
    cases hcontent

/-!
# All start tags
-/

theorem le_offset_of_mem_startTagsFrom {offset : Nat} {tag : Located Bytes}
    (h : tag ∈ startTagsFrom offset bytes) : offset ≤ tag.offset := by
  fun_induction startTagsFrom offset bytes with
  | case1 offset => cases h
  | case2 offset b rest fault hpiece => cases h
  | case3 offset b rest piece hpiece ih =>
      rcases List.mem_append.mp h with hfirst | hlater
      · rw [Option.mem_toList, Option.map_eq_some_iff] at hfirst
        rcases hfirst with ⟨content, _, rfl⟩
        exact Nat.le_refl offset
      · exact Nat.le_trans (Nat.le_add_right offset piece.size) (ih hlater)

theorem pairwise_startTagsFrom (offset : Nat) (bytes : Bytes) :
    (startTagsFrom offset bytes).Pairwise fun tag later => tag.offset < later.offset := by
  fun_induction startTagsFrom offset bytes with
  | case1 offset => exact List.Pairwise.nil
  | case2 offset b rest fault hpiece => exact List.Pairwise.nil
  | case3 offset b rest piece hpiece ih =>
      refine List.pairwise_append.mpr ⟨?_, ih, ?_⟩
      · cases piece.tagContent? with
        | none => exact List.Pairwise.nil
        | some content => exact List.pairwise_singleton _ _
      · intro tag hfirst later hlater
        rw [Option.mem_toList, Option.map_eq_some_iff] at hfirst
        rcases hfirst with ⟨content, _, rfl⟩
        exact Nat.lt_of_lt_of_le (Nat.lt_add_of_pos_right (size_pos_of_readPiece hpiece))
          (le_offset_of_mem_startTagsFrom hlater)

theorem standsAt_of_mem_startTagsFrom {offset : Nat} {tag : Located Bytes}
    (h : tag ∈ startTagsFrom offset bytes) :
    exists distance, tag.offset = offset + distance ∧ StandsAt bytes distance tag.value := by
  fun_induction startTagsFrom offset bytes with
  | case1 offset => cases h
  | case2 offset b rest fault hpiece => cases h
  | case3 offset b rest piece hpiece ih =>
      rcases List.mem_append.mp h with hfirst | hlater
      · rw [Option.mem_toList, Option.map_eq_some_iff] at hfirst
        rcases hfirst with ⟨content, hcontent, rfl⟩
        exact ⟨0, rfl, standsAt_of_readPiece hpiece hcontent⟩
      · rcases ih hlater with ⟨distance, hoffset, hstands⟩
        rcases exists_marks_of_readPiece hpiece with ⟨opening, closing, hbytes, _, hlength⟩
        refine ⟨piece.size + distance, ?_, ?_⟩
        · rw [hoffset, Nat.add_assoc]
        · have happend := standsAt_append (opening ++ piece.content ++ closing) hstands
          rw [← hbytes, hlength] at happend
          exact happend

theorem standsAt_of_mem_startTags {tag : Located Bytes} (h : tag ∈ startTags bytes) :
    StandsAt bytes tag.offset tag.value := by
  rcases standsAt_of_mem_startTagsFrom h with ⟨distance, hoffset, hstands⟩
  rw [hoffset, Nat.zero_add]
  exact hstands

/-!
# Events of start tags
-/

def Event.tag? : Event -> Option Tag
  | .startTag tag => some tag
  | .emptyTag tag => some tag
  | _ => none

def Located.tag? (located : Located Event) : Option (Located Tag) :=
  located.value.tag?.map (Located.mk located.offset)

/-- The tags of all events that open an element. -/
def tagsIn (events : List (Located Event)) : List (Located Tag) :=
  events.flatMap fun located => located.tag?.toList

theorem tagsIn_cons (located : Located Event) (rest : List (Located Event)) :
    tagsIn (located :: rest) = located.tag?.toList ++ tagsIn rest :=
  List.flatMap_cons

/-- A start tag as written, and the tag that is read from it. -/
structure IsReadAs (written : Located Bytes) (tag : Located Tag) : Prop where
  offset_eq : tag.offset = written.offset
  decoded : exists scope, decodeTag scope written.value = .ok tag.value

theorem isReadAs_of_readEvent {state next : ReaderState} {event : Event} (offset : Nat)
    (h : readEvent state piece = .ok (event, next)) :
    List.Forall₂ IsReadAs (piece.tagContent?.map (Located.mk offset)).toList
      (Located.tag? ⟨offset, event⟩).toList := by
  have hread : forall {scope tag content}, decodeTag scope content = .ok tag ->
      List.Forall₂ IsReadAs [⟨offset, content⟩] [⟨offset, tag⟩] :=
    fun htag => .cons ⟨rfl, _, htag⟩ .nil
  cases piece with
  | startTag content =>
      rcases exists_of_bind_eq_ok h with ⟨inner, _, h⟩
      rcases exists_of_bind_eq_ok h with ⟨tag, htag, h⟩
      cases h
      exact hread htag
  | emptyTag content =>
      rcases exists_of_bind_eq_ok h with ⟨inner, _, h⟩
      rcases exists_of_bind_eq_ok h with ⟨tag, htag, h⟩
      cases h
      exact hread htag
  | text raw =>
      rcases exists_of_bind_eq_ok h with ⟨decoded, _, h⟩
      cases h
      exact .nil
  | cdata raw =>
      rcases exists_of_bind_eq_ok h with ⟨decoded, _, h⟩
      cases h
      exact .nil
  | endTag content =>
      rw [readEvent, readEnd] at h
      split at h
      · cases h
      · split at h
        · cases h
          exact .nil
        · cases h
  | instruction content =>
      cases h
      exact .nil
  | comment content =>
      cases h
      exact .nil
  | doctype content =>
      cases h
      exact .nil

/-- A text that is read to its end has the tags of its start tags, in their order. -/
theorem isReadAs_of_transcribeFrom {offset : Nat} {state : ReaderState}
    {before : List (Located Event)}
    (hfault : (transcribeFrom offset state before bytes).fault = none) :
    exists events, (transcribeFrom offset state before bytes).events = before.reverse ++ events ∧
      List.Forall₂ IsReadAs (startTagsFrom offset bytes) (tagsIn events) := by
  fun_induction transcribeFrom offset state before bytes with
  | case1 offset state before =>
      rw [startTagsFrom]
      exact ⟨[], (List.append_nil _).symm, .nil⟩
  | case2 offset state before b rest pieceFault hpiece => cases hfault
  | case3 offset state before b rest piece hpiece fault hevent => cases hfault
  | case4 offset state before b rest piece hpiece event next hevent ih =>
      rcases ih hfault with ⟨events, hevents, htags⟩
      refine ⟨⟨offset, event⟩ :: events, ?_, ?_⟩
      · rw [hevents, List.reverse_cons, List.append_assoc]
        rfl
      · rw [startTagsFrom]
        simp only [hpiece]
        rw [tagsIn_cons]
        exact List.rel_append (isReadAs_of_readEvent offset hevent) htags

end Markup
end FlowConfig
