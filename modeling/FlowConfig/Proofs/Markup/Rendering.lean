import FlowConfig.Proofs.Markup.Lexeme
import FlowConfig.Proofs.Markup.RenderedTag

/-!
# Rendered markup

Rendered tags and rendered text are cut where they were put together, whatever
follows.
-/

namespace FlowConfig
namespace Markup

open Ascii

/-!
# Start tags
-/

theorem getLast?_tagContent_ne (name : Name) (attributes : List (Name × String)) :
    (tagContent name attributes).getLast? ≠ some slash := by
  rcases List.eq_nil_or_concat attributes with rfl | ⟨before, a, rfl⟩
  · intro hlast
    rw [tagContent, List.flatMap_nil, List.append_nil] at hlast
    exact name.ne_of_mem_bytes (List.mem_of_getLast? hlast) (by decide) rfl
  · have hsplit : tagContent name (before ++ [a]) = (name.bytes ++
        (before.flatMap attributeBytes ++ space :: (a.1.bytes ++ equals :: doubleQuote ::
          escapedBytes a.2))) ++ [doubleQuote] := by
      simp [tagContent, attributeBytes]
    rw [List.concat_eq_append, hsplit, List.getLast?_concat]
    decide

theorem readMarkup_of_name {first : UInt8} {more : Bytes} {name : Name}
    (h : name.bytes = first :: more) (rest : Bytes) :
    readMarkup (first :: rest) = readStartTag (first :: rest) := by
  have hfirst : first ∈ name.bytes := h ▸ List.mem_cons_self
  have hbang : first ≠ bang := name.ne_of_mem_bytes hfirst (by decide)
  have hslash : first ≠ slash := name.ne_of_mem_bytes hfirst (by decide)
  have hquestion : first ≠ questionMark := name.ne_of_mem_bytes hfirst (by decide)
  unfold readMarkup
  split
  · next heq => exact absurd (List.cons.inj heq).left hbang
  · next heq => exact absurd (List.cons.inj heq).left hslash
  · next heq => exact absurd (List.cons.inj heq).left hquestion
  · rfl

theorem readPiece_startTag (name : Name) (attributes : List (Name × String)) (rest : Bytes) :
    readPiece lessThan (tagContent name attributes ++ greaterThan :: rest) =
      .ok (.startTag (tagContent name attributes)) := by
  rcases name.exists_bytes_eq_cons with ⟨first, more, hbytes⟩
  have hmarkup : readMarkup (tagContent name attributes ++ greaterThan :: rest) =
      readStartTag (tagContent name attributes ++ greaterThan :: rest) := by
    rw [tagContent, hbytes]
    exact readMarkup_of_name hbytes _
  show readMarkup (tagContent name attributes ++ greaterThan :: rest) = _
  rw [hmarkup, readStartTag, tagLength?_tagContent]
  simp only [List.take_left]
  rw [if_neg]
  rw [beq_iff_eq]
  exact getLast?_tagContent_ne name attributes

theorem lexemesFrom_startTag (name : Name) (attributes : List (Name × String))
    (rest : Bytes) :
    lexemesFrom (lessThan :: (tagContent name attributes ++ greaterThan :: rest)) =
      (lexemesFrom rest).map (.startTag (tagContent name attributes) :: ·) := by
  have hdrop : (tagContent name attributes ++ greaterThan :: rest).drop
      ((tagContent name attributes).length + 2 - 1) = rest := by
    have hsplit : tagContent name attributes ++ greaterThan :: rest =
        (tagContent name attributes ++ [greaterThan]) ++ rest := by simp
    rw [hsplit]
    exact List.drop_left' (by simp)
  rw [lexemesFrom, readPiece_startTag]
  simp only [Piece.lexeme, Piece.size, hdrop]

/-!
# End tags
-/

theorem endName_bytes (name : Name) : endName name.bytes = name.bytes := by
  have hdrop : name.bytes.reverse.dropWhile isSpace = name.bytes.reverse := by
    cases hreverse : name.bytes.reverse with
    | nil => rfl
    | cons b more =>
        have hb : b ∈ name.bytes := List.mem_reverse.mp (hreverse ▸ List.mem_cons_self)
        rw [List.dropWhile_cons_of_neg]
        rw [name.isSpace_of_mem_bytes hb]
        exact Bool.false_ne_true
  rw [endName, dropTrailingSpace, hdrop, List.reverse_reverse]
  exact ite_self _

theorem lexemesFrom_endTag (name : Name) (rest : Bytes) :
    lexemesFrom (lessThan :: slash :: (name.bytes ++ greaterThan :: rest)) =
      (lexemesFrom rest).map (.endTag name.bytes :: ·) := by
  have hlength := tagLength?_tagContent name [] rest
  rw [tagContent, List.flatMap_nil, List.append_nil] at hlength
  have hpiece : readPiece lessThan (slash :: (name.bytes ++ greaterThan :: rest)) =
      .ok (.endTag name.bytes) := by
    show readEndTag (name.bytes ++ greaterThan :: rest) = _
    rw [readEndTag, hlength]
    simp only [List.take_left]
  have hdrop : (slash :: (name.bytes ++ greaterThan :: rest)).drop
      (name.bytes.length + 3 - 1) = rest := by
    have hsplit : slash :: (name.bytes ++ greaterThan :: rest) =
        (slash :: name.bytes ++ [greaterThan]) ++ rest := by simp
    rw [hsplit]
    exact List.drop_left' (by simp)
  rw [lexemesFrom, hpiece]
  simp only [Piece.lexeme, Piece.size, hdrop, endName_bytes]

/-!
# Text
-/

def textLexemes (s : String) : List (Lexeme Bytes Bytes) :=
  if s = "" then [] else [.text s]

theorem eq_empty_of_escapedBytes_eq_nil {s : String} (h : escapedBytes s = []) : s = "" := by
  have hdecode := decodeText_escapedBytes s
  rw [h] at hdecode
  exact (Except.ok.inj (hdecode.symm.trans (decodeText_escapedBytes "")))

theorem lexemesFrom_escapedBytes (s : String) (rest : Bytes) :
    lexemesFrom (escapedBytes s ++ lessThan :: rest) =
      (lexemesFrom (lessThan :: rest)).map (textLexemes s ++ ·) := by
  have hless : lessThan ∉ escapedBytes s := not_mem_escapedBytes (.inl rfl) s
  have hdecode := decodeText_escapedBytes s
  cases hbytes : escapedBytes s with
  | nil =>
      rw [textLexemes, if_pos (eq_empty_of_escapedBytes_eq_nil hbytes), List.nil_append]
      cases lexemesFrom (lessThan :: rest) with
      | error fault => rfl
      | ok found => rfl
  | cons b more =>
      have hne : s ≠ "" := by
        rintro rfl
        cases hbytes
      rw [hbytes] at hless hdecode
      have hpiece : readPiece b (more ++ lessThan :: rest) = .ok (.text (b :: more)) := by
        have htext : forall c, c ∈ more -> (c != lessThan) = true := by
          intro c hc
          rw [bne_iff_ne]
          rintro rfl
          exact hless (List.mem_cons_of_mem b hc)
        have hstop : (lessThan :: rest).takeWhile (fun c => c != lessThan) = [] := rfl
        rw [readPiece, if_neg, List.takeWhile_append_of_pos htext, hstop, List.append_nil]
        rw [beq_iff_eq]
        rintro rfl
        exact hless List.mem_cons_self
      have hdrop : (more ++ lessThan :: rest).drop ((b :: more).length - 1) =
          lessThan :: rest := List.drop_left
      rw [List.cons_append, lexemesFrom, hpiece]
      simp only [Piece.lexeme, Piece.size, hdrop, hdecode, Except.map, textLexemes, hne, if_false]
      rfl

end Markup
end FlowConfig
