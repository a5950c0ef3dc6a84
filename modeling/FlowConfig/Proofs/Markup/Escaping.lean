import FlowConfig.Markup.Reader
import FlowConfig.Proofs.Text.Utf8

/-!
# Escaping

A text can be written with references in place of the characters that markup is
made of.  Decoding it gives the text back, and what is written has none of the
characters that end a run of text or a quoted value.
-/

namespace FlowConfig
namespace Markup

/-- The characters that stand for one character in text and in quoted values. -/
def escapeChar (c : Char) : List Char :=
  if c = '&' then ['&', 'a', 'm', 'p', ';']
  else if c = '<' then ['&', 'l', 't', ';']
  else if c = '>' then ['&', 'g', 't', ';']
  else if c = '"' then ['&', 'q', 'u', 'o', 't', ';']
  else [c]

def escape (cs : List Char) : List Char :=
  cs.flatMap escapeChar

theorem escape_cons (c : Char) (cs : List Char) :
    escape (c :: cs) = escapeChar c ++ escape cs := rfl

theorem unescapeFrom_escapeChar (c : Char) (rest before : List Char) (index : Nat) :
    exists next, unescapeFrom index none before (escapeChar c ++ rest) =
      unescapeFrom next none (c :: before) rest := by
  rw [escapeChar]
  split
  · next hc =>
      subst hc
      exact ⟨_, rfl⟩
  · split
    · next hc =>
        subst hc
        exact ⟨_, rfl⟩
    · split
      · next hc =>
          subst hc
          exact ⟨_, rfl⟩
      · split
        · next hc =>
            subst hc
            exact ⟨_, rfl⟩
        · next hamp _ _ _ =>
            refine ⟨index + c.utf8Size, ?_⟩
            rw [List.singleton_append, unescapeFrom]
            exact if_neg hamp

theorem unescapeFrom_escape (index : Nat) (before cs : List Char) :
    unescapeFrom index none before (escape cs) = .ok (before.reverse ++ cs) := by
  induction cs generalizing index before with
  | nil =>
      rw [List.append_nil]
      rfl
  | cons c rest ih =>
      rcases unescapeFrom_escapeChar c (escape rest) before index with ⟨next, hnext⟩
      rw [escape_cons, hnext, ih, List.reverse_cons, List.append_assoc]
      rfl

theorem unescape_escape (cs : List Char) : unescape (escape cs) = .ok cs :=
  unescapeFrom_escape 0 [] cs

def escapedBytes (s : String) : Bytes :=
  Utf8.encode (escape s.toList)

/-- Decoding undoes escaping. -/
theorem decodeText_escapedBytes (s : String) : decodeText (escapedBytes s) = .ok s := by
  rw [decodeText, escapedBytes, Utf8.decode_encode]
  simp only [unescape_escape, String.ofList_toList]

/-!
# What escaped text is free of
-/

theorem not_mem_escapeChar {c : Char} (h : c = '<' ∨ c = '>' ∨ c = '"') (d : Char) :
    c ∉ escapeChar d := by
  have hnamed : c ∉ ['&', 'a', 'm', 'p', ';'] ∧ c ∉ ['&', 'l', 't', ';'] ∧
      c ∉ ['&', 'g', 't', ';'] ∧ c ∉ ['&', 'q', 'u', 'o', 't', ';'] := by
    rcases h with rfl | rfl | rfl <;> decide
  rw [escapeChar]
  split
  · exact hnamed.left
  · split
    · exact hnamed.right.left
    · split
      · exact hnamed.right.right.left
      · split
        · exact hnamed.right.right.right
        · next _ hless hgreater hquote =>
            intro hd
            rw [List.mem_singleton] at hd
            subst hd
            rcases h with h | h | h
            · exact hless h
            · exact hgreater h
            · exact hquote h

theorem not_mem_escape {c : Char} (h : c = '<' ∨ c = '>' ∨ c = '"') (cs : List Char) :
    c ∉ escape cs := by
  intro hmem
  rcases List.mem_flatMap.mp hmem with ⟨d, _, hd⟩
  exact not_mem_escapeChar h d hd

theorem not_mem_escapedBytes {b : UInt8}
    (h : b = Ascii.lessThan ∨ b = Ascii.greaterThan ∨ b = Ascii.doubleQuote) (s : String) :
    b ∉ escapedBytes s := by
  intro hmem
  have hascii : b.toNat < 128 := by
    rcases h with rfl | rfl | rfl <;> decide
  rcases Utf8.exists_mem_of_mem_encode hmem hascii with ⟨c, hc, hcode⟩
  refine not_mem_escape ?_ s.toList hc
  have hchar : c = Char.ofNat b.toNat := by
    rw [← hcode, Char.ofNat_toNat]
  rcases h with rfl | rfl | rfl
  · exact .inl hchar
  · exact .inr (.inl hchar)
  · exact .inr (.inr hchar)

end Markup
end FlowConfig
