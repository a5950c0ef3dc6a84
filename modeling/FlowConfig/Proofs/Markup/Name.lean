import FlowConfig.Markup.Reader
import FlowConfig.Proofs.Text.Utf8

/-!
# Names

A name is an ASCII letter with letters, digits, hyphens and underscores behind
it.  Of the characters that are not ASCII all are taken for letters.  No byte of a
name carries meaning in markup, and a name has no prefix.
-/

namespace FlowConfig
namespace Markup

open Ascii

def isNameChar (c : Char) : Bool :=
  c.isAlphanum || c == '-' || c == '_' || 128 ≤ c.toNat

def isName : List Char -> Bool
  | [] => false
  | c :: rest => c.isAlpha && rest.all isNameChar

structure Name where
  text : String
  valid : isName text.toList = true

namespace Name

def bytes (n : Name) : Bytes :=
  Utf8.encode n.text.toList

theorem bytes_injective {n m : Name} (h : n.bytes = m.bytes) : n.text = m.text :=
  String.toList_inj.mp (Utf8.encode_injective h)

theorem isNameChar_of_mem (n : Name) {c : Char} (h : c ∈ n.text.toList) :
    isNameChar c = true := by
  have hvalid := n.valid
  revert h hvalid
  cases n.text.toList with
  | nil =>
      intro _ hvalid
      cases hvalid
  | cons first rest =>
      intro h hvalid
      rw [isName, Bool.and_eq_true, List.all_eq_true] at hvalid
      rcases List.mem_cons.mp h with rfl | hrest
      · simp [isNameChar, Char.isAlphanum, hvalid.left]
      · exact hvalid.right c hrest

theorem isNameChar_of_mem_bytes (n : Name) {b : UInt8} (h : b ∈ n.bytes) :
    isNameChar (Char.ofNat b.toNat) = true := by
  by_cases hascii : b.toNat < 128
  · rcases Utf8.exists_mem_of_mem_encode h hascii with ⟨c, hc, hcode⟩
    rw [← hcode, Char.ofNat_toNat]
    exact n.isNameChar_of_mem hc
  · have hall : forall n, n < 256 -> 128 ≤ n -> isNameChar (Char.ofNat n) = true := by
      decide +kernel
    exact hall b.toNat b.toNat_lt (Nat.le_of_not_lt hascii)

theorem ne_of_mem_bytes (n : Name) {b c : UInt8} (h : b ∈ n.bytes)
    (hc : isNameChar (Char.ofNat c.toNat) = false) : b ≠ c := by
  rintro rfl
  rw [n.isNameChar_of_mem_bytes h] at hc
  cases hc

theorem isSpace_of_mem_bytes (n : Name) {b : UInt8} (h : b ∈ n.bytes) : isSpace b = false := by
  simp only [isSpace, Bool.or_eq_false_iff, beq_eq_false_iff_ne]
  exact ⟨⟨⟨n.ne_of_mem_bytes h (by decide), n.ne_of_mem_bytes h (by decide)⟩,
    n.ne_of_mem_bytes h (by decide)⟩, n.ne_of_mem_bytes h (by decide)⟩

theorem exists_bytes_eq_cons (n : Name) : exists first rest, n.bytes = first :: rest := by
  have hvalid := n.valid
  cases hchars : n.text.toList with
  | nil =>
      rw [hchars] at hvalid
      cases hvalid
  | cons c rest =>
      rcases Utf8.exists_readChar c with ⟨a, tails, hbytes, _⟩
      refine ⟨a, tails ++ Utf8.encode rest, ?_⟩
      rw [bytes, hchars, Utf8.encode_cons, hbytes, List.cons_append]

theorem decodeName_bytes (n : Name) : decodeName n.bytes = .ok n.text := by
  rw [decodeName, bytes, Utf8.decodeString_encode]

theorem splitName_bytes (n : Name) : splitName n.bytes = (none, n.bytes) := by
  have hcolon : n.bytes.dropWhile (fun b => b != colon) = [] := by
    rw [← List.append_nil n.bytes, List.dropWhile_append_of_pos]
    · rfl
    · intro b hb
      exact bne_iff_ne.mpr (n.ne_of_mem_bytes hb (by decide))
  rw [splitName, hcolon]

end Name

end Markup
end FlowConfig
