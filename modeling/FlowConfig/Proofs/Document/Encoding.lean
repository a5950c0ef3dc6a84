import FlowConfig.Proofs.Document.Reading
import FlowConfig.Proofs.Markup.Encoding

/-!
# Texts that are not UTF-8

Bytes that are no text are refused where they are decoded.  Where reading goes past
them they stay unseen, so a document may be read from bytes that are not UTF-8.
-/

namespace FlowConfig
namespace Document

variable {input : Bytes}

/-- Bytes that are not UTF-8 are refused as not well formed, when reading decodes a
part of them that is not UTF-8, or when all is UTF-8 that it goes past: comments,
instructions, document type declarations and declarations of namespaces. -/
theorem parse_refuses_invalid_utf8 (h : ¬ Utf8.IsText input)
    (hparts : (exists part, part ∈ Markup.decodedParts input ∧ ¬ Utf8.IsText part) ∨
      forall part, part ∈ Markup.undecodedParts input -> Utf8.IsText part) :
    exists issue, parse input = .error issue ∧ issue.severity = .fatal := by
  have hinput : input ≠ [] := by
    rintro rfl
    exact h Utf8.isText_nil
  have houtcome := outcome_parse hinput
  cases htree : (readTree Handler.silent () input).2 with
  | error issue =>
      rw [htree] at houtcome
      generalize parse input = answer at houtcome
      cases houtcome with
      | malformed hfatal => exact ⟨_, rfl, hfatal⟩
  | ok root =>
      rcases exists_builder_of_readTree htree with ⟨_, _, hfault, _⟩
      rcases hparts with ⟨part, hpart, hmalformed⟩ | hparts
      · exact absurd (Markup.isText_of_mem_decodedParts_transcribe hfault part hpart) hmalformed
      · exact absurd (Markup.isText_of_transcribe hfault hparts) h

def strayIn (before after : String) : Bytes :=
  Utf8.encode before.toList ++ 0xFF :: Utf8.encode after.toList

/-- The declaration of a namespace is decoded where an element is in it. -/
def strayNamespace : Bytes :=
  strayIn "<flowController><rootGroup><id>r</id><name>n</name><template xmlns:p='"
    "'><p:x/></template></rootGroup></flowController>"

theorem parse_refuses_invalid_utf8_strayNamespace :
    ¬ Utf8.IsText strayNamespace ∧
      ([0xFF] ∈ Markup.decodedParts strayNamespace ∧ ¬ Utf8.IsText [0xFF]) ∧
        exists issue, parse strayNamespace = .error issue ∧ issue.severity = .fatal := by
  have hstray : ¬ Utf8.IsText strayNamespace := by decide +kernel
  have hpart : [0xFF] ∈ Markup.decodedParts strayNamespace := by decide +kernel
  have hmalformed : ¬ Utf8.IsText [0xFF] := by decide +kernel
  exact ⟨hstray, ⟨hpart, hmalformed⟩,
    parse_refuses_invalid_utf8 hstray (Or.inl ⟨[0xFF], hpart, hmalformed⟩)⟩

/-- Documents are read although a comment, an instruction, a document type
declaration or an unused namespace is not UTF-8. -/
theorem parse_accepts_unseen_bytes :
    let flow := "<rootGroup><id>r</id><name>n</name></rootGroup></flowController>"
    let inComment := strayIn "<flowController><!--" ("-->" ++ flow)
    let inInstruction := strayIn "<?p " ("?><flowController>" ++ flow)
    let inDoctype := strayIn "<!DOCTYPE f" ("><flowController>" ++ flow)
    let inNamespace := strayIn "<flowController xmlns:p='" ("'>" ++ flow)
    (¬ Utf8.IsText inComment ∧ (parse inComment).isOk = true) ∧
      (¬ Utf8.IsText inInstruction ∧ (parse inInstruction).isOk = true) ∧
        (¬ Utf8.IsText inDoctype ∧ (parse inDoctype).isOk = true) ∧
          (¬ Utf8.IsText inNamespace ∧ (parse inNamespace).isOk = true) := by
  decide +kernel

end Document
end FlowConfig
