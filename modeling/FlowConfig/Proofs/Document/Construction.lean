import FlowConfig.Proofs.Document.Reading
import FlowConfig.Proofs.Element.Offsets
import FlowConfig.Proofs.Markup.Lexeme

/-!
# Documents from tokens

The tree of a text, up to byte offsets, is built from the tokens of the text.
Text may come in any number of runs, in an element as outside of the root, and
markup without a trace may stand anywhere.
-/

namespace FlowConfig

open Markup

def OpenElement.withoutOffsets (e : OpenElement) : OpenElement :=
  ⟨e.node.withoutOffset, e.children.map Element.withoutOffsets⟩

theorem OpenElement.finish_withoutOffsets (e : OpenElement) :
    e.withoutOffsets.finish = e.finish.withoutOffsets := by
  rw [finish, withoutOffsets, finish, Element.withoutOffsets_eq, List.map_reverse]

namespace Builder

/-!
# Steps without offsets
-/

/-- The builder with all byte offsets set to zero. -/
def withoutOffsets (b : Builder) : Builder :=
  ⟨b.opened.map OpenElement.withoutOffsets, b.root.map Element.withoutOffsets, b.started⟩

theorem start_withoutOffsets (b : Builder) (tag : Tag) (offset : Nat) :
    b.withoutOffsets.start tag 0 = (b.start tag offset).map withoutOffsets := by
  obtain ⟨opened, root, started⟩ := b
  cases opened with
  | nil =>
      cases root with
      | none => rfl
      | some root => rfl
  | cons e rest => rfl

theorem close_withoutOffsets (b : Builder) :
    b.withoutOffsets.close = b.close.map withoutOffsets := by
  obtain ⟨opened, root, started⟩ := b
  cases opened with
  | nil => rfl
  | cons e rest =>
      cases rest with
      | nil =>
          simp only [close, withoutOffsets, List.map_cons, List.map_nil,
            OpenElement.finish_withoutOffsets]
          rfl
      | cons outer rest =>
          simp only [close, withoutOffsets, List.map_cons, OpenElement.finish_withoutOffsets]
          rfl

theorem text_withoutOffsets (b : Builder) (content : String) :
    b.withoutOffsets.text content = (b.text content).map withoutOffsets := by
  obtain ⟨opened, root, started⟩ := b
  cases opened with
  | nil =>
      simp only [text, withoutOffsets, List.map_nil]
      split
      · rfl
      · rfl
  | cons e rest => rfl

theorem finish_withoutOffsets (b : Builder) :
    b.withoutOffsets.finish = b.finish.map Element.withoutOffsets := by
  obtain ⟨opened, root, started⟩ := b
  cases opened with
  | nil =>
      cases root with
      | none => rfl
      | some root => rfl
  | cons e rest => rfl

/-!
# Building from tokens
-/

def feedToken (b : Builder) : Token Tag Unit -> Except StructureFault Builder
  | .opening tag => b.start tag 0
  | .closing () => b.close
  | .text content => b.text content

def build (b : Builder) : List (Token Tag Unit) -> Option Element
  | [] => b.finish.toOption
  | token :: rest => (b.feedToken token).toOption.bind fun next => next.build rest

theorem text_append (b : Builder) (content more : String) :
    (b.text (content ++ more)).toOption =
      (b.text content).toOption.bind fun next => (next.text more).toOption := by
  obtain ⟨opened, root, started⟩ := b
  cases opened with
  | nil =>
      have hblank : Text.allBlank (content ++ more) =
          (Text.allBlank content && Text.allBlank more) := by
        simp [Text.allBlank]
      simp only [text, hblank]
      cases hcontent : Text.allBlank content with
      | false => rfl
      | true => simp [Except.toOption]
  | cons e rest => simp [text, Except.toOption, String.append_assoc]

theorem build_addText (b : Builder) (content : String) (rest : List (Token Tag Unit)) :
    b.build (addText content rest) =
      (b.text content).toOption.bind fun next => next.build rest := by
  cases rest with
  | nil => rfl
  | cons token rest =>
      cases token with
      | text more =>
          rw [addText, build, feedToken, text_append, Option.bind_assoc]
          rfl
      | opening tag => rfl
      | closing name => rfl

theorem build_before (b : Builder) (offset : Nat) (event : Event)
    (rest : List (Token Tag Unit)) :
    b.withoutOffsets.build (event.lexeme.before (fun _ => ()) rest) =
      (b.feed offset event).toOption.bind fun next => next.withoutOffsets.build rest := by
  cases event with
  | startTag tag =>
      show (b.withoutOffsets.start tag 0).toOption.bind _ = (b.start tag offset).toOption.bind _
      rw [start_withoutOffsets b tag offset]
      cases b.start tag offset with
      | error fault => rfl
      | ok next => rfl
  | emptyTag tag =>
      show (b.withoutOffsets.start tag 0).toOption.bind
        (fun next => next.close.toOption.bind fun last => last.build rest) = _
      rw [start_withoutOffsets b tag offset, feed]
      cases b.start tag offset with
      | error fault => rfl
      | ok next =>
          show next.withoutOffsets.close.toOption.bind _ = next.close.toOption.bind _
          rw [close_withoutOffsets]
          cases next.close with
          | error fault => rfl
          | ok last => rfl
  | endTag =>
      show b.withoutOffsets.close.toOption.bind _ = b.close.toOption.bind _
      rw [close_withoutOffsets]
      cases b.close with
      | error fault => rfl
      | ok next => rfl
  | text content =>
      show b.withoutOffsets.build (addText content rest) = (b.text content).toOption.bind _
      rw [build_addText, text_withoutOffsets]
      cases b.text content with
      | error fault => rfl
      | ok next => rfl
  | cdata content =>
      show b.withoutOffsets.build (addText content rest) = (b.text content).toOption.bind _
      rw [build_addText, text_withoutOffsets]
      cases b.text content with
      | error fault => rfl
      | ok next => rfl
  | instruction => rfl
  | comment => rfl
  | doctype => rfl

end Builder

/-!
# Reading
-/

namespace Document

variable {State : Type}

theorem build_eventTokens (b : Builder) (events : List (Located Event)) :
    b.withoutOffsets.build (eventTokens (events.map Located.value)) =
      (b.assemble events).toOption.bind fun built =>
        built.finish.toOption.map Element.withoutOffsets := by
  induction events generalizing b with
  | nil =>
      show b.withoutOffsets.finish.toOption = b.finish.toOption.map Element.withoutOffsets
      rw [Builder.finish_withoutOffsets]
      cases b.finish with
      | error fault => rfl
      | ok root => rfl
  | cons located rest ih =>
      obtain ⟨offset, event⟩ := located
      show b.withoutOffsets.build
        (event.lexeme.before (fun _ => ()) (eventTokens (rest.map Located.value))) = _
      rw [Builder.build_before b offset, Builder.assemble]
      cases b.feed offset event with
      | error fault => rfl
      | ok next => exact ih next

/-- The tree that is read of a text is built from the tokens of its events. -/
theorem toOption_readTree (handler : Handler State) (state : State) (input : Bytes) :
    (readTree handler state input).2.toOption.map Element.withoutOffsets =
      (transcribe input).verdict.toOption.bind fun events =>
        Builder.empty.build (eventTokens events) := by
  have hbuild := build_eventTokens Builder.empty (transcribe input).events
  rw [snd_readTree, treeOf, Transcript.verdict]
  generalize transcribe input = transcript at hbuild ⊢
  obtain ⟨events, fault⟩ := transcript
  simp only at hbuild ⊢
  generalize Builder.empty.assemble events = built at hbuild ⊢
  cases fault with
  | some fault =>
      cases built with
      | error structureFault => rfl
      | ok built => rfl
  | none =>
      refine Eq.trans ?_ hbuild.symm
      cases built with
      | error structureFault => rfl
      | ok built =>
          simp only [Except.toOption, Option.bind_some]
          cases built.finish with
          | error structureFault => rfl
          | ok root => rfl

/-- The tree that is read of a text depends on nothing but the tokens of its
lexemes. -/
theorem toOption_readTree_of_lexemes {input : Bytes} {found : List (Lexeme Bytes Bytes)}
    (h : lexemes input = .ok found) (handler : Handler State) (state : State) :
    (readTree handler state input).2.toOption.map Element.withoutOffsets =
      (resolveTokens ReaderState.initial (tokens tagName found)).toOption.bind
        Builder.empty.build := by
  rw [toOption_readTree, verdict_transcribe h, ← map_eventTokens_resolveFrom]
  cases resolveFrom ReaderState.initial found with
  | error fault => rfl
  | ok events => rfl

end Document
end FlowConfig
