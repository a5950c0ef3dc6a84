import FlowConfig.Proofs.Document.Reporting

/-!
# Reading by transcript

What reading a text comes to can be told from its transcript: the events are fed to
the builder one after the other, and a warning is due for every document type
declaration among them.  Reading stops at the event that the builder refuses, at the
fault that ends the transcript, or at the end of the text.
-/

namespace FlowConfig

open Markup Reporting

namespace Builder

/-- What an event at the given offset adds to the document. -/
def feed (b : Builder) (offset : Nat) : Event -> Except StructureFault Builder
  | .startTag tag => b.start tag offset
  | .emptyTag tag =>
      match b.start tag offset with
      | .ok b => b.close
      | .error fault => .error fault
  | .endTag => b.close
  | .text content => b.text content
  | .cdata content => b.text content
  | .instruction => .ok b
  | .comment => .ok b
  | .doctype => .ok b

theorem feed_emptyTag (b : Builder) (offset : Nat) (tag : Tag) :
    b.feed offset (.emptyTag tag) = b.start tag offset >>= close := by
  rw [feed]
  cases b.start tag offset with
  | error fault => rfl
  | ok next => rfl

/-- Feeds events to the builder.  A fault comes with its offset. -/
def assemble (b : Builder) : List (Located Event) -> Except (Located StructureFault) Builder
  | [] => .ok b
  | ⟨offset, event⟩ :: rest =>
      match b.feed offset event with
      | .ok next => next.assemble rest
      | .error fault => .error ⟨offset, fault⟩

/-- The events that are read before building stops, the refused one among them. -/
def eventsRead (b : Builder) : List (Located Event) -> List (Located Event)
  | [] => []
  | ⟨offset, event⟩ :: rest =>
      match b.feed offset event with
      | .ok next => ⟨offset, event⟩ :: next.eventsRead rest
      | .error _ => [⟨offset, event⟩]

section

variable {b next : Builder} {offset : Nat} {event : Event} {events rest : List (Located Event)}

theorem eventsRead_cons_of_feed_eq_ok (h : b.feed offset event = .ok next) :
    b.eventsRead (⟨offset, event⟩ :: rest) = ⟨offset, event⟩ :: next.eventsRead rest := by
  rw [eventsRead, h]

theorem eventsRead_cons_of_feed_eq_error {fault : StructureFault}
    (h : b.feed offset event = .error fault) :
    b.eventsRead (⟨offset, event⟩ :: rest) = [⟨offset, event⟩] := by
  rw [eventsRead, h]

theorem eventsRead_prefix (b : Builder) (events : List (Located Event)) :
    b.eventsRead events <+: events := by
  induction events generalizing b with
  | nil => exact List.prefix_rfl
  | cons located rest ih =>
      obtain ⟨offset, event⟩ := located
      cases hfeed : b.feed offset event with
      | ok next =>
          rw [eventsRead_cons_of_feed_eq_ok hfeed]
          exact List.cons_prefix_cons.mpr ⟨rfl, ih next⟩
      | error fault =>
          rw [eventsRead_cons_of_feed_eq_error hfeed]
          exact List.cons_prefix_cons.mpr ⟨rfl, List.nil_prefix⟩

theorem eventsRead_of_assemble (h : b.assemble events = .ok next) :
    b.eventsRead events = events := by
  induction events generalizing b with
  | nil => rfl
  | cons located rest ih =>
      obtain ⟨offset, event⟩ := located
      rw [assemble] at h
      split at h
      · next fed hfeed => rw [eventsRead_cons_of_feed_eq_ok hfeed, ih h]
      · cases h

end

end Builder

/-!
# Events of pieces

A piece is passed by the reader, then decoded in its scope.
-/

namespace Markup

def Piece.event (scope : Scope) : Piece -> Except Fault Event
  | .startTag content => (decodeTag scope content).map .startTag
  | .emptyTag content => (decodeTag scope content).map .emptyTag
  | .endTag _ => .ok .endTag
  | .text raw => (decodeText raw).map .text
  | .cdata raw => (decodeCdata raw).map .cdata
  | .instruction _ => .ok .instruction
  | .comment _ => .ok .comment
  | .doctype _ => .ok .doctype

theorem readEnd_eq (state : ReaderState) (content : Bytes) :
    readEnd state content =
      (closeName state (endName content)).map fun next => (.endTag, next) := by
  rw [readEnd, closeName]
  cases state.opened with
  | nil => rfl
  | cons innermost opened =>
      simp only
      split
      · rfl
      · rfl

theorem map_map_eq_bind {A B C E : Type} (r : Except E A) (f : A -> B) (g : B -> C) :
    (r.map f).map g = r >>= fun a => .ok (g (f a)) := by
  cases r with
  | error e => rfl
  | ok a => rfl

/-- A piece is passed first, and then decoded in its scope. -/
theorem readEvent_eq_pass (state : ReaderState) (piece : Piece) :
    readEvent state piece =
      state.pass piece >>= fun passed =>
        (piece.event passed.1).map fun event => (event, passed.2) := by
  cases piece with
  | startTag content =>
      rw [readEvent, ReaderState.pass, bind_assoc]
      refine bind_congr fun scope => ?_
      exact (map_map_eq_bind (decodeTag scope content) Event.startTag fun event => (event, _)).symm
  | emptyTag content =>
      rw [readEvent, ReaderState.pass, bind_assoc]
      refine bind_congr fun scope => ?_
      exact (map_map_eq_bind (decodeTag scope content) Event.emptyTag fun event => (event, _)).symm
  | endTag content =>
      rw [readEvent, ReaderState.pass, readEnd_eq]
      cases closeName state (endName content) with
      | error fault => rfl
      | ok next => rfl
  | text raw =>
      exact (map_map_eq_bind (decodeText raw) Event.text fun event => (event, state)).symm
  | cdata raw =>
      exact (map_map_eq_bind (decodeCdata raw) Event.cdata fun event => (event, state)).symm
  | instruction content => rfl
  | comment content => rfl
  | doctype content => rfl

/-- One step of a transcript: the next piece is passed, then decoded. -/
theorem transcribeFrom_cons (offset : Nat) (state : ReaderState)
    (before : List (Located Event)) (b : UInt8) (rest : Bytes) :
    transcribeFrom offset state before (b :: rest) =
      match state.next offset b rest with
      | .error fault => ⟨before.reverse, some fault⟩
      | .ok (piece, scope, after) =>
          match piece.event scope with
          | .error fault => ⟨before.reverse, some ⟨fault.offsetFrom offset, fault⟩⟩
          | .ok event =>
              transcribeFrom (offset + piece.size) after (⟨offset, event⟩ :: before)
                (rest.drop (piece.size - 1)) := by
  rw [transcribeFrom, ReaderState.next]
  cases readPiece b rest with
  | error pieceFault => rfl
  | ok piece =>
      simp only [readEvent_eq_pass]
      cases state.pass piece with
      | error fault => rfl
      | ok passed =>
          obtain ⟨scope, after⟩ := passed
          cases hevent : piece.event scope with
          | error fault => simp only [bind, Except.bind, hevent, Except.map]
          | ok event => simp only [bind, Except.bind, hevent, Except.map]

/-- Events that were there before stay in front. -/
theorem transcribeFrom_append (offset : Nat) (state : ReaderState)
    (before earlier : List (Located Event)) (bytes : Bytes) :
    transcribeFrom offset state (before ++ earlier) bytes =
      ⟨earlier.reverse ++ (transcribeFrom offset state before bytes).events,
        (transcribeFrom offset state before bytes).fault⟩ := by
  fun_induction transcribeFrom offset state before bytes with
  | case1 offset state before => rw [transcribeFrom, List.reverse_append]
  | case2 offset state before b rest pieceFault hpiece =>
      rw [transcribeFrom, hpiece, List.reverse_append]
  | case3 offset state before b rest piece hpiece fault hevent =>
      rw [transcribeFrom, hpiece]
      simp only [hevent, List.reverse_append]
  | case4 offset state before b rest piece hpiece event next hevent ih =>
      rw [transcribeFrom, hpiece]
      simp only [hevent]
      exact ih

end Markup

/-!
# Reading piece by piece
-/

namespace Document

variable {State : Type} (handler : Handler State) (input : Bytes)

/-- The warnings for the document type declarations among some events. -/
def doctypeWarnings (events : List (Located Event)) : List Notice :=
  (events.filter fun located => located.value = .doctype).map fun located =>
    .warning (doctypeWarning input located.offset)

theorem doctypeWarnings_cons (located : Located Event) (rest : List (Located Event)) :
    doctypeWarnings input (located :: rest) =
      doctypeWarnings input [located] ++ doctypeWarnings input rest := by
  rw [doctypeWarnings, doctypeWarnings, doctypeWarnings, ← List.map_append,
    ← List.filter_append]
  rfl

/-- What reading a transcript comes to, with what is built already. -/
def treeOf (b : Builder) (transcript : Transcript) : Except Issue Element :=
  match b.assemble transcript.events with
  | .error fault => .error (structureIssue input fault.offset fault.value)
  | .ok built =>
      match transcript.fault with
      | some fault => .error (Issue.locatedAt .fatal fault.value.message input fault.offset)
      | none => built.finish.mapError (structureIssue input input.length)

theorem treeOf_cons (b : Builder) (offset : Nat) (event : Event) (rest : List (Located Event))
    (fault : Option (Located Fault)) :
    treeOf input b ⟨⟨offset, event⟩ :: rest, fault⟩ =
      (b.feed offset event).mapError (structureIssue input offset) >>= fun next =>
        treeOf input next ⟨rest, fault⟩ := by
  rw [treeOf, Builder.assemble]
  cases b.feed offset event with
  | error fault => rfl
  | ok next => rfl

/-- The warning for a document type declaration. -/
def partWarnings (offset : Nat) : Piece -> List Notice
  | .doctype _ => [.warning (doctypeWarning input offset)]
  | _ => []

theorem reports_readPart (offset : Nat) (scope : Scope) (b : Builder) (piece : Piece) :
    Reports handler (readPart handler input offset scope b piece) (partWarnings input offset piece)
      ((piece.event scope).mapError (faultIssue input offset) >>= fun event =>
        (b.feed offset event).mapError (structureIssue input offset)) := by
  cases piece with
  | startTag content =>
      rw [readPart, Piece.event, mapError_map_bind]
      exact reports_openElement handler input offset scope b content
  | emptyTag content =>
      rw [readPart, Piece.event, mapError_map_bind]
      have hfeed : forall tag,
          (b.feed offset (.emptyTag tag)).mapError (structureIssue input offset) =
            (b.start tag offset).mapError (structureIssue input offset) >>= fun next =>
              next.close.mapError (structureIssue input offset) := by
        intro tag
        rw [← mapError_bind, Builder.feed_emptyTag]
      simp only [hfeed]
      rw [← bind_assoc]
      exact reports_bind_silent (reports_openElement handler input offset scope b content)
        fun next => reports_structure handler input offset next.close
  | endTag content => exact reports_structure handler input offset b.close
  | text raw =>
      rw [readPart, Piece.event, mapError_map_bind]
      exact reports_bind_silent (reports_decodeText handler input offset raw) fun content =>
        reports_structure handler input offset (b.text content)
  | cdata raw =>
      rw [readPart, Piece.event, mapError_map_bind]
      exact reports_bind_silent (reports_decodeCdata handler input offset raw) fun content =>
        reports_structure handler input offset (b.text content)
  | instruction content => exact reports_pure b
  | comment content => exact reports_pure b
  | doctype content => exact reports_bind (reports_warn _) (reports_pure b)

theorem exists_of_map_eq_ok {A B E : Type} {r : Except E A} {f : A -> B} {b : B}
    (h : r.map f = .ok b) : exists a, r = .ok a ∧ f a = b := by
  cases r with
  | error e => cases h
  | ok a =>
      cases h
      exact ⟨a, rfl, rfl⟩

variable {offset : Nat} {scope : Scope} {b : Builder} {piece : Piece} {event : Event}
variable {fault : Fault}

theorem partWarnings_of_event_eq_error (h : piece.event scope = .error fault) :
    partWarnings input offset piece = [] := by
  cases piece with
  | doctype content => cases h
  | _ => rfl

theorem doctypeWarnings_of_event (h : piece.event scope = .ok event) :
    doctypeWarnings input [⟨offset, event⟩] = partWarnings input offset piece := by
  cases piece with
  | startTag content =>
      rcases exists_of_map_eq_ok h with ⟨tag, _, rfl⟩
      rfl
  | emptyTag content =>
      rcases exists_of_map_eq_ok h with ⟨tag, _, rfl⟩
      rfl
  | text raw =>
      rcases exists_of_map_eq_ok h with ⟨content, _, rfl⟩
      rfl
  | cdata raw =>
      rcases exists_of_map_eq_ok h with ⟨content, _, rfl⟩
      rfl
  | endTag content =>
      cases h
      rfl
  | instruction content =>
      cases h
      rfl
  | comment content =>
      cases h
      rfl
  | doctype content =>
      cases h
      rfl

theorem reports_readPart_of_error (h : piece.event scope = .error fault) :
    Reports handler (readPart handler input offset scope b piece) []
      (.error (faultIssue input offset fault)) := by
  have hpart := reports_readPart handler input offset scope b piece
  rw [h, partWarnings_of_event_eq_error input h] at hpart
  exact hpart

theorem reports_readPart_of_ok (offset : Nat) (b : Builder) (h : piece.event scope = .ok event) :
    Reports handler (readPart handler input offset scope b piece)
      (doctypeWarnings input [⟨offset, event⟩])
      ((b.feed offset event).mapError (structureIssue input offset)) := by
  have hpart := reports_readPart handler input offset scope b piece
  rw [h, ← doctypeWarnings_of_event input h] at hpart
  exact hpart

/-- A transcript is read as its events say, with a warning for every document type
declaration until reading stops. -/
theorem reports_readFrom (offset : Nat) (reader : ReaderState) (b : Builder) (bytes : Bytes) :
    Reports handler (readFrom handler input offset reader b bytes)
      (doctypeWarnings input (b.eventsRead (transcribeFrom offset reader [] bytes).events))
      (treeOf input b (transcribeFrom offset reader [] bytes)) := by
  fun_induction readFrom handler input offset reader b bytes with
  | case1 offset reader b =>
      rw [transcribeFrom]
      exact reports_structure handler input input.length b.finish
  | case2 offset reader b head rest fault hnext =>
      rw [transcribeFrom_cons, hnext]
      exact reports_fatal fault.value.message fault.offset
  | case3 offset reader b head rest piece scope next hnext ih =>
      rw [transcribeFrom_cons, hnext]
      simp only
      cases hevent : piece.event scope with
      | error fault => exact reports_bind_of_error (reports_readPart_of_error handler input hevent)
      | ok event =>
          have hpart := reports_readPart_of_ok handler input offset b hevent
          have hrest := transcribeFrom_append (offset + piece.size) next [] [⟨offset, event⟩]
            (rest.drop (piece.size - 1))
          rw [List.nil_append] at hrest
          simp only [hrest, List.reverse_singleton, List.singleton_append]
          rw [treeOf_cons]
          cases hfeed : b.feed offset event with
          | error fault =>
              rw [hfeed] at hpart
              rw [Builder.eventsRead_cons_of_feed_eq_error hfeed]
              exact reports_bind_of_error hpart
          | ok fed =>
              rw [hfeed] at hpart
              rw [Builder.eventsRead_cons_of_feed_eq_ok hfeed, doctypeWarnings_cons]
              exact reports_bind hpart (ih fed)

/-- What reading the root of a text comes to. -/
theorem reports_readRoot :
    Reports handler (readRoot handler input)
      (doctypeWarnings input (Builder.empty.eventsRead (transcribe input).events))
      (treeOf input Builder.empty (transcribe input)) :=
  reports_readFrom handler input 0 ReaderState.initial Builder.empty (dropByteOrderMark input)

end Document
end FlowConfig
