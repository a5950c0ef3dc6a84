import FlowConfig.Proofs.Document.Numbering
import FlowConfig.Proofs.Document.Reading
import FlowConfig.Proofs.Markup.StartTag

/-!
# Where elements are opened

Every start tag of a well-formed text opens one element, and the elements stand in
document order as their start tags stand in the text.  Feeding an event to the builder
adds the tag of the event, if it has one, to the tags of the elements started so far.
-/

namespace FlowConfig

open Markup

def Heading.opening (h : Heading) : Located Tag :=
  ⟨h.origin.offset, h.tag⟩

def Element.opening (e : Element) : Located Tag :=
  ⟨e.origin.offset, ⟨e.name, e.uri, e.attributes⟩⟩

theorem map_element_entriesIn {es : List Element} {place parent : Nat}
    (h : forall e, e ∈ es -> forall place parent,
      (entriesAt place parent e).map Entry.element = e.elements) :
    (entriesIn place parent es).map Entry.element = es.flatMap Element.elements := by
  induction es generalizing place with
  | nil => rfl
  | cons e rest ih =>
      rw [entriesIn, List.map_append, List.flatMap_cons, h e List.mem_cons_self,
        ih fun c hc => h c (List.mem_cons_of_mem e hc)]

/-- The table lists the elements of the tree in document order. -/
theorem map_element_entriesAt (place : Nat) (parent : Option Nat) (e : Element) :
    (entriesAt place parent e).map Entry.element = e.elements := by
  induction e using Element.treeInduction generalizing place parent with
  | step e ih =>
      rw [entriesAt_eq, Element.elements_eq, List.map_cons, map_element_entriesIn ih]

theorem Document.map_opening_headings (d : Document) :
    d.headings.map Heading.opening = d.root.elements.map Element.opening := by
  rw [headings, toList_entries, ← map_element_entriesAt 0 none, List.map_map, List.map_map]
  rfl

namespace Builder

variable {b next last : Builder} {offset : Nat} {event : Event}

/-- The tags of the elements started so far, at their offsets. -/
def openings (b : Builder) : List (Located Tag) :=
  b.headings.map Heading.opening

def Step.opening? : Step -> Option (Located Tag)
  | .start tag offset => some ⟨offset, tag⟩
  | .close => none
  | .text _ => none

/-- After further steps or events the elements are still numbered one after the other,
and the given tags were added. -/
structure Opens (b : Builder) (tags : List (Located Tag)) (next : Builder) : Prop where
  numbered : next.Numbered
  openings_eq : next.openings = b.openings ++ tags

theorem opens_refl (h : b.Numbered) : b.Opens [] b :=
  ⟨h, (List.append_nil b.openings).symm⟩

theorem opens_trans {tags more : List (Located Tag)} (h : b.Opens tags next)
    (hmore : next.Opens more last) : b.Opens (tags ++ more) last := by
  refine ⟨hmore.numbered, ?_⟩
  rw [hmore.openings_eq, h.openings_eq, List.append_assoc]

theorem opens_of_perform {s : Step} (hnumbered : b.Numbered) (h : b.perform s = .ok next) :
    b.Opens s.opening?.toList next := by
  have htakes := takes_of_perform h
  refine ⟨numbered_of_takes hnumbered htakes, ?_⟩
  rw [openings, headings_of_takes hnumbered htakes, List.map_append, openings]
  cases s with
  | start tag offset => rfl
  | close => rfl
  | text content => rfl

theorem opens_of_feed (hnumbered : b.Numbered) (h : b.feed offset event = .ok next) :
    b.Opens (Located.tag? ⟨offset, event⟩).toList next := by
  cases event with
  | startTag tag =>
      have hperform : b.perform (.start tag offset) = .ok next := h
      exact opens_of_perform hnumbered hperform
  | emptyTag tag =>
      rw [feed] at h
      split at h
      · next started hstart =>
          have hperform : b.perform (.start tag offset) = .ok started := hstart
          have hclose : started.perform .close = .ok next := h
          have hopens := opens_of_perform hnumbered hperform
          exact opens_trans hopens (opens_of_perform hopens.numbered hclose)
      · cases h
  | endTag =>
      have hperform : b.perform .close = .ok next := h
      exact opens_of_perform hnumbered hperform
  | text content =>
      have hperform : b.perform (.text content) = .ok next := h
      exact opens_of_perform hnumbered hperform
  | cdata content =>
      have hperform : b.perform (.text content) = .ok next := h
      exact opens_of_perform hnumbered hperform
  | instruction =>
      cases h
      exact opens_refl hnumbered
  | comment =>
      cases h
      exact opens_refl hnumbered
  | doctype =>
      cases h
      exact opens_refl hnumbered

end Builder

namespace Document

variable {State : Type} {handler : Handler State} {input : Bytes} {root : Element}

theorem opens_of_assemble {builder last : Builder} {events : List (Located Event)}
    (hnumbered : builder.Numbered) (h : builder.assemble events = .ok last) :
    builder.Opens (tagsIn events) last := by
  induction events generalizing builder with
  | nil =>
      cases h
      exact Builder.opens_refl hnumbered
  | cons located rest ih =>
      obtain ⟨offset, event⟩ := located
      rw [Builder.assemble] at h
      split at h
      · next fed hfeed =>
          have hopens := Builder.opens_of_feed hnumbered hfeed
          rw [tagsIn_cons]
          exact Builder.opens_trans hopens (ih hopens.numbered h)
      · cases h

/-- The elements of a well-formed text are opened by its start tags, one by each, in the
same order. -/
theorem isReadAs_of_readTree {state : State}
    (h : (readTree handler state input).2 = .ok root) :
    List.Forall₂ IsReadAs (startTags (dropByteOrderMark input))
      (root.elements.map Element.opening) := by
  rcases exists_builder_of_readTree h with ⟨builder, hassemble, hfault, hfinish⟩
  have hopens := opens_of_assemble Builder.numbered_empty hassemble
  have helements : root.elements.map Element.opening = builder.openings := by
    rw [Builder.openings, ← Builder.headings_ofRoot_of_finish hfinish, map_opening_headings]
    rfl
  rw [transcribe] at hopens hfault
  rcases isReadAs_of_transcribeFrom hfault with ⟨events, hevents, htags⟩
  rw [hevents] at hopens
  rw [helements, hopens.openings_eq]
  exact htags

end Document
end FlowConfig
