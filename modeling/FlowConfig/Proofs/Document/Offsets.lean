import FlowConfig.Proofs.Bundle.Reporting
import FlowConfig.Proofs.Element.Offsets
import FlowConfig.Proofs.Flow.Records

/-!
# Documents without offsets

A document in which every byte offset is set to zero has the same places, with
the same elements up to their offsets, and the same way up and down.  So the
bundle check and the model do not depend on offsets.
-/

namespace FlowConfig

def Entry.withoutOffsets (entry : Entry) : Entry :=
  ⟨entry.element.withoutOffsets, entry.parent⟩

theorem entriesIn_withoutOffsets {es : List Element} {place parent : Nat}
    (h : forall c, c ∈ es -> forall place parent,
      entriesAt place parent c.withoutOffsets =
        (entriesAt place parent c).map Entry.withoutOffsets) :
    entriesIn place parent (es.map Element.withoutOffsets) =
      (entriesIn place parent es).map Entry.withoutOffsets := by
  induction es generalizing place with
  | nil => rfl
  | cons c rest ih =>
      rw [List.map_cons, entriesIn, h c List.mem_cons_self, Element.size_withoutOffsets,
        ih fun e he => h e (List.mem_cons_of_mem c he), entriesIn, List.map_append]

theorem entriesAt_withoutOffsets (place : Nat) (parent : Option Nat) (e : Element) :
    entriesAt place parent e.withoutOffsets =
      (entriesAt place parent e).map Entry.withoutOffsets := by
  induction e using Element.treeInduction generalizing place parent with
  | step e ih =>
      rw [entriesAt_eq, Element.children_withoutOffsets, entriesIn_withoutOffsets ih,
        entriesAt_eq, List.map_cons]
      rfl

namespace Document

variable (d : Document)

def withoutOffsets : Document :=
  .ofRoot d.root.withoutOffsets

/-!
# Places
-/

theorem entries_withoutOffsets :
    d.withoutOffsets.entries = d.entries.map Entry.withoutOffsets := by
  apply Array.toList_inj.mp
  rw [toList_entries, Array.toList_map, toList_entries]
  exact entriesAt_withoutOffsets 0 none d.root

theorem element?_withoutOffsets (place : Nat) :
    d.withoutOffsets.element? place = (d.element? place).map Element.withoutOffsets := by
  rw [element?, entries_withoutOffsets, Array.getElem?_map, Option.map_map, element?,
    Option.map_map]
  rfl

theorem parent?_withoutOffsets (place : Nat) :
    d.withoutOffsets.parent? place = d.parent? place := by
  rw [parent?, entries_withoutOffsets, Array.getElem?_map, parent?]
  cases d.entries[place]? with
  | none => rfl
  | some entry => rfl

theorem size_withoutOffsets : d.withoutOffsets.size = d.size := by
  rw [size, entries_withoutOffsets, Array.size_map, size]

theorem hasName_withoutOffsets (name : String) :
    d.withoutOffsets.hasName name = d.hasName name := by
  funext place
  rw [hasName, element?_withoutOffsets, hasName]
  cases d.element? place with
  | none => rfl
  | some e => simp

theorem placesNamed_withoutOffsets (name : String) :
    d.withoutOffsets.placesNamed name = d.placesNamed name := by
  rw [placesNamed, places, size_withoutOffsets, hasName_withoutOffsets, placesNamed, places]

theorem ancestors_withoutOffsets (place : Nat) :
    d.withoutOffsets.ancestors place = d.ancestors place := by
  induction place using Nat.strongRecOn with
  | ind place ih =>
      rw [ancestors, parent?_withoutOffsets, ancestors]
      cases d.parent? place with
      | none => rfl
      | some p =>
          simp only
          split
          · next hlt => rw [ih p hlt]
          · rfl

theorem siblingPlaces_withoutOffsets (place : Nat) (es : List Element) :
    siblingPlaces place (es.map Element.withoutOffsets) = siblingPlaces place es := by
  induction es generalizing place with
  | nil => rfl
  | cons e rest ih =>
      rw [List.map_cons, siblingPlaces, Element.descendantCount_withoutOffsets, ih, siblingPlaces]

theorem childPlaces_withoutOffsets (place : Nat) :
    d.withoutOffsets.childPlaces place = d.childPlaces place := by
  rw [childPlaces, element?_withoutOffsets, childPlaces]
  cases d.element? place with
  | none => rfl
  | some e =>
      simp only [Option.map_some, Element.children_withoutOffsets, siblingPlaces_withoutOffsets]

theorem descendantPlaces_withoutOffsets (place : Nat) :
    d.withoutOffsets.descendantPlaces place = d.descendantPlaces place := by
  rw [descendantPlaces, element?_withoutOffsets, descendantPlaces]
  cases d.element? place with
  | none => rfl
  | some e => simp only [Option.map_some, Element.descendantCount_withoutOffsets]

/-!
# The bundle check
-/

variable (resolver : Resolver)

theorem withinTemplate_withoutOffsets (place : Nat) :
    d.withoutOffsets.withinTemplate place = d.withinTemplate place := by
  rw [withinTemplate, isWithin_eq_any_hasName, ancestors_withoutOffsets, hasName_withoutOffsets,
    ← isWithin_eq_any_hasName, withinTemplate]

theorem incompatibility?_withoutOffsets (component bundle : Nat) :
    d.withoutOffsets.incompatibility? resolver component bundle =
      d.incompatibility? resolver component bundle := by
  have hreference := (Element.keepsFields_withoutOffsets templateName).bundleReference
  rw [incompatibility?, element?_withoutOffsets, element?_withoutOffsets, incompatibility?]
  cases d.element? component with
  | none => rfl
  | some c =>
      cases d.element? bundle with
      | none => rfl
      | some b => simp only [Option.map_some, hreference]

theorem checkAll_withoutOffsets :
    d.withoutOffsets.checkAll resolver = d.checkAll resolver := by
  rw [checkAll_eq_filterMap, placesNamed_withoutOffsets, checkAll_eq_filterMap]
  apply List.filterMap_congr
  intro bundle _
  simp only [missing?, parent?_withoutOffsets, withinTemplate_withoutOffsets,
    incompatibility?_withoutOffsets]

theorem check_withoutOffsets : d.withoutOffsets.check resolver = d.check resolver := by
  rw [check_eq_firstOf, faults, checkAll_withoutOffsets, ← faults, ← check_eq_firstOf]

end Document

/-!
# The model
-/

theorem Model.ofDocument_withoutOffsets (d : Document) :
    ofDocument d.withoutOffsets = ofDocument d := by
  have hkeeps := Element.keepsFields_withoutOffsets Document.templateName
  have hfirst : forall {A : Type} {f : Element -> A} {name : String},
      (forall e : Element, f e.withoutOffsets = f e) ->
        (d.root.withoutOffsets.descendant? name).map f = (d.root.descendant? name).map f := by
    intro A f name hf
    rw [Element.descendant?_withoutOffsets, Option.map_map]
    congr 1
    funext e
    exact hf e
  show ofRoot d.root.withoutOffsets = ofRoot d.root
  rw [ofRoot, hfirst hkeeps.reportingTask, hfirst hkeeps.controllerService,
    Element.descendant?_withoutOffsets]
  simp only [hkeeps.versionOf, hkeeps.map_processGroup]
  rfl

end FlowConfig
