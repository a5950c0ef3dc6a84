import FlowConfig.Proofs.Document.Numbering

/-!
# Closing elements

The elements inside an element are those that are started while it is open.  So the
number of elements started when it is closed bounds the range of places inside it.
-/

namespace FlowConfig
namespace Builder

/-- The elements that are closed, inside open ones or all of them. -/
def finished (b : Builder) : List Element :=
  match b.opened, b.root with
  | [], some root => root.elements
  | opened, _ => opened.flatMap fun e => e.children.flatMap Element.elements

/-- The number of the element that a step closes, if it closes one, and how many elements
are started by then. -/
def closed? (b : Builder) : Step -> Option (Nat × Nat)
  | .start _ _ => none
  | .close => b.innermost?.map fun number => (number, b.started)
  | .text _ => none

/-- The numbers of the elements that accepted steps close. -/
def closedIn (taken : List (Builder × Step)) : List (Nat × Nat) :=
  taken.flatMap fun t => (t.1.closed? t.2).toList

/-- The closing of an element: its number, and the number of what comes next after it
and all inside it. -/
def closing (e : Element) : Nat × Nat :=
  (e.origin.rank, e.origin.rank + e.size)

theorem mem_closings_finish {e : OpenElement} {c : Nat × Nat} :
    c ∈ e.finish.elements.map closing <->
      c = closing e.finish ∨ c ∈ (e.children.flatMap Element.elements).map closing := by
  rw [Element.elements_eq, List.map_cons, List.mem_cons, List.mem_map, List.mem_map]
  simp only [OpenElement.finish, List.mem_flatMap, List.mem_reverse]

section

variable {b next : Builder} {s : Step}

theorem closing_innermost {e : OpenElement} {rest : List OpenElement} (h : b.Numbered)
    (hopened : b.opened = e :: rest) : b.closed? .close = some (closing e.finish) := by
  obtain ⟨opened, top, started⟩ := b
  cases hopened
  have hlength := length_headings h
  simp only [headings] at hlength
  rw [openHeadings_cons, List.length_append, length_headingsAt] at hlength
  have hrank := Option.some.inj (innermost?_eq h)
  rw [closed?, innermost?, ← hlength, ← hrank]
  rfl

theorem mem_closings_of_takes (hnumbered : b.Numbered) (h : Takes b s next) (c : Nat × Nat) :
    c ∈ next.finished.map closing <->
      c ∈ b.finished.map closing ∨ c ∈ (b.closed? s).toList := by
  cases h with
  | root tag offset started => exact (or_iff_left List.not_mem_nil).symm
  | inner tag offset e rest top started => exact (or_iff_left List.not_mem_nil).symm
  | closeRoot e top started =>
      rw [closing_innermost hnumbered rfl, Option.toList_some, List.mem_singleton, or_comm]
      simp only [finished, List.flatMap_cons, List.flatMap_nil, List.append_nil]
      exact mem_closings_finish
  | closeInner e outer rest top started =>
      rw [closing_innermost hnumbered rfl, Option.toList_some, List.mem_singleton, or_comm]
      simp only [finished, List.flatMap_cons, OpenElement.enclose, List.map_append,
        List.mem_append, mem_closings_finish, or_assoc]
  | blank content top started => exact (or_iff_left List.not_mem_nil).symm
  | text content e rest top started => exact (or_iff_left List.not_mem_nil).symm

end

theorem mem_closings_run {b : Builder} (hnumbered : b.Numbered) (steps : List Step)
    (c : Nat × Nat) :
    c ∈ (b.run steps).2.finished.map closing <->
      c ∈ b.finished.map closing ∨ c ∈ closedIn (b.run steps).1 := by
  refine run_induction (P := fun b taken last => c ∈ last.finished.map closing <->
    c ∈ b.finished.map closing ∨ c ∈ closedIn taken) ?_ ?_ hnumbered steps
  · intro b _
    exact (or_iff_left List.not_mem_nil).symm
  · intro b s next taken last hnumbered htakes hrest
    rw [hrest, mem_closings_of_takes hnumbered htakes, closedIn, closedIn, List.flatMap_cons,
      List.mem_append, or_assoc]

theorem finished_of_finish {b : Builder} {root : Element} (h : b.finish = .ok root) :
    b.finished = root.elements := by
  rw [eq_of_finish h]
  rfl

end Builder

/-!
# Closings in the finished document
-/

namespace Document

variable {d : Document}

/-- The elements of the document are numbered by their places. -/
def NumberedByPlace (d : Document) : Prop :=
  d.headings.map (fun heading => heading.origin.rank) = d.places

theorem rank_of_element? (hnumbered : d.NumberedByPlace) {place : Nat} {e : Element}
    (h : d.element? place = some e) : e.origin.rank = place := by
  rcases exists_stands_of_element? h with ⟨parent, hstands⟩
  have hentry : d.entries.toList[place]? = some ⟨e, parent⟩ := by
    rw [Array.getElem?_toList, entry_of_stands hstands]
  have hranked := congrArg (fun ranks => ranks[place]?) hnumbered
  simp only [headings, List.getElem?_map, hentry, places] at hranked
  rw [List.getElem?_range (lt_size_of_element? h)] at hranked
  exact Option.some.inj hranked

theorem mem_closings_iff (hnumbered : d.NumberedByPlace) {place stop : Nat} :
    (place, stop) ∈ d.root.elements.map Builder.closing <->
      place < d.size ∧ stop = place + 1 + (d.descendantPlaces place).length := by
  have hclosing : forall e, d.element? place = some e ->
      Builder.closing e = (place, place + 1 + (d.descendantPlaces place).length) := by
    intro e helement
    rw [Builder.closing, rank_of_element? hnumbered helement, Element.size_eq_descendantCount,
      descendantPlaces, helement, Nat.add_assoc]
    simp only [List.length_range']
  rw [List.mem_map]
  constructor
  · intro h
    rcases h with ⟨e, hmem, heq⟩
    rcases mem_elements_iff.mp hmem with ⟨place', helement⟩
    have hplace : place' = place := by
      rw [← rank_of_element? hnumbered helement]
      exact congrArg Prod.fst heq
    rw [hplace] at helement
    rw [hclosing e helement] at heq
    exact ⟨lt_size_of_element? helement, (congrArg Prod.snd heq).symm⟩
  · intro h
    rcases h with ⟨hlt, hstop⟩
    have helement : d.element? place = some d.entries[place].element := by
      rw [element?, Array.getElem?_eq_getElem hlt]
      rfl
    refine ⟨_, mem_elements_iff.mpr ⟨place, helement⟩, ?_⟩
    rw [hclosing _ helement, hstop]

end Document

namespace Builder

/-- Whatever steps are taken, refused ones among them: in the finished document the
elements stand in the order in which they were started, each at the place that is its
number, under the parent that was the innermost open element then.  The places inside an
element end with the last one given out before it was closed.  All walks from place to
place are walks on this one tree. -/
theorem finished_document_is_preordered (steps : List Step) (root : Element)
    (h : (empty.run steps).2.finish = .ok root) :
    (Document.ofRoot root).headings = startedIn (empty.run steps).1 ∧
      (Document.ofRoot root).NumberedByPlace ∧
      (forall place stop, (place, stop) ∈ closedIn (empty.run steps).1 <->
        place < (Document.ofRoot root).size ∧
          stop = place + 1 + ((Document.ofRoot root).descendantPlaces place).length) ∧
      (Document.ofRoot root).Preordered := by
  have hnumbered := numbered_run numbered_empty steps
  have hheadings := headings_ofRoot_of_finish h
  have hplaces : (Document.ofRoot root).NumberedByPlace := by
    have hsize : (empty.run steps).2.started = (Document.ofRoot root).size := by
      rw [← length_headings hnumbered, ← hheadings, Document.headings, List.length_map,
        Array.length_toList, Document.size]
    rw [Document.NumberedByPlace, hheadings, hnumbered, hsize, Document.places]
  refine ⟨?_, hplaces, ?_, (Document.ofRoot root).preordered⟩
  · rw [hheadings, headings_run numbered_empty]
    rfl
  · intro place stop
    have hroot : (Document.ofRoot root).root = root := rfl
    rw [← Document.mem_closings_iff hplaces, hroot, ← finished_of_finish h,
      mem_closings_run numbered_empty]
    exact (or_iff_right List.not_mem_nil).symm

def scatteredSteps : List Step :=
  [.close, .text "stray", .start ⟨"a", none, []⟩ 0, .text "x", .start ⟨"b", none, []⟩ 4, .close,
    .start ⟨"c", none, []⟩ 9, .start ⟨"d", none, []⟩ 12, .close, .close, .close,
    .start ⟨"second", none, []⟩ 20, .close, .text " "]

theorem finished_document_is_preordered_scatteredSteps :
    exists root, (empty.run scatteredSteps).2.finish = .ok root ∧
      (Document.ofRoot root).headings =
        [⟨⟨"a", none, []⟩, ⟨0, 0⟩, none⟩, ⟨⟨"b", none, []⟩, ⟨1, 4⟩, some 0⟩,
          ⟨⟨"c", none, []⟩, ⟨2, 9⟩, some 0⟩, ⟨⟨"d", none, []⟩, ⟨3, 12⟩, some 2⟩] ∧
      closedIn (empty.run scatteredSteps).1 = [(1, 2), (3, 4), (2, 4), (0, 4)] ∧
      (Document.ofRoot root).Preordered := by
  have hfinish : (empty.run scatteredSteps).2.finish = .ok _ := rfl
  rcases finished_document_is_preordered scatteredSteps _ hfinish with
    ⟨hheadings, _, _, hpreordered⟩
  exact ⟨_, hfinish, hheadings.trans rfl, rfl, hpreordered⟩

end Builder
end FlowConfig
