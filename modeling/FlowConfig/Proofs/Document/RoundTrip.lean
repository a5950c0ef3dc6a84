import FlowConfig.Proofs.Document.Offsets
import FlowConfig.Proofs.Document.Outline
import FlowConfig.Proofs.Document.Reading
import FlowConfig.Proofs.Schema.Offsets

/-!
# Parsing undoes rendering

A rendered outline is always well formed.  Where the schema admits its tree, the
document that is read has the rows of the outline: at every place the name, the
attributes and the text that were rendered, with the way up, the children and the
range of everything inside.
-/

namespace FlowConfig

/-- What a document says of one place: the element there, the way up, and the places of
its children and of all elements inside it. -/
structure Row where
  name : String
  uri : Option String
  attributes : List (String × String)
  text : String
  parent : Option Nat
  children : List Nat
  descendants : List Nat
deriving DecidableEq, Repr

/-!
# Rows of a document
-/

namespace Document

variable (d : Document)

def row? (place : Nat) : Option Row :=
  (d.element? place).map fun e =>
    ⟨e.name, e.uri, e.attributes, e.text, d.parent? place, d.childPlaces place,
      d.descendantPlaces place⟩

theorem row?_withoutOffsets (place : Nat) : d.withoutOffsets.row? place = d.row? place := by
  rw [row?, element?_withoutOffsets, parent?_withoutOffsets, childPlaces_withoutOffsets,
    descendantPlaces_withoutOffsets, Option.map_map, row?]
  congr 1
  funext e
  simp

def rowAt (place : Nat) (entry : Entry) : Row :=
  ⟨entry.element.name, entry.element.uri, entry.element.attributes, entry.element.text,
    entry.parent, siblingPlaces (place + 1) entry.element.children,
    List.range' (place + 1) entry.element.descendantCount⟩

theorem row?_eq (place : Nat) : d.row? place = d.entries[place]?.map (rowAt place) := by
  rw [row?, element?, parent?, childPlaces, descendantPlaces, element?]
  cases d.entries[place]? with
  | none => rfl
  | some entry => rfl

/-- The rows of a document can be read off its table. -/
theorem map_row?_places :
    d.places.map d.row? = (d.entries.toList.mapIdx rowAt).map some := by
  apply List.ext_getElem?
  intro place
  rw [List.getElem?_map, List.getElem?_map, List.getElem?_mapIdx, places]
  by_cases hplace : place < d.size
  · rw [List.getElem?_range hplace, Option.map_some, row?_eq, Array.getElem?_toList,
      Array.getElem?_eq_getElem hplace]
    rfl
  · have hnone : d.entries.toList[place]? = none := by
      rw [Array.getElem?_toList, Array.getElem?_eq_none_iff]
      exact Nat.le_of_not_lt hplace
    rw [hnone, List.getElem?_eq_none]
    · rfl
    · rw [List.length_range]
      exact Nat.le_of_not_lt hplace

end Document

/-!
# Sizes
-/

namespace Outline

theorem totalSize_elementsAt {ts : List Outline}
    (h : forall t, t ∈ ts -> forall rank, (t.elementAt rank).size = t.size) (rank : Nat) :
    Element.totalSize (elementsAt rank ts) = totalSize ts := by
  induction ts generalizing rank with
  | nil => rfl
  | cons t rest ih =>
      rw [elementsAt, Element.totalSize_cons, h t List.mem_cons_self,
        ih fun u hu => h u (List.mem_cons_of_mem t hu), totalSize]

theorem size_elementAt (rank : Nat) (t : Outline) : (t.elementAt rank).size = t.size := by
  induction t using treeInduction generalizing rank with
  | step t ih => rw [elementAt_eq, Element.size_eq, totalSize_elementsAt ih, size_eq]

theorem descendantCount_elementAt (rank : Nat) (t : Outline) :
    (t.elementAt rank).descendantCount = totalSize t.children := by
  rw [Element.descendantCount_eq, elementAt_eq]
  exact totalSize_elementsAt (fun u _ rank => u.size_elementAt rank) (rank + 1)

/-!
# Rows of an outline
-/

def placesFrom (place : Nat) : List Outline -> List Nat
  | [] => []
  | t :: rest => place :: placesFrom (place + t.size) rest

mutual

def rowsAt (place : Nat) (parent : Option Nat) : Outline -> List Row
  | ⟨name, attributes, text, children⟩ =>
      ⟨name.text, none, attributes.entries.map fun a => (a.1.text, a.2), text, parent,
        placesFrom (place + 1) children, List.range' (place + 1) (totalSize children)⟩ ::
          rowsIn (place + 1) place children

def rowsIn (place parent : Nat) : List Outline -> List Row
  | [] => []
  | t :: rest => t.rowsAt place (some parent) ++ rowsIn (place + t.size) parent rest

end

def rows (t : Outline) : List Row :=
  t.rowsAt 0 none

theorem siblingPlaces_elementsAt (place rank : Nat) (ts : List Outline) :
    Document.siblingPlaces place (elementsAt rank ts) = placesFrom place ts := by
  induction ts generalizing place rank with
  | nil => rfl
  | cons t rest ih =>
      rw [elementsAt, Document.siblingPlaces, descendantCount_elementAt, ih, placesFrom, size_eq,
        Nat.add_assoc, Nat.add_comm 1]

def rowsOf (place : Nat) (entries : List Entry) : List Row :=
  entries.mapIdx fun i => Document.rowAt (place + i)

theorem rowsOf_cons (place : Nat) (entry : Entry) (rest : List Entry) :
    rowsOf place (entry :: rest) = Document.rowAt place entry :: rowsOf (place + 1) rest := by
  rw [rowsOf, List.mapIdx_cons, rowsOf]
  congr 2
  funext i
  rw [Nat.add_assoc, Nat.add_comm 1]

theorem rowsOf_append (place : Nat) (entries more : List Entry) :
    rowsOf place (entries ++ more) =
      rowsOf place entries ++ rowsOf (place + entries.length) more := by
  induction entries generalizing place with
  | nil => rfl
  | cons entry rest ih =>
      rw [List.cons_append, rowsOf_cons, ih, rowsOf_cons, List.length_cons, Nat.add_assoc,
        Nat.add_comm 1, List.cons_append]

/-- Siblings have consecutive stretches of the table, each as long as its tree is
large. -/
theorem rowsOf_entriesIn {ts : List Outline}
    (h : forall t, t ∈ ts -> forall rank place parent,
      rowsOf place (entriesAt place parent (t.elementAt rank)) = t.rowsAt place parent)
    (rank place parent : Nat) :
    rowsOf place (entriesIn place parent (elementsAt rank ts)) = rowsIn place parent ts := by
  induction ts generalizing rank place with
  | nil => rfl
  | cons t rest ih =>
      rw [elementsAt, entriesIn, rowsOf_append, h t List.mem_cons_self, length_entriesAt,
        size_elementAt, ih fun u hu => h u (List.mem_cons_of_mem t hu), rowsIn]

theorem rowsOf_entriesAt (t : Outline) (rank place : Nat) (parent : Option Nat) :
    rowsOf place (entriesAt place parent (t.elementAt rank)) = t.rowsAt place parent := by
  induction t using treeInduction generalizing rank place parent with
  | step t ih =>
      have hcount := t.descendantCount_elementAt rank
      rw [elementAt_eq] at hcount ⊢
      rw [entriesAt_eq, rowsOf_cons, rowsOf_entriesIn ih, Document.rowAt, hcount,
        siblingPlaces_elementsAt]
      cases t
      rw [rowsAt]
      rfl

theorem map_row?_places_ofRoot (t : Outline) :
    (Document.ofRoot t.element).places.map (Document.ofRoot t.element).row? =
      t.rows.map some := by
  have hrows := t.rowsOf_entriesAt 0 0 none
  rw [Document.map_row?_places, Document.toList_entries, rows, ← hrows, rowsOf]
  simp only [Nat.zero_add]
  rfl

end Outline

namespace Document

theorem map_row?_places_withoutOffsets (d : Document) :
    d.withoutOffsets.places.map d.withoutOffsets.row? = d.places.map d.row? := by
  rw [places, size_withoutOffsets, places]
  exact List.map_congr_left fun place _ => d.row?_withoutOffsets place

/-- Reading the text of an outline gives the outline back, if the schema admits its
tree, and an error that is not fatal if the schema does not. -/
theorem parse_render (t : Outline) :
    (flowSchema.Admits t.element ∧ exists d : Document, parse t.render = .ok (some d) ∧
      d.root.withoutOffsets = t.element ∧ d.places.map d.row? = t.rows.map some) ∨
    (¬ flowSchema.Admits t.element ∧ exists issue : Issue, parse t.render = .error issue ∧
      issue.severity = .error) := by
  have hinput : t.render ≠ [] := by
    rw [← List.append_nil t.render, Outline.render_append]
    exact List.cons_ne_nil _ _
  have htree := t.toOption_readTree_render Handler.silent ()
  have houtcome := outcome_parse hinput
  revert houtcome
  generalize (readTree Handler.silent () t.render).2.toOption = tree at htree ⊢
  generalize parse t.render = answer
  intro houtcome
  cases houtcome with
  | malformed hfatal => cases htree
  | @invalid root issue hrefused hseverity =>
      have hroot : root.withoutOffsets = t.element := Option.some.inj htree
      refine .inr ⟨?_, issue, rfl, hseverity⟩
      rw [← hroot, Schema.admits_withoutOffsets_iff]
      exact hrefused
  | @valid root hadmits =>
      have hroot : root.withoutOffsets = t.element := Option.some.inj htree
      refine .inl ⟨?_, ofRoot root, rfl, hroot, ?_⟩
      · rw [← hroot, Schema.admits_withoutOffsets_iff]
        exact hadmits
      · rw [← map_row?_places_withoutOffsets, ← t.map_row?_places_ofRoot, ← hroot]
        rfl

end Document
end FlowConfig
