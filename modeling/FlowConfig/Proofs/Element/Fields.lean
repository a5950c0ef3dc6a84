import FlowConfig.Flow.Decoding

/-!
# Fields

Records are read from the attributes of elements, from their text and from their
children by name.  A change of elements that keeps these, except the children of
one name that no record reads, keeps every field of a record.
-/

namespace FlowConfig
namespace Element

/-- A change of elements that keeps whatever is read of an element by names
other than one: its attributes, its text, and the children of the name, which
are changed themselves. -/
structure KeepsFields (ignored : String) (change : Element -> Element) : Prop where
  attributes : forall e : Element, (change e).attributes = e.attributes
  text : forall e : Element, (change e).text = e.text
  childrenNamed : forall {name : String} (e : Element), name ≠ ignored ->
    (change e).childrenNamed name = (e.childrenNamed name).map change

namespace KeepsFields

variable {ignored name : String} {change : Element -> Element}
  (h : KeepsFields ignored change) (e : Element)

include h

theorem child? (hname : name ≠ ignored) :
    (change e).child? name = (e.child? name).map change := by
  rw [child?_eq_head?, h.childrenNamed e hname, List.head?_map, child?_eq_head?]

theorem childText? (hname : name ≠ ignored) :
    (change e).childText? name = e.childText? name := by
  rw [Element.childText?, h.child? e hname, Option.map_map, Element.childText?]
  congr 1
  funext c
  exact h.text c

theorem fieldText (hname : name ≠ ignored) :
    (change e).fieldText name = e.fieldText name := by
  rw [Element.fieldText, h.childText? e hname, Element.fieldText]

theorem allTexts (hname : name ≠ ignored) :
    (change e).allTexts name = e.allTexts name := by
  rw [Element.allTexts, h.childrenNamed e hname, List.map_map, Element.allTexts]
  congr 1
  funext c
  exact h.text c

theorem integer? (hname : name ≠ ignored) :
    (change e).integer? name = e.integer? name := by
  rw [Element.integer?, h.childText? e hname, Element.integer?]

theorem flag (hname : name ≠ ignored) :
    (change e).flag name = e.flag name := by
  rw [Element.flag, h.childText? e hname, Element.flag]

theorem attribute? (key : String) :
    (change e).attribute? key = e.attribute? key := by
  rw [Element.attribute?, h.attributes, Element.attribute?]

theorem decimalAttribute (key : String) :
    (change e).decimalAttribute key = e.decimalAttribute key := by
  rw [Element.decimalAttribute, h.attribute?, Element.decimalAttribute]

theorem point : (change e).point = e.point := by
  rw [Element.point, h.decimalAttribute, h.decimalAttribute, Element.point]

theorem extent : (change e).extent = e.extent := by
  rw [Element.extent, h.decimalAttribute, h.decimalAttribute, Element.extent]

theorem map_childrenNamed {A : Type} {f : Element -> A}
    (hf : forall c : Element, f (change c) = f c) (hname : name ≠ ignored) :
    ((change e).childrenNamed name).map f = (e.childrenNamed name).map f := by
  rw [h.childrenNamed e hname, List.map_map]
  exact List.map_congr_left fun c _ => hf c

theorem map_child? {A : Type} {f : Element -> A}
    (hf : forall c : Element, f (change c) = f c) (hname : name ≠ ignored) :
    ((change e).child? name).map f = (e.child? name).map f := by
  rw [h.child? e hname, Option.map_map]
  congr 1
  funext c
  exact hf c

end KeepsFields
end Element
end FlowConfig
