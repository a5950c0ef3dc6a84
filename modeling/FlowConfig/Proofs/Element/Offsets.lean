import FlowConfig.Proofs.Element.Fields
import FlowConfig.Proofs.Element.Tree

/-!
# Forgetting offsets

The byte offset of a start tag is the only part of an element that depends on how
the document is written.  It serves to locate issues; nothing else reads it.
-/

namespace FlowConfig

def Node.withoutOffset (n : Node) : Node :=
  ⟨n.name, n.uri, n.attributes, n.text, ⟨n.origin.rank, 0⟩⟩

namespace Element

mutual

def withoutOffsets : Element -> Element
  | ⟨node, children⟩ => ⟨node.withoutOffset, withoutOffsetsIn children⟩

def withoutOffsetsIn : List Element -> List Element
  | [] => []
  | c :: rest => c.withoutOffsets :: withoutOffsetsIn rest

end

theorem withoutOffsetsIn_eq_map (es : List Element) :
    withoutOffsetsIn es = es.map withoutOffsets := by
  induction es with
  | nil => rfl
  | cons e rest ih => rw [withoutOffsetsIn, ih, List.map_cons]

theorem withoutOffsets_eq (e : Element) :
    e.withoutOffsets = ⟨e.node.withoutOffset, e.children.map withoutOffsets⟩ := by
  cases e with
  | mk node children => rw [withoutOffsets, withoutOffsetsIn_eq_map]

@[simp] theorem children_withoutOffsets (e : Element) :
    e.withoutOffsets.children = e.children.map withoutOffsets := by
  rw [withoutOffsets_eq]

@[simp] theorem name_withoutOffsets (e : Element) : e.withoutOffsets.name = e.name := by
  rw [withoutOffsets_eq]
  rfl

@[simp] theorem uri_withoutOffsets (e : Element) : e.withoutOffsets.uri = e.uri := by
  rw [withoutOffsets_eq]
  rfl

@[simp] theorem attributes_withoutOffsets (e : Element) :
    e.withoutOffsets.attributes = e.attributes := by
  rw [withoutOffsets_eq]
  rfl

@[simp] theorem text_withoutOffsets (e : Element) : e.withoutOffsets.text = e.text := by
  rw [withoutOffsets_eq]
  rfl

theorem childrenNamed_withoutOffsets {name : String} (e : Element) :
    e.withoutOffsets.childrenNamed name = (e.childrenNamed name).map withoutOffsets := by
  rw [childrenNamed, children_withoutOffsets, List.filter_map, childrenNamed]
  congr 1
  apply List.filter_congr
  intro c _
  rw [Function.comp_apply, name_withoutOffsets]

/-- No record reads an offset. -/
theorem keepsFields_withoutOffsets (ignored : String) : KeepsFields ignored withoutOffsets where
  attributes := attributes_withoutOffsets
  text := text_withoutOffsets
  childrenNamed := fun e _ => childrenNamed_withoutOffsets e

/-!
# Walks
-/

theorem totalSize_map_withoutOffsets {es : List Element}
    (h : forall e, e ∈ es -> e.withoutOffsets.size = e.size) :
    totalSize (es.map withoutOffsets) = totalSize es := by
  induction es with
  | nil => rfl
  | cons e rest ih =>
      rw [List.map_cons, totalSize_cons, h e List.mem_cons_self,
        ih fun c hc => h c (List.mem_cons_of_mem e hc), totalSize_cons]

theorem size_withoutOffsets (e : Element) : e.withoutOffsets.size = e.size := by
  induction e using treeInduction with
  | step e ih => rw [size_eq, children_withoutOffsets, totalSize_map_withoutOffsets ih, size_eq]

theorem elements_withoutOffsets (e : Element) :
    e.withoutOffsets.elements = e.elements.map withoutOffsets := by
  induction e using treeInduction with
  | step e ih =>
      rw [elements_eq, children_withoutOffsets, List.flatMap_map, elements_eq, List.map_cons,
        List.map_flatMap, List.flatMap_def, List.flatMap_def]
      exact congrArg (fun inside => e.withoutOffsets :: inside.flatten)
        (List.map_congr_left fun c hc => ih c hc)

theorem descendants_withoutOffsets (e : Element) :
    e.withoutOffsets.descendants = e.descendants.map withoutOffsets := by
  rw [descendants_eq, children_withoutOffsets, List.flatMap_map, descendants_eq,
    List.map_flatMap]
  exact congrArg (fun f => e.children.flatMap f) (funext elements_withoutOffsets)

theorem descendantCount_withoutOffsets (e : Element) :
    e.withoutOffsets.descendantCount = e.descendantCount := by
  rw [descendantCount, descendants_withoutOffsets, List.length_map, descendantCount]

theorem descendant?_withoutOffsets (e : Element) (name : String) :
    e.withoutOffsets.descendant? name = (e.descendant? name).map withoutOffsets := by
  have hname : (fun d : Element => d.name == name) ∘ withoutOffsets =
      fun d => d.name == name := by
    funext d
    rw [Function.comp_apply, name_withoutOffsets]
  rw [descendant?, descendants_withoutOffsets, List.find?_map, hname, descendant?]

end Element
end FlowConfig
