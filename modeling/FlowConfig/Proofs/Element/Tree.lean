import FlowConfig.Element

/-!
# Walks over element trees

The walks over a tree keep their work on a list.  They visit an element, then
everything inside its children, child by child; this is the recursion on the
tree itself, and it is what later proofs use.
-/

namespace FlowConfig
namespace Element

theorem size_le_totalSize_of_mem {c : Element} {es : List Element} (h : c ∈ es) :
    c.size ≤ totalSize es := by
  induction es with
  | nil => cases h
  | cons e rest ih =>
      rw [totalSize_cons]
      cases h with
      | head => exact Nat.le_add_right c.size (totalSize rest)
      | tail _ hrest => exact Nat.le_trans (ih hrest) (Nat.le_add_left _ _)

theorem size_lt_of_mem_children {c e : Element} (h : c ∈ e.children) :
    c.size < e.size := by
  rw [size_eq e]
  exact Nat.lt_succ_of_le (size_le_totalSize_of_mem h)

theorem treeInduction {P : Element -> Prop}
    (step : forall e : Element, (forall c, c ∈ e.children -> P c) -> P e)
    (e : Element) : P e :=
  step e fun c _hc => treeInduction step c
termination_by e.size
decreasing_by exact size_lt_of_mem_children _hc

/-!
# Document order
-/

mutual

def elements : Element -> List Element
  | ⟨node, children⟩ => ⟨node, children⟩ :: elementsIn children

def elementsIn : List Element -> List Element
  | [] => []
  | c :: rest => c.elements ++ elementsIn rest

end

theorem elementsIn_eq_flatMap (es : List Element) : elementsIn es = es.flatMap elements := by
  induction es with
  | nil => rfl
  | cons e rest ih => rw [elementsIn, List.flatMap_cons, ih]

theorem elements_eq (e : Element) : e.elements = e :: e.children.flatMap elements := by
  cases e with
  | mk node children => rw [elements, elementsIn_eq_flatMap]

theorem length_flatMap_elements {es : List Element}
    (h : forall e, e ∈ es -> e.elements.length = e.size) :
    (es.flatMap elements).length = totalSize es := by
  induction es with
  | nil => rfl
  | cons e rest ih =>
      rw [List.flatMap_cons, List.length_append, h e List.mem_cons_self,
        ih fun c hc => h c (List.mem_cons_of_mem e hc), totalSize_cons]

theorem length_elements (e : Element) : e.elements.length = e.size := by
  induction e using treeInduction with
  | step e ih => rw [elements_eq, List.length_cons, length_flatMap_elements ih, size_eq]

theorem preorderFrom_eq (before pending : List Element) :
    preorderFrom before pending = before.reverse ++ pending.flatMap elements := by
  fun_induction preorderFrom before pending with
  | case1 before => simp
  | case2 before e rest ih =>
      rw [ih, List.flatMap_cons, elements_eq]
      simp

theorem descendants_eq (e : Element) : e.descendants = e.children.flatMap elements := by
  rw [descendants, preorderFrom_eq]
  rfl

theorem descendantCount_eq (e : Element) : e.descendantCount = totalSize e.children := by
  rw [descendantCount, descendants_eq, length_flatMap_elements fun c _ => c.length_elements]

theorem descendant?_eq_child? {e : Element} {name : String}
    (h : forall c, c ∈ e.children -> c.name ≠ name ->
      forall x, x ∈ c.elements -> x.name ≠ name) :
    e.descendant? name = e.child? name := by
  rw [descendant?, descendants_eq, child?]
  generalize e.children = es at h ⊢
  induction es with
  | nil => rfl
  | cons c rest ih =>
      have hrest := ih fun other hmem => h other (List.mem_cons_of_mem c hmem)
      rw [List.flatMap_cons, List.find?_append, hrest]
      by_cases hname : c.name = name
      · rw [elements_eq]
        simp [hname]
      · have hnone : c.elements.find? (fun x => x.name == name) = none := by
          rw [List.find?_eq_none]
          intro x hx
          simpa using h c List.mem_cons_self hname x hx
        rw [hnone]
        simp [hname]

/-!
# Lineages

An element together with the elements around it, the nearest first.
-/

mutual

/-- The element and all elements inside it in document order, each with the
elements around it; those around the whole are `above`. -/
def lineages (above : List Element) : Element -> List (Element × List Element)
  | ⟨node, children⟩ =>
      (⟨node, children⟩, above) :: lineagesIn (⟨node, children⟩ :: above) children

def lineagesIn (above : List Element) : List Element -> List (Element × List Element)
  | [] => []
  | c :: rest => c.lineages above ++ lineagesIn above rest

end

theorem lineagesIn_eq_flatMap (above es : List Element) :
    lineagesIn above es = es.flatMap (lineages above) := by
  induction es with
  | nil => rfl
  | cons e rest ih => rw [lineagesIn, List.flatMap_cons, ih]

theorem lineages_eq (above : List Element) (e : Element) :
    e.lineages above = (e, above) :: e.children.flatMap (lineages (e :: above)) := by
  cases e with
  | mk node children => rw [lineages, lineagesIn_eq_flatMap]

theorem map_fst_lineages (above : List Element) (e : Element) :
    (e.lineages above).map Prod.fst = e.elements := by
  induction e using treeInduction generalizing above with
  | step e ih =>
      rw [lineages_eq, elements_eq, List.map_cons, List.map_flatMap, List.flatMap_def,
        List.flatMap_def]
      exact congrArg (fun inside => e :: inside.flatten)
        (List.map_congr_left fun c hc => ih c hc (e :: above))

/-- What is looked for inside an element is also the first of its name among the
element and all inside it, if the element has another name. -/
theorem descendant?_eq_find?_lineages {e : Element} {name : String} (h : e.name ≠ name) :
    e.descendant? name =
      ((e.lineages []).find? fun lineage => lineage.1.name == name).map Prod.fst := by
  have hself : (e.name == name) = false := beq_eq_false_iff_ne.mpr h
  have hfind : e.elements.find? (fun x => x.name == name) =
      ((e.lineages []).find? fun lineage => lineage.1.name == name).map Prod.fst := by
    rw [← map_fst_lineages [] e, List.find?_map]
    rfl
  rw [← hfind, elements_eq, List.find?_cons, hself, descendant?, descendants_eq]

/-- The elements around the whole are around everything inside it. -/
theorem suffix_of_mem_lineages {above up : List Element} {e x : Element}
    (h : (x, up) ∈ e.lineages above) : above <:+ up := by
  induction e using treeInduction generalizing above with
  | step e ih =>
      rw [lineages_eq] at h
      rcases List.mem_cons.mp h with heq | hinside
      · cases heq
        exact List.suffix_refl _
      · rcases List.mem_flatMap.mp hinside with ⟨c, hc, hmem⟩
        exact (List.suffix_cons e above).trans (ih c hc hmem)

theorem mem_lineages_self (above : List Element) (e : Element) :
    (e, above) ∈ e.lineages above := by
  rw [lineages_eq]
  exact List.mem_cons_self

theorem mem_lineages_trans {above up upper : List Element} {e x y : Element}
    (hx : (x, up) ∈ e.lineages above) (hy : (y, upper) ∈ x.lineages up) :
    (y, upper) ∈ e.lineages above := by
  induction e using treeInduction generalizing above with
  | step e ih =>
      rw [lineages_eq] at hx ⊢
      rcases List.mem_cons.mp hx with heq | hinside
      · cases heq
        rw [lineages_eq] at hy
        exact hy
      · rcases List.mem_flatMap.mp hinside with ⟨c, hc, hmem⟩
        exact List.mem_cons_of_mem _ (List.mem_flatMap.mpr ⟨c, hc, ih c hc hmem⟩)

theorem mem_lineages_child {above up : List Element} {e x c : Element}
    (hx : (x, up) ∈ e.lineages above) (hc : c ∈ x.children) :
    (c, x :: up) ∈ e.lineages above := by
  apply mem_lineages_trans hx
  rw [lineages_eq]
  exact List.mem_cons_of_mem _
    (List.mem_flatMap.mpr ⟨c, hc, mem_lineages_self (x :: up) c⟩)

end Element
end FlowConfig
