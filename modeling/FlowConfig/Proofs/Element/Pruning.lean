import FlowConfig.Proofs.Element.Fields
import FlowConfig.Proofs.Element.Tree

/-!
# Removing elements by name

A tree without all elements of one name loses these elements with everything
inside them, and nothing else.  Whatever is read of an element by other names
reads the same afterwards.
-/

namespace FlowConfig
namespace Element

mutual

/-- The element without the elements of the name inside it. -/
def without (name : String) : Element -> Element
  | ⟨node, children⟩ => ⟨node, withoutIn name children⟩

def withoutIn (name : String) : List Element -> List Element
  | [] => []
  | c :: rest =>
      if c.name = name then withoutIn name rest
      else c.without name :: withoutIn name rest

end

theorem withoutIn_eq (name : String) (es : List Element) :
    withoutIn name es = (es.filter fun c => c.name != name).map (without name) := by
  induction es with
  | nil => rfl
  | cons c rest ih =>
      rw [withoutIn, ih]
      by_cases h : c.name = name <;> simp [h]

@[simp] theorem node_without (name : String) (e : Element) : (e.without name).node = e.node := by
  cases e with
  | mk node children => rw [without]

theorem children_without (name : String) (e : Element) :
    (e.without name).children =
      (e.children.filter fun c => c.name != name).map (without name) := by
  cases e with
  | mk node children => rw [without, withoutIn_eq]

@[simp] theorem name_without (removed : String) (e : Element) :
    (e.without removed).name = e.name := by
  rw [name, node_without, name]

@[simp] theorem uri_without (removed : String) (e : Element) :
    (e.without removed).uri = e.uri := by
  rw [uri, node_without, uri]

@[simp] theorem attributes_without (removed : String) (e : Element) :
    (e.without removed).attributes = e.attributes := by
  rw [attributes, node_without, attributes]

@[simp] theorem text_without (removed : String) (e : Element) :
    (e.without removed).text = e.text := by
  rw [text, node_without, text]

/-!
# Lineages

The lineages that are left are those of elements neither of the name nor inside
one of the name.
-/

/-- Neither the element nor one around it has the name. -/
def isOutside (name : String) (lineage : Element × List Element) : Bool :=
  (lineage.1 :: lineage.2).all fun a => a.name != name

theorem isOutside_iff {name : String} {e : Element} {above : List Element} :
    isOutside name (e, above) = true <-> forall a, a ∈ e :: above -> a.name ≠ name := by
  rw [isOutside, List.all_eq_true]
  simp only [bne_iff_ne, ne_eq]

def lineageWithout (name : String) (lineage : Element × List Element) :
    Element × List Element :=
  (lineage.1.without name, lineage.2.map (without name))

theorem filter_isOutside_eq_nil {name : String} {e : Element} (h : e.name = name)
    (above : List Element) : (e.lineages above).filter (isOutside name) = [] := by
  rw [List.filter_eq_nil_iff]
  rintro ⟨x, up⟩ hmem houtside
  rw [lineages_eq] at hmem
  have he : e ∈ x :: up := by
    rcases List.mem_cons.mp hmem with heq | hinside
    · cases heq
      exact List.mem_cons_self
    · rcases List.mem_flatMap.mp hinside with ⟨c, _, hc⟩
      exact List.mem_cons_of_mem x ((suffix_of_mem_lineages hc).subset List.mem_cons_self)
  exact isOutside_iff.mp houtside e he h

theorem flatMap_lineages_without {name : String} (above es : List Element)
    (h : forall c, c ∈ es -> c.name ≠ name ->
      (c.without name).lineages (above.map (without name)) =
        ((c.lineages above).filter (isOutside name)).map (lineageWithout name)) :
    ((es.filter fun c => c.name != name).map (without name)).flatMap
        (lineages (above.map (without name))) =
      ((es.flatMap (lineages above)).filter (isOutside name)).map (lineageWithout name) := by
  induction es with
  | nil => rfl
  | cons c rest ih =>
      have hrest := ih fun other hother => h other (List.mem_cons_of_mem c hother)
      rw [List.flatMap_cons, List.filter_append, List.map_append, ← hrest]
      by_cases hname : c.name = name
      · rw [filter_isOutside_eq_nil hname]
        simp [hname]
      · rw [← h c List.mem_cons_self hname]
        simp [hname]

theorem lineages_without {name : String} {e : Element} {above : List Element}
    (h : isOutside name (e, above) = true) :
    (e.without name).lineages (above.map (without name)) =
      ((e.lineages above).filter (isOutside name)).map (lineageWithout name) := by
  induction e using treeInduction generalizing above with
  | step e ih =>
      have hinside := flatMap_lineages_without (e :: above) e.children
        fun c hc hname => ih c hc (isOutside_iff.mpr
          (List.forall_mem_cons.mpr ⟨hname, isOutside_iff.mp h⟩))
      rw [lineages_eq, lineages_eq, children_without, List.filter_cons, if_pos h, List.map_cons,
        ← hinside]
      rfl

/-!
# Fields
-/

theorem childrenNamed_without {removed name : String} (e : Element) (h : name ≠ removed) :
    (e.without removed).childrenNamed name =
      (e.childrenNamed name).map (without removed) := by
  rw [childrenNamed, children_without, List.filter_map, List.filter_filter, childrenNamed]
  congr 1
  apply List.filter_congr
  intro c _
  by_cases hname : c.name = name
  · simp [hname, h]
  · simp [hname]

/-- Whatever is read of an element by other names reads the same afterwards. -/
theorem keepsFields_without (removed : String) : KeepsFields removed (without removed) where
  attributes := attributes_without removed
  text := text_without removed
  childrenNamed := childrenNamed_without

end Element
end FlowConfig
