import FlowConfig.Proofs.Schema.Conformance

/-!
# Conformance after a change

A schema looks at the attributes and the text of an element, and at its children by their
names and namespaces, in whatever order they come.  An element that is changed otherwise
conforms to a type if it did before, as long as the changed children conform to their types.
-/

namespace FlowConfig

namespace Element

/-- Elements keep their names and their namespaces. -/
structure KeepsNames (change : Element -> Element) : Prop where
  name : forall c : Element, (change c).name = c.name
  uri : forall c : Element, (change c).uri = c.uri

structure IsChangeOf (change : Element -> Element) (other e : Element) : Prop where
  attributes : other.attributes = e.attributes
  text : other.text = e.text
  children : other.children = e.children.map change

variable {change : Element -> Element} {e other : Element}
  {declarations : List ChildDeclaration} {i : Nat}

theorem attributesFit_congr {attributes : List AttributeDeclaration}
    (h : other.attributes = e.attributes) :
    other.AttributesFit attributes <-> e.AttributesFit attributes := by
  constructor
  · rintro ⟨hdeclared, hrequired⟩
    rw [h] at hdeclared hrequired
    exact ⟨hdeclared, hrequired⟩
  · rintro ⟨hdeclared, hrequired⟩
    rw [← h] at hdeclared hrequired
    exact ⟨hdeclared, hrequired⟩

section

variable (hchange : KeepsNames change)

include hchange

theorem declarationIndex?_change (c : Element) :
    declarationIndex? declarations (change c) = declarationIndex? declarations c := by
  rw [declarationIndex?, hchange.uri, hchange.name, declarationIndex?]

theorem belongsTo_change_iff {c : Element} :
    BelongsTo declarations i (change c) <-> BelongsTo declarations i c := by
  rw [BelongsTo, hchange.uri, hchange.name, BelongsTo]

theorem useCount_map_change (es : List Element) :
    useCount declarations i (es.map change) = useCount declarations i es := by
  rw [useCount, List.countP_map, useCount]
  apply List.countP_congr
  intro c _
  rw [Function.comp_apply, decide_eq_true_iff, belongsTo_change_iff hchange, decide_eq_true_iff]

theorem typedBy_map_change (es : List Element) :
    typedBy declarations (es.map change) =
      (typedBy declarations es).map fun entry => (change entry.1, entry.2) := by
  rw [typedBy, List.filterMap_map, typedBy, List.map_filterMap]
  congr 1
  funext c
  rw [Function.comp_apply, declarationIndex?_change hchange, Option.map_map]
  rfl

theorem childrenFit_change_iff (h : other.children = e.children.map change) :
    other.ChildrenFit declarations <-> e.ChildrenFit declarations := by
  constructor
  · rintro ⟨hdeclared, hcounted⟩
    rw [h] at hdeclared hcounted
    constructor
    · intro c hc
      rcases hdeclared (change c) (List.mem_map_of_mem hc) with ⟨i, hi⟩
      exact ⟨i, (belongsTo_change_iff hchange).mp hi⟩
    · intro i d hd
      rw [← useCount_map_change hchange]
      exact hcounted i d hd
  · rintro ⟨hdeclared, hcounted⟩
    constructor
    · intro c hc
      rw [h] at hc
      rcases List.mem_map.mp hc with ⟨original, horiginal, rfl⟩
      rcases hdeclared original horiginal with ⟨i, hi⟩
      exact ⟨i, (belongsTo_change_iff hchange).mpr hi⟩
    · intro i d hd
      rw [h, useCount_map_change hchange]
      exact hcounted i d hd

theorem fits_change_iff {t : ElementType} (h : IsChangeOf change other e) :
    other.Fits t <-> e.Fits t := by
  obtain ⟨name, attributes, content⟩ := t
  cases content with
  | any => exact Iff.rfl
  | empty =>
      simp only [Fits, attributesFit_congr h.attributes, h.children, List.map_eq_nil_iff,
        hasBlankText, h.text]
  | text kind =>
      simp only [Fits, attributesFit_congr h.attributes, h.children, List.map_eq_nil_iff, h.text]
  | elements declarations =>
      simp only [Fits, attributesFit_congr h.attributes, childrenFit_change_iff hchange h.children,
        hasBlankText, h.text]

theorem governedChildren_change (t : ElementType) (h : other.children = e.children.map change) :
    other.governedChildren t =
      (e.governedChildren t).map fun entry => (change entry.1, entry.2) := by
  rw [governedChildren, h, governedChildren]
  cases t.content with
  | elements declarations => exact typedBy_map_change hchange e.children
  | empty => rfl
  | text kind => rfl
  | any => rfl

end

/-!
# Another order of children
-/

theorem childrenFit_of_perm (h : other.children.Perm e.children)
    (hfit : e.ChildrenFit declarations) : other.ChildrenFit declarations := by
  constructor
  · intro c hc
    exact hfit.declared c (h.mem_iff.mp hc)
  · intro i d hd
    rw [useCount, h.countP_eq]
    exact hfit.counted i d hd

theorem fits_of_perm {t : ElementType} (h : other.children.Perm e.children)
    (hattributes : other.attributes = e.attributes) (htext : other.text = e.text)
    (hfits : e.Fits t) : other.Fits t := by
  obtain ⟨name, attributes, content⟩ := t
  cases content with
  | any => trivial
  | empty =>
      rcases hfits with ⟨hfit, hnone, hblank⟩
      rw [hnone] at h
      rw [hasBlankText, ← htext] at hblank
      exact ⟨(attributesFit_congr hattributes).mpr hfit, h.eq_nil, hblank⟩
  | text kind =>
      rcases hfits with ⟨hfit, hnone, haccepts⟩
      rw [hnone] at h
      rw [← htext] at haccepts
      exact ⟨(attributesFit_congr hattributes).mpr hfit, h.eq_nil, haccepts⟩
  | elements declarations =>
      rcases hfits with ⟨hfit, hblank, hchildren⟩
      rw [hasBlankText, ← htext] at hblank
      exact ⟨(attributesFit_congr hattributes).mpr hfit, hblank, childrenFit_of_perm h hchildren⟩

end Element

namespace Schema

variable {s : Schema} {change : Element -> Element} {e other : Element} {typeName : String}

theorem conforms_change_iff (hchange : Element.KeepsNames change)
    (h : Element.IsChangeOf change other e)
    (hinside : forall t, s.type? typeName = some t ->
      forall c n, (c, n) ∈ e.governedChildren t -> (s.Conforms (change c) n <-> s.Conforms c n)) :
    s.Conforms other typeName <-> s.Conforms e typeName := by
  rw [conforms_iff, conforms_iff]
  constructor
  · rintro ⟨t, htype, hfits, hchildren⟩
    refine ⟨t, htype, (Element.fits_change_iff hchange h).mp hfits, ?_⟩
    intro c n hc
    apply (hinside t htype c n hc).mp
    apply hchildren
    rw [Element.governedChildren_change hchange t h.children]
    exact List.mem_map_of_mem hc
  · rintro ⟨t, htype, hfits, hchildren⟩
    refine ⟨t, htype, (Element.fits_change_iff hchange h).mpr hfits, ?_⟩
    intro c n hc
    rw [Element.governedChildren_change hchange t h.children] at hc
    rcases List.mem_map.mp hc with ⟨⟨original, name⟩, horiginal, heq⟩
    cases heq
    exact (hinside t htype original name horiginal).mpr (hchildren original name horiginal)

theorem admits_congr {root : Element} (hname : other.name = root.name)
    (huri : other.uri = root.uri)
    (hconforms : s.Conforms other s.rootType <-> s.Conforms root s.rootType) :
    s.Admits other <-> s.Admits root := by
  constructor
  · intro h
    exact ⟨hname.symm.trans h.name_eq, huri.symm.trans h.uri_eq, hconforms.mp h.conforms⟩
  · intro h
    exact ⟨hname.trans h.name_eq, huri.trans h.uri_eq, hconforms.mpr h.conforms⟩

theorem conforms_of_perm (hperm : other.children.Perm e.children)
    (hattributes : other.attributes = e.attributes) (htext : other.text = e.text)
    (h : s.Conforms e typeName) : s.Conforms other typeName := by
  cases h with
  | intro htype hfits hchildren =>
      refine .intro htype (Element.fits_of_perm hperm hattributes htext hfits) ?_
      intro declarations hcontent c hc
      exact hchildren declarations hcontent c (hperm.mem_iff.mp hc)

theorem admits_of_perm {root : Element} {sections : List Element}
    (hperm : root.children.Perm sections) (h : s.Admits root) :
    s.Admits ⟨root.node, sections⟩ :=
  ⟨h.name_eq, h.uri_eq, conforms_of_perm hperm.symm rfl rfl h.conforms⟩

end Schema
end FlowConfig
