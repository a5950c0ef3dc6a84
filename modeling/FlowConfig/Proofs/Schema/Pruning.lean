import FlowConfig.Proofs.Element.Pruning
import FlowConfig.Proofs.Schema.Acceptance
import FlowConfig.Proofs.Schema.Change
import FlowConfig.Proofs.Schema.Flow

/-!
# Conformance after removal

Where no declaration asks for elements of a name, a conforming element still
conforms when all elements of the name are taken out of it.
-/

namespace FlowConfig

namespace Element

variable {removed : String} {declarations : List ChildDeclaration} {i : Nat}

theorem keepsNames_without : KeepsNames (without removed) :=
  ⟨name_without removed, uri_without removed⟩

theorem belongsTo_without_iff {c : Element} :
    BelongsTo declarations i (c.without removed) <-> BelongsTo declarations i c :=
  belongsTo_change_iff keepsNames_without

theorem useCount_without {d : ChildDeclaration} (hd : declarations[i]? = some d)
    (es : List Element) :
    useCount declarations i ((es.filter fun c => c.name != removed).map (without removed)) =
      if d.name = removed then 0 else useCount declarations i es := by
  have hname : forall c : Element, BelongsTo declarations i c -> c.name = d.name := by
    intro c hc
    rcases exists_getElem?_of_belongsTo hc with ⟨other, hother, heq⟩
    rw [hd] at hother
    cases hother
    exact heq.symm
  rw [useCount, List.countP_map, List.countP_filter]
  split
  · next heq =>
      rw [List.countP_eq_zero]
      intro c _ hboth
      rw [Bool.and_eq_true, Function.comp_apply, decide_eq_true_iff, belongsTo_without_iff,
        bne_iff_ne] at hboth
      exact hboth.right ((hname c hboth.left).trans heq)
  · next hne =>
      rw [useCount]
      apply List.countP_congr
      intro c _
      rw [Bool.and_eq_true, Function.comp_apply, decide_eq_true_iff, belongsTo_without_iff,
        bne_iff_ne, decide_eq_true_iff]
      exact ⟨And.left, fun h => ⟨h, fun heq => hne ((hname c h).symm.trans heq)⟩⟩

theorem attributesFit_without {e : Element} {attributes : List AttributeDeclaration}
    (h : e.AttributesFit attributes) : (e.without removed).AttributesFit attributes :=
  (attributesFit_congr (attributes_without removed e)).mpr h

theorem childrenFit_without {e : Element} (h : e.ChildrenFit declarations)
    (hoptional : forall d, d ∈ declarations -> d.name = removed -> d.min = 0) :
    (e.without removed).ChildrenFit declarations := by
  constructor
  · intro c hc
    rw [children_without] at hc
    rcases List.mem_map.mp hc with ⟨original, horiginal, rfl⟩
    rcases h.declared original (List.mem_filter.mp horiginal).left with ⟨i, hi⟩
    exact ⟨i, belongsTo_without_iff.mpr hi⟩
  · intro i d hd
    rw [children_without, useCount_without hd]
    split
    · next heq =>
        constructor
        · exact Nat.le_of_eq (hoptional d (List.mem_of_getElem? hd) heq)
        · intro max _
          exact Nat.zero_le max
    · exact h.counted i d hd

theorem hasBlankText_without {e : Element} :
    (e.without removed).hasBlankText = e.hasBlankText := by
  rw [hasBlankText, text_without, hasBlankText]

theorem children_without_eq_nil {e : Element} (h : e.children = []) :
    (e.without removed).children = [] := by
  rw [children_without, h]
  rfl

end Element

namespace Schema

variable {s : Schema} {removed : String}

def Spares (s : Schema) (name : String) : Prop :=
  forall typeName d, d ∈ s.declarationsOf typeName -> d.name = name -> d.min = 0

theorem fits_without (h : s.Spares removed) {e : Element} {typeName : String} {t : ElementType}
    (htype : s.type? typeName = some t) (hfits : e.Fits t) : (e.without removed).Fits t := by
  obtain ⟨name, attributes, content⟩ := t
  cases content with
  | any => exact True.intro
  | empty =>
      exact ⟨Element.attributesFit_without hfits.left,
        Element.children_without_eq_nil hfits.right.left,
        Element.hasBlankText_without.trans hfits.right.right⟩
  | text kind =>
      refine ⟨Element.attributesFit_without hfits.left,
        Element.children_without_eq_nil hfits.right.left, ?_⟩
      rw [Element.text_without]
      exact hfits.right.right
  | elements declarations =>
      have hoptional : forall d, d ∈ declarations -> d.name = removed -> d.min = 0 := by
        intro d hd
        apply h typeName d
        rw [declarationsOf, htype]
        exact hd
      exact ⟨Element.attributesFit_without hfits.left,
        Element.hasBlankText_without.trans hfits.right.left,
        Element.childrenFit_without hfits.right.right hoptional⟩

theorem conforms_without (h : s.Spares removed) {e : Element} {typeName : String}
    (hconforms : s.Conforms e typeName) : s.Conforms (e.without removed) typeName := by
  induction e using Element.treeInduction generalizing typeName with
  | step e ih =>
      cases hconforms with
      | intro htype hfits hchildren =>
          refine .intro htype (fits_without h htype hfits) ?_
          intro declarations hcontent c hc i d hi hd
          rw [Element.children_without] at hc
          rcases List.mem_map.mp hc with ⟨original, horiginal, rfl⟩
          have hmem := (List.mem_filter.mp horiginal).left
          exact ih original hmem (hchildren declarations hcontent original hmem i d
            (Element.belongsTo_without_iff.mp hi) hd)

theorem admits_without (h : s.Spares removed) {root : Element} (hadmits : s.Admits root) :
    s.Admits (root.without removed) where
  name_eq := (Element.name_without removed root).trans hadmits.name_eq
  uri_eq := (Element.uri_without removed root).trans hadmits.uri_eq
  conforms := conforms_without h hadmits.conforms

end Schema

namespace FlowSchema

theorem spares_template : flowSchema.Spares "template" := by
  have hall : forall t, t ∈ types.reverse -> forall d, d ∈ t.content.declarations ->
      d.name = "template" -> d.min = 0 := by
    decide +kernel
  intro typeName d hd hname
  rw [Schema.declarationsOf, flowSchema, Schema.type?_withTypes, Schema.type?_new,
    Option.or_none] at hd
  split at hd
  · next declarations hfind =>
      exact hall _ (List.mem_of_find?_eq_some hfind) d hd hname
  · cases hd

end FlowSchema
end FlowConfig
