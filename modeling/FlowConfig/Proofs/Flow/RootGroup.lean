import FlowConfig.Flow.Model
import FlowConfig.Proofs.Flow.Conservation
import FlowConfig.Proofs.Schema.Change
import FlowConfig.Proofs.Schema.Flow

/-!
# The root group of a valid flow

The model is made from the first element of the document that has the name of the root
group, at any depth.  In a valid flow this is the one child of the controller with this
name: what stands in front of it are other sections, and these hold no open content, in
which the name could occur.
-/

namespace FlowConfig

namespace FlowSchema

variable {e g x root : Element} {above up : List Element} {typeName : String}

theorem name_ne_rootGroup_of_group :
    forall typeName, typeName ∈ groupTypeNames -> forall d,
      d ∈ flowSchema.declarationsOf typeName -> d.name ≠ "rootGroup" := by
  decide +kernel

theorem name_ne_rootGroup_of_mem_group (h : flowSchema.Conforms e typeName)
    (htype : typeName ∈ groupTypeNames)
    (hmem : (x, up) ∈ e.children.flatMap (Element.lineages (e :: above)))
    (hlive : forall a, a ∈ up -> a.name ∉ openNames) : x.name ≠ "rootGroup" := by
  induction e using Element.treeInduction generalizing typeName above with
  | step e ih =>
      rcases List.mem_flatMap.mp hmem with ⟨c, hc, hinside⟩
      rw [Element.lineages_eq] at hinside
      rcases List.mem_cons.mp hinside with heq | hdeeper
      · cases heq
        rcases Schema.exists_declaration_of_mem_children h (isOpen_group typeName htype) hc with
          ⟨d, hd, hname, _⟩
        rw [← hname]
        exact name_ne_rootGroup_of_group typeName htype d hd
      · by_cases hname : c.name = "processGroup"
        · rcases exists_conforms_of_nested h htype hc hname with ⟨childType, hchild, hconforms⟩
          exact ih c hc hconforms hchild hdeeper
        · rcases isPart_of_mem_part h htype hc hname hdeeper hlive with ⟨_, _, _, hpart⟩
          exact name_ne_rootGroup_of_isPart hpart

/-- In document order the child comes before every other element of its name. -/
theorem exists_elements_before_rootGroup (h : flowSchema.Admits root)
    (hg : root.childrenNamed "rootGroup" = [g]) :
    exists before after, root.elements = before ++ g :: after ∧
      forall x, x ∈ before -> x.name ≠ "rootGroup" := by
  rcases List.filter_eq_cons_iff.mp hg with ⟨front, back, hchildren, hfront, _, _⟩
  have hothers : forall c, c ∈ front -> c.name ≠ "rootGroup" :=
    fun c hc hname => hfront c hc (beq_iff_eq.mpr hname)
  refine ⟨root :: front.flatMap Element.elements,
    g.children.flatMap Element.elements ++ back.flatMap Element.elements, ?_, ?_⟩
  · rw [Element.elements_eq, hchildren, List.flatMap_append, List.flatMap_cons,
      Element.elements_eq g]
    rfl
  · intro x hx
    rcases List.mem_cons.mp hx with heq | hsection
    · rw [heq, name_eq_of_admits h]
      decide
    · rcases List.mem_flatMap.mp hsection with ⟨c, hc, hinside⟩
      have hchild : c ∈ root.children := by
        rw [hchildren]
        exact List.mem_append_left _ hc
      exact name_ne_rootGroup_of_mem_section h hchild (hothers c hc) hinside

/-- Whatever else has the name of the root group stands in open content. -/
theorem rootGroup_or_in_open_content (h : flowSchema.Admits root)
    (hg : root.childrenNamed "rootGroup" = [g])
    (hconforms : flowSchema.Conforms g "RootProcessGroupType")
    (hmem : (x, up) ∈ root.lineages []) (hname : x.name = "rootGroup") :
    (x = g ∧ up = [root]) ∨ exists a, a ∈ up ∧ a.name ∈ openNames := by
  rw [Element.lineages_eq] at hmem
  rcases List.mem_cons.mp hmem with heq | hinside
  · cases heq
    rw [name_eq_of_admits h] at hname
    exact absurd hname (by decide)
  · rcases List.mem_flatMap.mp hinside with ⟨c, hc, hlineage⟩
    by_cases hsection : c.name = "rootGroup"
    · have hmember : c ∈ root.childrenNamed "rootGroup" :=
        List.mem_filter.mpr ⟨hc, beq_iff_eq.mpr hsection⟩
      rw [hg] at hmember
      cases List.mem_singleton.mp hmember
      rw [Element.lineages_eq] at hlineage
      rcases List.mem_cons.mp hlineage with heq | hdeeper
      · cases heq
        exact Or.inl ⟨rfl, rfl⟩
      · refine Or.inr (Classical.byContradiction fun hnone => ?_)
        have hlive : forall a, a ∈ up -> a.name ∉ openNames :=
          fun a ha hopen => hnone ⟨a, ha, hopen⟩
        exact name_ne_rootGroup_of_mem_group hconforms (by decide) hdeeper hlive hname
    · rcases isPart_of_mem_section h hc hsection hlineage with ⟨_, _, _, hpart⟩
      exact absurd hname (name_ne_rootGroup_of_isPart hpart)

end FlowSchema

/-!
# The model
-/

namespace Model

/-- The root group of the model is decoded from the group element, and the version and
the layout are those that the element declares. -/
structure IsOfGroup (m : Model) (g : Element) : Prop where
  version_eq : m.version = Version.ofAttribute? (g.attribute? "encoding-version")
  layout_eq : m.layout = Layout.ofVersion (Version.ofAttribute? (g.attribute? "encoding-version"))
  rootGroup_eq : m.rootGroup = some (ProcessGroup.ofElement m.layout g)

theorem isOfGroup_of_descendant? {root g : Element}
    (h : root.descendant? "rootGroup" = some g) : (ofRoot root).IsOfGroup g := by
  constructor
  · rw [ofRoot, h]
    rfl
  · rw [ofRoot, h]
    rfl
  · rw [ofRoot, h]
    rfl

/-- A valid flow has one child with the name of the root group, and the model is made
from this child.  It is the first element of its name in the document; another element of
the name stands in open content, in a template, in styles or in version control
information.  Neither the attributes of the controller nor the order of its sections make
a difference. -/
theorem isOfGroup_child_of_valid {d : Document} (h : flowSchema.validate d.root = .ok ()) :
    exists g, d.root.childrenNamed "rootGroup" = [g] ∧
      (exists before after, d.root.elements = before ++ g :: after ∧
        forall x, x ∈ before -> x.name ≠ "rootGroup") ∧
      (forall x up, (x, up) ∈ d.root.lineages [] -> x.name = "rootGroup" ->
        (x = g ∧ up = [d.root]) ∨ exists a, a ∈ up ∧ a.name ∈ FlowSchema.openNames) ∧
      (ofDocument d).IsOfGroup g ∧
      (forall attributes, ofRoot ⟨{ d.root.node with attributes := attributes },
        d.root.children⟩ = ofDocument d) ∧
      forall sections, d.root.children.Perm sections ->
        flowSchema.validate ⟨d.root.node, sections⟩ = .ok () ∧
          (ofRoot ⟨d.root.node, sections⟩).IsOfGroup g := by
  have hadmits := Schema.validate_eq_ok_iff.mp h
  rcases FlowSchema.exists_rootGroup hadmits with ⟨g, hg, hfirst, hconforms⟩
  refine ⟨g, hg, FlowSchema.exists_elements_before_rootGroup hadmits hg, ?_,
    isOfGroup_of_descendant? hfirst, fun attributes => rfl, ?_⟩
  · intro x up hmem hname
    exact FlowSchema.rootGroup_or_in_open_content hadmits hg hconforms hmem hname
  · intro sections hperm
    have hother : flowSchema.Admits ⟨d.root.node, sections⟩ :=
      Schema.admits_of_perm hperm hadmits
    refine ⟨Schema.validate_eq_ok_iff.mpr hother, ?_⟩
    rcases FlowSchema.exists_rootGroup hother with ⟨g', hg', hfirst', _⟩
    have hgroups : List.Perm (d.root.childrenNamed "rootGroup")
        (Element.childrenNamed ⟨d.root.node, sections⟩ "rootGroup") := hperm.filter _
    rw [hg, hg'] at hgroups
    cases List.perm_singleton.mp hgroups.symm
    exact isOfGroup_of_descendant? hfirst'

def versioned (version : String) (e : Element) : Element :=
  ⟨{ e.node with attributes := [(Version.attributeName, version)] }, e.children⟩

/-- The controller declares a version, and so does an element in a template that has the
name of the root group. -/
def versionedFlow : Document :=
  let other := versioned "2.0" (Document.sampleElement "rootGroup" [])
  let group := Document.sampleComponent "rootGroup" [Document.sampleElement "template" [other]]
  .ofRoot (versioned "0.9" (Document.sampleElement "flowController"
    [Document.sampleElement "reportingTasks" [], versioned "1.1" group]))

theorem isOfGroup_child_of_valid_versionedFlow :
    flowSchema.validate versionedFlow.root = .ok () ∧
      (versionedFlow.root.descendantsNamed "rootGroup").length = 2 ∧
      (exists g, versionedFlow.root.childrenNamed "rootGroup" = [g] ∧
        (ofDocument versionedFlow).IsOfGroup g) ∧
      versionedFlow.root.attribute? "encoding-version" = some "0.9" ∧
      (ofDocument versionedFlow).version = some ⟨1, 1⟩ := by
  have hvalid : flowSchema.validate versionedFlow.root = .ok () :=
    Schema.validate_eq_ok_of_isOk (by decide +kernel)
  have hversion : (ofDocument versionedFlow).version = some ⟨1, 1⟩ := by decide +kernel
  rcases isOfGroup_child_of_valid hvalid with ⟨g, hg, _, _, hgroup, _⟩
  exact ⟨hvalid, by decide +kernel, ⟨g, hg, hgroup⟩, rfl, hversion⟩

end Model
end FlowConfig
