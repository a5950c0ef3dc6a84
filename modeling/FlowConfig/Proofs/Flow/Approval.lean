import FlowConfig.Flow.Loading
import FlowConfig.Proofs.Bundle.Compatibility
import FlowConfig.Proofs.Document.Reading
import FlowConfig.Proofs.Flow.GroupDecoding
import FlowConfig.Proofs.Schema.Flow

/-!
# Loaded components are approved

The check goes over the bundles of the document and knows nothing of groups; the
decoder goes over groups and knows nothing of templates.  The schema is what
joins them: the root group is a child of the controller, so no group that is
decoded stands in a template, and the check has looked at the bundle of every
component in it.
-/

namespace FlowConfig

/-!
# What a decision was made from
-/

theorem exists_document_of_classify {resolver : Resolver} {input : Bytes} {model : Model}
    (h : classify resolver true input = .ok (.load model)) :
    exists d, Document.parse input = .ok (some d) ∧ d.check resolver = .ok () ∧
      model = Model.ofDocument d := by
  rw [classify] at h
  split at h
  · cases h
  · cases h
  · next d hparse =>
      split at h
      · cases h
      · next hcheck =>
          refine ⟨d, hparse, hcheck, ?_⟩
          rw [Decision.ofModel] at h
          split at h
          · cases h
          · cases h
            rfl

/-!
# Groups inside groups
-/

namespace ProcessGroup

/-- The group itself and all groups inside it, at any depth. -/
inductive Holds (root : ProcessGroup) : ProcessGroup -> Prop where
  | self : Holds root root
  | nested {g inner : ProcessGroup} : Holds root g -> inner ∈ g.nested -> Holds root inner

/-- A group inside a decoded one was decoded from an element inside, and if no
template is around the outer one, none is around the inner one. -/
theorem exists_lineage_of_holds {layout : Layout} {e : Element} {above : List Element}
    {g : ProcessGroup} (h : (decodeTree layout e).Holds g)
    (hlive : forall a, a ∈ e :: above -> a.name ≠ Document.templateName) :
    exists x up, (x, up) ∈ e.lineages above ∧ g = decodeTree layout x ∧
      forall a, a ∈ x :: up -> a.name ≠ Document.templateName := by
  induction h with
  | self => exact ⟨e, above, Element.mem_lineages_self above e, rfl, hlive⟩
  | nested _ hinner ih =>
      rcases ih with ⟨x, up, hmem, rfl, hlive⟩
      rw [nested_decodeTree] at hinner
      rcases List.mem_map.mp hinner with ⟨c, hc, rfl⟩
      rcases List.mem_filter.mp hc with ⟨hchild, hname⟩
      refine ⟨c, x :: up, Element.mem_lineages_child hmem hchild, rfl,
        List.forall_mem_cons.mpr ⟨?_, hlive⟩⟩
      rw [beq_iff_eq.mp hname]
      decide

end ProcessGroup

/-!
# Approval
-/

/-- The check has approved what a component outside of templates declares. -/
theorem resolves_of_bundle? {d : Document} {resolver : Resolver}
    (hcheck : d.check resolver = .ok ()) {component : Element} {above : List Element}
    (hmem : (component, above) ∈ d.root.lineages [])
    (hlive : forall a, a ∈ component :: above -> a.name ≠ Document.templateName)
    {c : Coordinate} (hc : component.bundle? = some c) :
    exists b, resolver (Text.trim (component.fieldText "class")) c = .ok b := by
  rw [Element.bundle?, Option.map_eq_some_iff] at hc
  rcases hc with ⟨bundle, hfind, rfl⟩
  have hchild : bundle ∈ component.children := List.mem_of_find?_eq_some hfind
  have hname : (bundle.name == "bundle") = true :=
    List.find?_some (p := fun b : Element => b.name == "bundle") hfind
  exact (d.check_eq_ok_iff resolver).mp hcheck bundle component above
    (Element.mem_lineages_child hmem hchild) (beq_iff_eq.mp hname) hlive

theorem resolves_of_mem_childrenNamed {d : Document} {resolver : Resolver}
    (hcheck : d.check resolver = .ok ()) {x component : Element} {up : List Element}
    (hmem : (x, up) ∈ d.root.lineages [])
    (hlive : forall a, a ∈ x :: up -> a.name ≠ Document.templateName)
    {name : String} (hname : name ≠ Document.templateName)
    (hcomponent : component ∈ x.childrenNamed name)
    {c : Coordinate} (hc : component.bundle? = some c) :
    exists b, resolver (Text.trim (component.fieldText "class")) c = .ok b := by
  rcases List.mem_filter.mp hcomponent with ⟨hchild, hnamed⟩
  refine resolves_of_bundle? hcheck (Element.mem_lineages_child hmem hchild)
    (List.forall_mem_cons.mpr ⟨?_, hlive⟩) hc
  rw [beq_iff_eq.mp hnamed]
  exact hname

/-- Every processor and every controller service with a bundle, in any group of a
loaded model, has a component type that the resolver knows in that bundle. -/
theorem loaded_components_resolve {resolver : Resolver} {input : Bytes} {model : Model}
    (h : classify resolver true input = .ok (.load model))
    {root : ProcessGroup} (hroot : model.rootGroup = some root)
    {g : ProcessGroup} (hg : root.Holds g)
    {contents : Contents} (hcontents : g.contents = some contents) :
    (forall p, p ∈ contents.processors -> forall c, p.bundle = some c ->
      exists b, resolver (Text.trim p.componentType) c = .ok b) ∧
    (forall s, s ∈ contents.controllerServices -> forall c, s.bundle = some c ->
      exists b, resolver (Text.trim s.componentType) c = .ok b) := by
  rcases exists_document_of_classify h with ⟨d, hparse, hcheck, rfl⟩
  have hadmits := Document.admits_of_parse hparse
  rcases FlowSchema.exists_rootGroup hadmits with ⟨e, hnamed, hfirst, _⟩
  have he : e ∈ d.root.childrenNamed "rootGroup" := by
    rw [hnamed]
    exact List.mem_singleton_self e
  rcases List.mem_filter.mp he with ⟨hchild, hname⟩
  rw [Model.rootGroup_eq_decodeTree hfirst] at hroot
  cases hroot
  have houtside : forall a, a ∈ [e, d.root] -> a.name ≠ Document.templateName := by
    rw [List.forall_mem_cons, List.forall_mem_singleton, beq_iff_eq.mp hname,
      FlowSchema.name_eq_of_admits hadmits]
    decide
  rcases ProcessGroup.exists_lineage_of_holds hg houtside with ⟨x, up, hinside, rfl, hlive⟩
  have hmem : (x, up) ∈ d.root.lineages [] :=
    Element.mem_lineages_trans
      (Element.mem_lineages_child (Element.mem_lineages_self [] d.root) hchild) hinside
  rw [ProcessGroup.decodeTree_eq] at hcontents
  cases hcontents
  constructor
  · intro p hp c hc
    rcases List.mem_map.mp hp with ⟨component, hcomponent, rfl⟩
    exact resolves_of_mem_childrenNamed hcheck hmem hlive (by decide) hcomponent hc
  · intro s hs c hc
    change s ∈ ite _ _ _ at hs
    split at hs
    · rcases List.mem_map.mp hs with ⟨component, hcomponent, rfl⟩
      exact resolves_of_mem_childrenNamed hcheck hmem hlive (by decide) hcomponent hc
    · cases hs

/-- A decision to load a model whose root group has a processor with a bundle. -/
def Decision.loadsBundled : Except Refusal Decision -> Bool
  | .ok (.load model) =>
      model.rootGroup.any fun root => root.contents.any fun contents =>
        contents.processors.any fun p => p.bundle.isSome
  | _ => false

theorem Decision.exists_processor_of_loadsBundled {answer : Except Refusal Decision}
    (h : loadsBundled answer = true) :
    exists model root contents p c, answer = .ok (.load model) ∧
      model.rootGroup = some root ∧ root.contents = some contents ∧
        p ∈ contents.processors ∧ p.bundle = some c := by
  unfold loadsBundled at h
  split at h
  · next model =>
      rcases (Option.any_eq_true _ _).mp h with ⟨root, hroot, hinside⟩
      rcases (Option.any_eq_true _ _).mp hinside with ⟨contents, hcontents, hsome⟩
      rcases List.any_eq_true.mp hsome with ⟨p, hp, hbundle⟩
      rcases Option.isSome_iff_exists.mp hbundle with ⟨c, hc⟩
      exact ⟨model, root, contents, p, c, rfl, hroot, hcontents, hp, hc⟩
  · cases h

def oneInstalled : Registry :=
  ⟨[⟨⟨"g", "a", "1"⟩, ["T"]⟩]⟩

def flowWithBundle : Bytes :=
  Utf8.encode ("<flowController><rootGroup><id/><name/><processor><id/><name/>" ++
    "<class> T </class><bundle><group>g</group><artifact>a</artifact>" ++
    "<version>1</version></bundle></processor></rootGroup></flowController>").toList

theorem loadsBundled_flowWithBundle :
    Decision.loadsBundled (classify oneInstalled.resolve true flowWithBundle) = true := by
  decide +kernel

theorem loaded_components_resolve_flowWithBundle :
    exists model root contents p c,
      classify oneInstalled.resolve true flowWithBundle = .ok (.load model) ∧
        model.rootGroup = some root ∧ root.contents = some contents ∧
          p ∈ contents.processors ∧ p.bundle = some c ∧
            exists b, oneInstalled.resolve (Text.trim p.componentType) c = .ok b := by
  rcases Decision.exists_processor_of_loadsBundled loadsBundled_flowWithBundle with
    ⟨model, root, contents, p, c, h, hroot, hcontents, hp, hc⟩
  exact ⟨model, root, contents, p, c, h, hroot, hcontents, hp, hc,
    (loaded_components_resolve h hroot .self hcontents).left p hp c hc⟩

end FlowConfig
