import FlowConfig.Bundle.Compatibility
import FlowConfig.Proofs.Flow.GroupDecoding
import FlowConfig.Proofs.Schema.Flow
import Mathlib.Data.List.Forall2

/-!
# The groups of a valid document

The groups that are decoded from a valid document are the root group and what is nested
in it.  The schema governs all of them and no template is around any.  What relates one
such group to its record therefore relates all groups to their records, to any depth.
-/

namespace FlowConfig

/-!
# Groups and their records
-/

namespace ProcessGroup

/-- A group is related to its record, and so are the groups inside it, pair by pair in
document order and to any depth. -/
inductive Mirrors (R : Element -> ProcessGroup -> Prop) : Element -> ProcessGroup -> Prop where
  | intro {e : Element} {g : ProcessGroup} :
      R e g -> List.Forall₂ (Mirrors R) (e.childrenNamed "processGroup") g.nested ->
      Mirrors R e g

variable {R : Element -> ProcessGroup -> Prop} {e : Element}

theorem Mirrors.related {g : ProcessGroup} (h : g.Mirrors R e) : R e g := by
  cases h with
  | intro hrelated _ => exact hrelated

/-- A property that groups hand on to the groups directly inside them, and that relates a
group to its record, relates everything inside to its record. -/
theorem decodeTree_mirrors {layout : Layout} {P : Element -> Prop}
    (hnested : forall x c, P x -> c ∈ x.childrenNamed "processGroup" -> P c)
    (hR : forall x, P x -> R x (decodeTree layout x)) (h : P e) :
    (decodeTree layout e).Mirrors R e := by
  induction e using Element.treeInduction with
  | step e ih =>
      refine .intro (hR e h) ?_
      rw [nested_decodeTree, nestedElements, List.forall₂_map_right_iff, List.forall₂_same]
      intro c hc
      exact ih c (List.mem_filter.mp hc).left (hnested e c h hc)

end ProcessGroup

/-!
# Live groups
-/

namespace Document

variable {d : Document} {x c : Element}

/-- The element stands in the document, and neither is it a template nor is it in one. -/
def IsLive (d : Document) (x : Element) : Prop :=
  exists up, (x, up) ∈ d.root.lineages [] ∧ forall a, a ∈ x :: up -> a.name ≠ templateName

/-- A group that is not in a template and that the schema governs. -/
structure IsLiveGroup (d : Document) (x : Element) : Prop where
  live : d.IsLive x
  conforms : exists typeName, typeName ∈ FlowSchema.groupTypeNames ∧
    flowSchema.Conforms x typeName

theorem IsLive.child (h : d.IsLive x) (hc : c ∈ x.children) (hname : c.name ≠ templateName) :
    d.IsLive c := by
  rcases h with ⟨up, hmem, hlive⟩
  exact ⟨x :: up, Element.mem_lineages_child hmem hc,
    List.forall_mem_cons.mpr ⟨hname, hlive⟩⟩

theorem IsLive.childNamed {name : String} (h : d.IsLive x) (hc : c ∈ x.childrenNamed name)
    (hname : name ≠ templateName) : d.IsLive c := by
  rcases List.mem_filter.mp hc with ⟨hchild, hnamed⟩
  apply h.child hchild
  rw [beq_iff_eq.mp hnamed]
  exact hname

theorem IsLiveGroup.nested (h : d.IsLiveGroup x) (hc : c ∈ x.childrenNamed "processGroup") :
    d.IsLiveGroup c := by
  rcases h.conforms with ⟨typeName, htype, hconforms⟩
  rcases List.mem_filter.mp hc with ⟨hchild, hname⟩
  constructor
  · exact h.live.childNamed hc (by decide)
  · exact FlowSchema.exists_conforms_of_nested hconforms htype hchild (beq_iff_eq.mp hname)

/-- The components of one kind in a live group, each related to its record. -/
theorem IsLiveGroup.forall₂_childrenNamed {A : Type} {R : Element -> A -> Prop}
    {f : Element -> A} {name childType : String} (h : d.IsLiveGroup x)
    (hd : ChildDeclaration.many name childType ∈ FlowSchema.groupChildren)
    (hname : name ≠ templateName)
    (hR : forall c, d.IsLive c -> flowSchema.Conforms c childType -> R c (f c)) :
    List.Forall₂ R (x.childrenNamed name) ((x.childrenNamed name).map f) := by
  rcases h.conforms with ⟨typeName, htype, hconforms⟩
  have hdeclares := FlowSchema.declares_of_declaresField (FlowSchema.declaresField_group htype hd)
  rw [List.forall₂_map_right_iff, List.forall₂_same]
  intro c hc
  exact hR c (h.live.childNamed hc hname)
    (Schema.conforms_of_mem_childrenNamed hconforms hdeclares hc)

theorem isLiveGroup_root {e : Element} (h : flowSchema.Admits d.root)
    (he : e ∈ d.root.childrenNamed "rootGroup")
    (hconforms : flowSchema.Conforms e "RootProcessGroupType") : d.IsLiveGroup e := by
  have hroot : d.IsLive d.root := by
    refine ⟨[], Element.mem_lineages_self [] d.root, ?_⟩
    rw [List.forall_mem_singleton, FlowSchema.name_eq_of_admits h]
    decide
  constructor
  · exact hroot.childNamed he (by decide)
  · exact ⟨_, by decide, hconforms⟩

end Document

/-- In a valid document the root group and all groups inside it are related to their
records, if live groups are. -/
theorem Model.rootGroup_mirrors {d : Document} {R : Element -> ProcessGroup -> Prop}
    (h : flowSchema.Admits d.root)
    (hR : forall x, d.IsLiveGroup x -> R x (ProcessGroup.decodeTree (ofDocument d).layout x)) :
    exists e g, d.root.childrenNamed "rootGroup" = [e] ∧
      (ofDocument d).rootGroup = some g ∧ g.Mirrors R e := by
  rcases FlowSchema.exists_rootGroup h with ⟨e, he, hfirst, hconforms⟩
  refine ⟨e, _, he, rootGroup_eq_decodeTree hfirst, ?_⟩
  apply ProcessGroup.decodeTree_mirrors (fun _ _ hx hc => hx.nested hc) hR
  exact Document.isLiveGroup_root h (he ▸ List.mem_singleton_self e) hconforms

namespace Model

/-- What the root group holds. -/
def rootContents (m : Model) : Contents :=
  (m.rootGroup.bind ProcessGroup.contents).getD {}

/-- What relates all groups to their contents relates the root group to its contents. -/
theorem exists_related_rootContents {m : Model} {root : Element}
    {R : Element -> Contents -> Prop}
    (h : exists e g, root.childrenNamed "rootGroup" = [e] ∧ m.rootGroup = some g ∧
      g.Mirrors (fun x inner => exists c, inner.contents = some c ∧ R x c) e) :
    exists e, e ∈ root.children ∧ R e m.rootContents := by
  rcases h with ⟨e, g, he, hg, hmirrors⟩
  rcases hmirrors.related with ⟨c, hc, hrelated⟩
  refine ⟨e, (List.mem_filter.mp (he ▸ List.mem_singleton_self e)).left, ?_⟩
  rw [rootContents, hg, Option.bind_some, hc, Option.getD_some]
  exact hrelated

end Model
end FlowConfig
