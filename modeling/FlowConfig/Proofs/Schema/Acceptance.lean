import FlowConfig.Document
import FlowConfig.Proofs.Schema.Conformance

/-!
# What validation accepts

Validation of a document with a schema that was put together type by type: it
ends, it only ever checks governed elements, and it accepts exactly the
documents that the schema admits.
-/

namespace FlowConfig
namespace Schema

/-!
# Schemas put together type by type
-/

theorem type?_withTypes (s : Schema) (types : List ElementType) (name : String) :
    (s.withTypes types).type? name =
      (types.reverse.find? fun t => t.name == name).or (s.type? name) := by
  induction types generalizing s with
  | nil => simp [withTypes]
  | cons t rest ih =>
      have hstep : s.withTypes (t :: rest) = (s.withType t).withTypes rest := rfl
      rw [hstep, ih, type?_withType, List.reverse_cons, List.find?_append, Option.or_assoc]
      congr 1
      by_cases h : name = t.name
      · simp [h]
      · have hne : (t.name == name) = false := by simpa using Ne.symm h
        simp [h, hne]

theorem type?_new (revision rootName rootType name : String) :
    (new revision rootName rootType).type? name = none := rfl

theorem rootName_withTypes (s : Schema) (types : List ElementType) :
    (s.withTypes types).rootName = s.rootName := by
  induction types generalizing s with
  | nil => rfl
  | cons t rest ih => exact ih (s.withType t)

theorem rootType_withTypes (s : Schema) (types : List ElementType) :
    (s.withTypes types).rootType = s.rootType := by
  induction types generalizing s with
  | nil => rfl
  | cons t rest ih => exact ih (s.withType t)

/-!
# Governed elements

The schema governs an element and, where the content of the element is
declared, what it governs in the children.  An element with open content is
governed, nothing inside it is.
-/

/-- The elements that the schema governs from a typed element on, in document
order. -/
def governed (s : Schema) (e : Element) (t : ElementType) : List (Element × ElementType) :=
  (e, t) :: (s.resolved (e.governedChildren t)).attach.flatMap fun ⟨task, _hmem⟩ =>
    s.governed task.1 task.2
termination_by e.size
decreasing_by
  rcases mem_resolved_iff.mp _hmem with ⟨typeName, hgoverned, _⟩
  exact Element.size_lt_of_mem_children
    (Element.mem_children_of_mem_governedChildren hgoverned)

def governedAll (s : Schema) (pending : List (Element × ElementType)) :
    List (Element × ElementType) :=
  pending.flatMap fun task => s.governed task.1 task.2

theorem governed_eq (s : Schema) (e : Element) (t : ElementType) :
    s.governed e t = (e, t) :: s.governedAll (s.resolved (e.governedChildren t)) := by
  rw [governed, List.flatMap_subtype fun _ _ => rfl, List.unattach_attach]
  rfl

theorem governedAll_cons (s : Schema) (e : Element) (t : ElementType)
    (rest : List (Element × ElementType)) :
    s.governedAll ((e, t) :: rest) =
      (e, t) :: s.governedAll (s.resolved (e.governedChildren t) ++ rest) := by
  rw [governedAll, List.flatMap_cons, governed_eq]
  simp [governedAll]

theorem governed_of_open (s : Schema) (e : Element) {t : ElementType}
    (hopen : t.content = .any) : s.governed e t = [(e, t)] := by
  rw [governed_eq, Element.governedChildren, hopen]
  rfl

/-!
A governed element stands at a place of its own in the tree, so there are at
most as many as the tree has elements.
-/

theorem map_filterMap_sublist {A B C : Type} {f : A -> Option B} {g : B -> C} {h : A -> C}
    (hf : forall a b, f a = some b -> g b = h a) (as : List A) :
    List.Sublist ((as.filterMap f).map g) (as.map h) := by
  induction as with
  | nil => exact List.Sublist.slnil
  | cons a rest ih =>
      rw [List.filterMap_cons, List.map_cons]
      cases hfa : f a with
      | none => exact List.Sublist.cons (h a) ih
      | some b =>
          simp only [List.map_cons]
          rw [hf a b hfa]
          exact List.Sublist.cons_cons (h a) ih

theorem map_fst_governedChildren_sublist (e : Element) (t : ElementType) :
    List.Sublist ((e.governedChildren t).map Prod.fst) e.children := by
  rw [Element.governedChildren]
  split
  · rw [Element.typedBy]
    conv => rhs; rw [← List.map_id e.children]
    apply map_filterMap_sublist
    intro c entry hentry
    rcases Option.map_eq_some_iff.mp hentry with ⟨d, _, rfl⟩
    rfl
  · exact List.nil_sublist e.children

theorem map_fst_resolved_sublist (s : Schema) (e : Element) (t : ElementType) :
    List.Sublist ((s.resolved (e.governedChildren t)).map Prod.fst) e.children := by
  have hresolved : List.Sublist ((s.resolved (e.governedChildren t)).map Prod.fst)
      ((e.governedChildren t).map Prod.fst) := by
    apply map_filterMap_sublist
    intro entry task htask
    rcases Option.map_eq_some_iff.mp htask with ⟨u, _, rfl⟩
    rfl
  exact hresolved.trans (map_fst_governedChildren_sublist e t)

theorem totalSize_le_of_sublist {es fs : List Element} (h : List.Sublist es fs) :
    Element.totalSize es ≤ Element.totalSize fs := by
  induction h with
  | slnil => exact Nat.le_refl _
  | cons e _ ih =>
      rw [Element.totalSize_cons]
      exact Nat.le_trans ih (Nat.le_add_left _ _)
  | cons_cons e _ ih =>
      rw [Element.totalSize_cons, Element.totalSize_cons]
      exact Nat.add_le_add_left ih e.size

theorem length_governedAll_le {s : Schema} {pending : List (Element × ElementType)}
    (h : forall e t, (e, t) ∈ pending -> (s.governed e t).length ≤ e.size) :
    (s.governedAll pending).length ≤ Element.totalSize (pending.map Prod.fst) := by
  induction pending with
  | nil => exact Nat.le_refl _
  | cons task rest ih =>
      rw [governedAll, List.flatMap_cons, List.length_append, List.map_cons,
        Element.totalSize_cons]
      exact Nat.add_le_add (h task.1 task.2 List.mem_cons_self)
        (ih fun e t hmem => h e t (List.mem_cons_of_mem task hmem))

theorem length_governed_le (s : Schema) (e : Element) (t : ElementType) :
    (s.governed e t).length ≤ e.size := by
  induction e using Element.treeInduction generalizing t with
  | step e ih =>
      have hsub := s.map_fst_resolved_sublist e t
      have hchildren : (s.governedAll (s.resolved (e.governedChildren t))).length ≤
          Element.totalSize ((s.resolved (e.governedChildren t)).map Prod.fst) := by
        apply length_governedAll_le
        intro c u hmem
        exact ih c (hsub.subset (List.mem_map_of_mem hmem)) u
      rw [governed_eq, List.length_cons, Element.size_eq]
      exact Nat.succ_le_succ (Nat.le_trans hchildren (totalSize_le_of_sublist hsub))

/-!
# The walk of validation

A walk takes the first pending element, checks it, and puts the elements it
governs in front of those that are still pending.  It ends when nothing is
pending, or with the first fault.
-/

/-- From pending elements the walk checks the elements listed and ends with the
given outcome. -/
inductive Walk (s : Schema) :
    List (Element × ElementType) -> List (Element × ElementType) ->
      Except (Element × Violation) Unit -> Prop where
  | done : Walk s [] [] (.ok ())
  | violation {e : Element} {t : ElementType} {rest : List (Element × ElementType)}
      {v : Violation} :
      e.check t = .error v -> Walk s ((e, t) :: rest) [(e, t)] (.error (e, v))
  | unresolved {e : Element} {t : ElementType} {rest : List (Element × ElementType)}
      {typed : List (Element × String)} {fault : Element × Violation} :
      e.check t = .ok typed -> s.resolveTypes typed = .error fault ->
      Walk s ((e, t) :: rest) [(e, t)] (.error fault)
  | next {e : Element} {t : ElementType} {rest tasks checked : List (Element × ElementType)}
      {typed : List (Element × String)} {outcome : Except (Element × Violation) Unit} :
      e.check t = .ok typed -> s.resolveTypes typed = .ok tasks ->
      Walk s (tasks ++ rest) checked outcome ->
      Walk s ((e, t) :: rest) ((e, t) :: checked) outcome

theorem exists_walk_validateFrom (s : Schema) (pending : List (Element × ElementType)) :
    exists checked, s.Walk pending checked (s.validateFrom pending) ∧
      checked <+: s.governedAll pending := by
  fun_induction validateFrom s pending with
  | case1 => exact ⟨[], Walk.done, List.prefix_refl []⟩
  | case2 e t rest v hcheck =>
      refine ⟨[(e, t)], Walk.violation hcheck, ?_⟩
      rw [governedAll_cons]
      exact List.prefix_append [(e, t)] _
  | case3 e t rest typed hcheck fault hresolve =>
      refine ⟨[(e, t)], Walk.unresolved hcheck hresolve, ?_⟩
      rw [governedAll_cons]
      exact List.prefix_append [(e, t)] _
  | case4 e t rest typed hcheck tasks hresolve ih =>
      rcases ih with ⟨checked, hwalk, hprefix⟩
      refine ⟨(e, t) :: checked, Walk.next hcheck hresolve hwalk, ?_⟩
      rw [governedAll_cons]
      rw [(Element.check_eq_ok_iff.mp hcheck).right] at hresolve
      rw [(resolveTypes_eq_ok_iff.mp hresolve).right] at hprefix
      exact List.prefix_cons_iff.mpr (Or.inr ⟨checked, rfl, hprefix⟩)

/-- A schema put together type by type, the last type of a name counting,
accepts exactly the documents it admits.  From any pending elements validation
ends after at most one step for each element of their trees, and it checks
governed elements only, in document order; none of them is in open content. -/
theorem validate_accepts_exactly_admitted (revision rootName rootType : String)
    (types : List ElementType) :
    let s := (new revision rootName rootType).withTypes types
    (forall d : Document, s.validate d.root = .ok () <-> s.Admits d.root) ∧
      (s.rootName = rootName ∧ s.rootType = rootType ∧
        forall name, s.type? name = types.reverse.find? fun t => t.name == name) ∧
      (forall pending, exists checked, s.Walk pending checked (s.validateFrom pending) ∧
        checked <+: s.governedAll pending ∧
          checked.length ≤ Element.totalSize (pending.map Prod.fst)) ∧
      forall e t, t.content = .any -> s.governed e t = [(e, t)] := by
  intro s
  refine ⟨fun d => validate_eq_ok_iff, ⟨?_, ?_, ?_⟩, ?_, ?_⟩
  · exact rootName_withTypes _ types
  · exact rootType_withTypes _ types
  · intro name
    rw [type?_withTypes, type?_new, Option.or_none]
  · intro pending
    rcases s.exists_walk_validateFrom pending with ⟨checked, hwalk, hprefix⟩
    have hlength : (s.governedAll pending).length ≤
        Element.totalSize (pending.map Prod.fst) :=
      length_governedAll_le fun e t _ => s.length_governed_le e t
    exact ⟨checked, hwalk, hprefix, Nat.le_trans hprefix.length_le hlength⟩
  · intro e t hopen
    exact s.governed_of_open e hopen

/-!
A type that declares an attribute twice is governed by the first declaration
alone.  A value that only the second one accepts is refused.
-/

/-- A controller type with two declarations of its version attribute. -/
def twiceDeclared : ElementType :=
  ⟨"ControllerType",
    [AttributeDeclaration.allowed "encoding-version" .integer,
     AttributeDeclaration.allowed "encoding-version" .string],
    .elements [ChildDeclaration.one "rootGroup" "AnyType"]⟩

def twiceDeclaredTypes : List ElementType :=
  [twiceDeclared, ⟨"AnyType", [], .any⟩]

def draftController : Element :=
  let leaf (name text : String) (rank offset : Nat) : Element :=
    ⟨⟨name, none, [], text, ⟨rank, offset⟩⟩, []⟩
  ⟨⟨"flowController", none, [("encoding-version", "draft")], "", ⟨0, 0⟩⟩,
    [⟨⟨"rootGroup", none, [], "", ⟨1, 41⟩⟩, [leaf "id" "r" 2 52, leaf "name" "n" 3 62]⟩]⟩

/-- The controller has the declared root name, its attribute has a declaration
whose kind accepts the value, and all else is as the schema asks; validation
refuses it. -/
theorem validate_refuses_value_of_later_declaration :
    let s := (new "1" "flowController" "ControllerType").withTypes twiceDeclaredTypes
    (draftController.name = s.rootName ∧ draftController.uri = none) ∧
      s.type? s.rootType = some twiceDeclared ∧
      (forall name value, (name, value) ∈ draftController.attributes ->
        exists d, d ∈ twiceDeclared.attributes ∧ d.name = name ∧
          d.kind.accepts value = true) ∧
      (forall d, d ∈ twiceDeclared.attributes -> d.required = true ->
        exists value, (d.name, value) ∈ draftController.attributes) ∧
      draftController.hasBlankText = true ∧
      draftController.ChildrenFit [ChildDeclaration.one "rootGroup" "AnyType"] ∧
      (forall c, c ∈ draftController.children -> s.Conforms c "AnyType") ∧
      s.validate draftController ≠ .ok () := by
  intro s
  have hroot : s.type? s.rootType = some twiceDeclared := by decide
  have hany : s.type? "AnyType" = some ⟨"AnyType", [], .any⟩ := by decide
  refine ⟨⟨rfl, rfl⟩, hroot, ?_, ?_, by decide, ?_, ?_, ?_⟩
  · intro name value hmem
    cases List.mem_singleton.mp hmem
    exact ⟨AttributeDeclaration.allowed "encoding-version" .string, by decide, rfl, rfl⟩
  · intro d hd hrequired
    have hnone : forall d, d ∈ twiceDeclared.attributes -> d.required = false := by decide
    rw [hnone d hd] at hrequired
    cases hrequired
  · constructor
    · intro c hc
      cases List.mem_singleton.mp hc
      exact ⟨0, by decide⟩
    · intro i d hd
      cases i with
      | zero =>
          cases hd
          exact ⟨by decide, fun max hmax => by cases hmax; decide⟩
      | succ i => cases hd
  · intro c _
    apply Conforms.intro hany trivial
    intro declarations hcontent
    cases hcontent
  · intro hok
    rcases conforms_iff.mp (validate_eq_ok_iff.mp hok).conforms with ⟨t, ht, hfits, _⟩
    rw [hroot] at ht
    cases ht
    rcases hfits.left.declared "encoding-version" "draft" List.mem_cons_self with
      ⟨d, hfirst, haccepts⟩
    cases hfirst
    revert haccepts
    decide

end Schema
end FlowConfig
