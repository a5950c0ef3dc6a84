import FlowConfig.Proofs.Document.Offsets
import FlowConfig.Proofs.Document.Outline
import FlowConfig.Proofs.Document.Reading
import FlowConfig.Proofs.Flow.Emptiness
import FlowConfig.Proofs.Schema.Offsets

/-!
# The verdict on the raw tree

Whether a flow is empty is asked of its model, but it can be told from the tree: from
the names of the children of the root group, and from the names of the first reporting
task and of the first controller service.  The version of the root group selects a layout
and so decides which declarations of a group are read; none of these counts for the
verdict.
-/

namespace FlowConfig

/-!
# Forgetting the version
-/

namespace Element

def withoutVersion (e : Element) : Element :=
  ⟨{ e.node with attributes := e.attributes.filter fun a => a.1 != Version.attributeName },
    e.children⟩

/-- A child of the controller: the root group forgets its version. -/
def forgetVersion (c : Element) : Element :=
  if c.name = "rootGroup" then c.withoutVersion else c

/-- The document without the version of its root group. -/
def unversioned (root : Element) : Element :=
  ⟨root.node, root.children.map forgetVersion⟩

/-- The documents are equal up to byte offsets and the version of the root group. -/
def SameUpToVersion (root other : Element) : Prop :=
  root.withoutOffsets.unversioned = other.withoutOffsets.unversioned

theorem forgetVersion_of_name_ne {c : Element} (h : c.name ≠ "rootGroup") :
    c.forgetVersion = c :=
  if_neg h

theorem forgetVersion_of_name_eq {c : Element} (h : c.name = "rootGroup") :
    c.forgetVersion = c.withoutVersion :=
  if_pos h

@[simp] theorem name_forgetVersion (c : Element) : c.forgetVersion.name = c.name := by
  rw [forgetVersion]
  split
  · rfl
  · rfl

theorem keepsNames_forgetVersion : KeepsNames forgetVersion where
  name := name_forgetVersion
  uri := by
    intro c
    rw [forgetVersion]
    split
    · rfl
    · rfl

theorem isChangeOf_unversioned (root : Element) :
    IsChangeOf forgetVersion root.unversioned root :=
  ⟨rfl, rfl, rfl⟩

theorem childrenNamed_unversioned (root : Element) :
    root.unversioned.childrenNamed "rootGroup" =
      (root.childrenNamed "rootGroup").map withoutVersion := by
  rw [childrenNamed, unversioned, List.filter_map, childrenNamed]
  have hnames : ((fun c : Element => c.name == "rootGroup") ∘ forgetVersion) =
      fun c => c.name == "rootGroup" := by
    funext c
    rw [Function.comp_apply, name_forgetVersion]
  rw [hnames]
  apply List.map_congr_left
  intro c hc
  exact forgetVersion_of_name_eq (beq_iff_eq.mp (List.mem_filter.mp hc).right)

theorem descendant?_unversioned {name : String} (root : Element) (hname : name ≠ "rootGroup") :
    root.unversioned.descendant? name = root.descendant? name := by
  have hchild : forall c : Element, c.forgetVersion.elements.find? (fun x => x.name == name) =
      c.elements.find? fun x => x.name == name := by
    intro c
    by_cases hgroup : c.name = "rootGroup"
    · have hother : (c.name == name) = false := by
        rw [hgroup]
        exact beq_eq_false_iff_ne.mpr (Ne.symm hname)
      have hhead : (c.withoutVersion.name == name) = false := hother
      rw [forgetVersion_of_name_eq hgroup, elements_eq, elements_eq c, List.find?_cons, hhead,
        List.find?_cons, hother]
      rfl
    · rw [forgetVersion_of_name_ne hgroup]
  rw [descendant?, descendants_eq, unversioned, descendant?, descendants_eq]
  generalize root.children = es
  induction es with
  | nil => rfl
  | cons c rest ih =>
      rw [List.map_cons, List.flatMap_cons, List.find?_append, hchild, ih, List.flatMap_cons,
        List.find?_append]

/-!
# Validity
-/

theorem attributesFit_withoutVersion_iff (e : Element) :
    e.withoutVersion.AttributesFit [.allowed Version.attributeName .string] <->
      e.AttributesFit [.allowed Version.attributeName .string] := by
  have hrequired : forall d, d ∈ [AttributeDeclaration.allowed Version.attributeName .string] ->
      d.required ≠ true := by
    decide
  constructor
  · intro h
    refine ⟨?_, fun d hd hrequire => absurd hrequire (hrequired d hd)⟩
    intro name value hmem
    by_cases hname : name = Version.attributeName
    · rw [hname]
      exact ⟨_, rfl, rfl⟩
    · exact h.declared name value (List.mem_filter.mpr ⟨hmem, bne_iff_ne.mpr hname⟩)
  · intro h
    refine ⟨?_, fun d hd hrequire => absurd hrequire (hrequired d hd)⟩
    intro name value hmem
    exact h.declared name value (List.mem_filter.mp hmem).left

end Element

namespace FlowSchema

theorem conforms_withoutVersion_iff (c : Element) :
    flowSchema.Conforms c.withoutVersion "RootProcessGroupType" <->
      flowSchema.Conforms c "RootProcessGroupType" := by
  have htype : flowSchema.type? "RootProcessGroupType" =
      some (ofElements "RootProcessGroupType" [.allowed Version.attributeName .string]
        groupChildren) := by
    decide
  have hfits : c.withoutVersion.Fits (ofElements "RootProcessGroupType"
        [.allowed Version.attributeName .string] groupChildren) <->
      c.Fits (ofElements "RootProcessGroupType" [.allowed Version.attributeName .string]
        groupChildren) := by
    constructor
    · rintro ⟨hattributes, hblank, hchildren⟩
      exact ⟨c.attributesFit_withoutVersion_iff.mp hattributes, hblank,
        ⟨hchildren.declared, hchildren.counted⟩⟩
    · rintro ⟨hattributes, hblank, hchildren⟩
      exact ⟨c.attributesFit_withoutVersion_iff.mpr hattributes, hblank,
        ⟨hchildren.declared, hchildren.counted⟩⟩
  rw [Schema.conforms_iff, Schema.conforms_iff]
  simp only [htype, Option.some.injEq, exists_eq_left', Schema.ConformsTo, hfits]
  rfl

theorem admits_unversioned_iff {root : Element} :
    flowSchema.Admits root.unversioned <-> flowSchema.Admits root := by
  have hconforms : flowSchema.Conforms root.unversioned "FlowControllerType" <->
      flowSchema.Conforms root "FlowControllerType" := by
    apply Schema.conforms_change_iff Element.keepsNames_forgetVersion root.isChangeOf_unversioned
    intro t htype c childType hc
    rcases Schema.exists_declaration_of_mem_governedChildren htype hc with
      ⟨d, hd, hname, hchildType⟩
    have hdeclared := controller_declarations d hd
    by_cases hgroup : c.name = "rootGroup"
    · rw [hname, if_pos hgroup, hchildType] at hdeclared
      rw [Element.forgetVersion_of_name_eq hgroup, hdeclared]
      exact conforms_withoutVersion_iff c
    · rw [Element.forgetVersion_of_name_ne hgroup]
  exact Schema.admits_congr rfl rfl hconforms

end FlowSchema

/-!
# The verdict
-/

namespace Element

def IsFirst (root : Element) (name : String) (e : Element) : Prop :=
  e.name = name ∧ exists before after, root.elements = before ++ e :: after ∧
    forall x, x ∈ before -> x.name ≠ name

theorem descendant?_eq_some_iff {root e : Element} {name : String} (hroot : root.name ≠ name) :
    root.descendant? name = some e <-> root.IsFirst name e := by
  have hself : (root.name == name) = false := beq_eq_false_iff_ne.mpr hroot
  have hfind : root.descendant? name = root.elements.find? fun x => x.name == name := by
    rw [elements_eq, List.find?_cons, hself, descendant?, descendants_eq]
  rw [hfind, List.find?_eq_some_iff_append, beq_iff_eq]
  simp only [Bool.not_eq_true', beq_eq_false_iff_ne]
  exact Iff.rfl

def HasNoName (e : Element) : Prop :=
  forall text, e.childText? "name" = some text -> Text.allBlank text = true

theorem isUnnamed_iff {e : Element} : e.isUnnamed = true <-> e.HasNoName := by
  rw [isUnnamed, fieldText, HasNoName]
  cases e.childText? "name" with
  | none =>
      constructor
      · intro _ text h
        cases h
      · intro _
        rfl
  | some text =>
      constructor
      · intro h other heq
        cases heq
        exact h
      · intro h
        exact h text rfl

/-- The root group of the flow holds nothing that counts, and neither the first reporting
task nor the first controller service has a name. -/
structure LooksEmpty (root g : Element) : Prop where
  group : forall c, c ∈ g.children -> c.name ∉ ProcessGroup.countedNames
  configured : forall name e, name ∈ Document.configuredNames -> root.IsFirst name e ->
    e.HasNoName

theorem forall_childrenNamed_eq_nil_iff {g : Element} {names : List String} :
    (forall name, name ∈ names -> g.childrenNamed name = []) <->
      forall c, c ∈ g.children -> c.name ∉ names := by
  constructor
  · intro h c hc hname
    have hmem : c ∈ g.childrenNamed c.name := List.mem_filter.mpr ⟨hc, beq_self_eq_true c.name⟩
    rw [h c.name hname] at hmem
    cases hmem
  · intro h name hname
    rw [childrenNamed, List.filter_eq_nil_iff]
    intro c hc heq
    exact h c hc (eq_of_beq heq ▸ hname)

end Element

namespace Model

variable {root other g : Element}

theorem all_map_first_iff {A : Type} {f : Element -> A} {p : A -> Bool} {name : String}
    (hp : forall e : Element, p (f e) = e.isUnnamed) (hroot : root.name ≠ name) :
    ((root.descendant? name).map f).all p = true <->
      forall e, root.IsFirst name e -> e.HasNoName := by
  simp only [← Element.descendant?_eq_some_iff hroot, ← Element.isUnnamed_iff]
  cases root.descendant? name with
  | none => simp
  | some e => simp [hp]

/-- The verdict is told by the tree. -/
theorem isEmpty_ofRoot_iff (h : flowSchema.Admits root)
    (hg : root.childrenNamed "rootGroup" = [g]) :
    (ofRoot root).isEmpty = true <-> root.LooksEmpty g := by
  rcases FlowSchema.exists_rootGroup h with ⟨g', hg', hfirst, _⟩
  rw [hg] at hg'
  cases hg'
  have hname := FlowSchema.name_eq_of_admits h
  have hgroup : (ofRoot root).rootGroupEmpty = true <->
      forall c, c ∈ g.children -> c.name ∉ ProcessGroup.countedNames :=
    ((Document.ofRoot root).rootGroupEmpty_iff hfirst).trans
      Element.forall_childrenNamed_eq_nil_iff
  have htask : (ofRoot root).reportingTaskEmpty = true <-> _ :=
    all_map_first_iff (fun _ => rfl) (show root.name ≠ "reportingTask" by rw [hname]; decide)
  have hservice : (ofRoot root).controllerServiceEmpty = true <-> _ :=
    all_map_first_iff (fun _ => rfl)
      (show root.name ≠ "controllerService" by rw [hname]; decide)
  rw [isEmpty, Bool.and_eq_true, Bool.and_eq_true, hgroup, htask, hservice]
  constructor
  · rintro ⟨⟨hgroup, htask⟩, hservice⟩
    refine ⟨hgroup, ?_⟩
    intro name e hmem hfirst
    rcases List.mem_cons.mp hmem with rfl | hmem
    · exact htask e hfirst
    · cases List.mem_singleton.mp hmem
      exact hservice e hfirst
  · intro hlooks
    refine ⟨⟨hlooks.group, ?_⟩, ?_⟩
    · exact fun e => hlooks.configured "reportingTask" e (by decide)
    · exact fun e => hlooks.configured "controllerService" e (by decide)

theorem isEmpty_ofRoot_unversioned (h : flowSchema.Admits root) :
    (ofRoot root.unversioned).isEmpty = (ofRoot root).isEmpty := by
  rcases FlowSchema.exists_rootGroup h with ⟨g, hg, _, _⟩
  have hunversioned : root.unversioned.childrenNamed "rootGroup" = [g.withoutVersion] := by
    rw [Element.childrenNamed_unversioned, hg]
    rfl
  have hname := FlowSchema.name_eq_of_admits h
  have hfirst : forall name e, name ∈ Document.configuredNames ->
      (root.unversioned.IsFirst name e <-> root.IsFirst name e) := by
    intro name e hmem
    have hnames : forall name, name ∈ Document.configuredNames ->
        "flowController" ≠ name ∧ name ≠ "rootGroup" := by
      decide
    have hroot : root.name ≠ name := hname ▸ (hnames name hmem).left
    have hunversionedRoot : root.unversioned.name ≠ name := hroot
    rw [← Element.descendant?_eq_some_iff hroot, ← Element.descendant?_eq_some_iff hunversionedRoot,
      root.descendant?_unversioned (hnames name hmem).right]
  rw [Bool.eq_iff_iff, isEmpty_ofRoot_iff (FlowSchema.admits_unversioned_iff.mpr h) hunversioned,
    isEmpty_ofRoot_iff h hg]
  constructor
  · rintro ⟨hgroup, hconfigured⟩
    exact ⟨hgroup, fun name e hmem hisFirst =>
      hconfigured name e hmem ((hfirst name e hmem).mpr hisFirst)⟩
  · rintro ⟨hgroup, hconfigured⟩
    exact ⟨hgroup, fun name e hmem hisFirst =>
      hconfigured name e hmem ((hfirst name e hmem).mp hisFirst)⟩

theorem isEmpty_ofRoot_withoutOffsets (root : Element) :
    (ofRoot root.withoutOffsets).isEmpty = (ofRoot root).isEmpty :=
  congrArg isEmpty (ofDocument_withoutOffsets (Document.ofRoot root))

theorem admits_of_sameUpToVersion (h : root.SameUpToVersion other)
    (hadmits : flowSchema.Admits other) : flowSchema.Admits root := by
  rw [← Schema.admits_withoutOffsets_iff, ← FlowSchema.admits_unversioned_iff, h,
    FlowSchema.admits_unversioned_iff, Schema.admits_withoutOffsets_iff]
  exact hadmits

theorem isEmpty_ofRoot_eq_of_sameUpToVersion (h : root.SameUpToVersion other)
    (hadmits : flowSchema.Admits other) :
    (ofRoot root).isEmpty = (ofRoot other).isEmpty := by
  have hroot := Schema.admits_withoutOffsets_iff.mpr (admits_of_sameUpToVersion h hadmits)
  have hother := Schema.admits_withoutOffsets_iff.mpr hadmits
  calc (ofRoot root).isEmpty
      = (ofRoot root.withoutOffsets).isEmpty := (isEmpty_ofRoot_withoutOffsets root).symm
    _ = (ofRoot root.withoutOffsets.unversioned).isEmpty :=
        (isEmpty_ofRoot_unversioned hroot).symm
    _ = (ofRoot other.withoutOffsets.unversioned).isEmpty := by rw [h]
    _ = (ofRoot other.withoutOffsets).isEmpty := isEmpty_ofRoot_unversioned hother
    _ = (ofRoot other).isEmpty := isEmpty_ofRoot_withoutOffsets other

end Model

/-- A text that is refused has no verdict but the issue it is refused for.  The verdict on
any other text is told by its tree, and a text with the same tree up to the version of the
root group is accepted too and has the same verdict. -/
theorem isEmptyFlow_told_by_tree {input : Bytes} (hinput : input ≠ []) :
    (exists issue, Document.parse input = .error issue ∧ isEmptyFlow input = .error issue) ∨
      exists d g verdict, Document.parse input = .ok (some d) ∧
        d.root.childrenNamed "rootGroup" = [g] ∧ isEmptyFlow input = .ok verdict ∧
        (verdict = true <-> d.root.LooksEmpty g) ∧
        forall other root, (Document.readTree Handler.silent () other).2 = .ok root ->
          root.SameUpToVersion d.root -> isEmptyFlow other = .ok verdict := by
  have houtcome := Document.outcome_parse hinput
  generalize (Document.readTree Handler.silent () input).2.toOption = tree at houtcome
  generalize hparse : Document.parse input = answer at houtcome
  cases houtcome with
  | malformed hfatal =>
      rename_i issue
      refine Or.inl ⟨issue, rfl, ?_⟩
      rw [isEmptyFlow, hparse]
  | invalid hnot herror =>
      rename_i issue
      refine Or.inl ⟨issue, rfl, ?_⟩
      rw [isEmptyFlow, hparse]
  | valid hadmits =>
      rename_i root
      rcases FlowSchema.exists_rootGroup hadmits with ⟨g, hg, _, _⟩
      refine Or.inr ⟨Document.ofRoot root, g, (Model.ofRoot root).isEmpty, rfl, hg, ?_,
        Model.isEmpty_ofRoot_iff hadmits hg, ?_⟩
      · rw [isEmptyFlow, hparse]
        rfl
      · intro other found htree hsame
        have hfound := Model.admits_of_sameUpToVersion hsame hadmits
        rw [isEmptyFlow, Document.parse_of_readTree htree hfound]
        exact congrArg Except.ok (Model.isEmpty_ofRoot_eq_of_sameUpToVersion hsame hadmits)

def noAttributes : Markup.Attributes :=
  ⟨[], by decide, by decide⟩

def declaredVersion (version : String) : Markup.Attributes where
  entries := [(⟨"encoding-version", rfl⟩, version)]
  distinct := List.pairwise_singleton _ _
  unreserved := by
    intro a ha
    cases List.mem_singleton.mp ha
    exact show "encoding-version" ≠ "xmlns" by decide

def emptyOutline (attributes : Markup.Attributes) : Outline :=
  let leaf (name : Markup.Name) (text : String) : Outline := ⟨name, noAttributes, text, []⟩
  ⟨⟨"flowController", rfl⟩, noAttributes, "",
    [⟨⟨"rootGroup", rfl⟩, attributes, "",
      [leaf ⟨"id", rfl⟩ "r", leaf ⟨"name", rfl⟩ "n"]⟩]⟩

theorem isEmptyFlow_told_by_tree_emptyOutline :
    (emptyOutline noAttributes).render ≠ [] ∧
      isEmptyFlow (emptyOutline noAttributes).render = .ok true ∧
      (forall version, isEmptyFlow (emptyOutline (declaredVersion version)).render = .ok true) ∧
      (Model.ofRoot (emptyOutline noAttributes).element).layout = .legacy ∧
      (Model.ofRoot (emptyOutline (declaredVersion "1.0")).element).layout = .v1 ∧
      (Model.ofRoot (emptyOutline (declaredVersion "1.1")).element).layout = .v1Variables := by
  have hinput : (emptyOutline noAttributes).render ≠ [] := by decide +kernel
  have hempty : isEmptyFlow (emptyOutline noAttributes).render = .ok true := by decide +kernel
  refine ⟨hinput, hempty, ?_, by decide +kernel, by decide +kernel, by decide +kernel⟩
  intro version
  have htree := (emptyOutline (declaredVersion version)).toOption_readTree_render Handler.silent ()
  rcases isEmptyFlow_told_by_tree hinput with
    ⟨issue, _, hissue⟩ | ⟨d, g, verdict, hparse, _, hverdict, _, hsame⟩
  · rw [hempty] at hissue
    cases hissue
  · rw [hempty] at hverdict
    cases hverdict
    have hplain := (emptyOutline noAttributes).toOption_readTree_render Handler.silent ()
    rw [Document.readTree_of_parse hinput hparse] at hplain
    cases hread : (Document.readTree Handler.silent ()
        (emptyOutline (declaredVersion version)).render).2 with
    | error issue =>
        rw [hread] at htree
        cases htree
    | ok root =>
        rw [hread] at htree
        apply hsame _ root hread
        rw [Element.SameUpToVersion, Option.some.inj htree, Option.some.inj hplain]
        rfl

end FlowConfig
