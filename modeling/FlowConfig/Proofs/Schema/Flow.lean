import FlowConfig.Proofs.Schema.Field
import FlowConfig.Schema.Flow

/-!
# Where a flow holds its components

A valid flow has one root group, which is the first element of that name, and
components stand in groups only: what else a controller or a group holds has none
of them, as far as its content is closed.
-/

namespace FlowConfig

/-- What the groups of a flow hold. -/
inductive ComponentKind where
  | processor
  | connection
  | funnel
  | label
  | inputPort
  | outputPort
  | processGroup
  | remoteProcessGroup
  | controllerService
deriving DecidableEq, Repr

namespace ComponentKind

def elementName : ComponentKind -> String
  | .processor => "processor"
  | .connection => "connection"
  | .funnel => "funnel"
  | .label => "label"
  | .inputPort => "inputPort"
  | .outputPort => "outputPort"
  | .processGroup => "processGroup"
  | .remoteProcessGroup => "remoteProcessGroup"
  | .controllerService => "controllerService"

/-- Whether elements of the kind belong to a group when their parent has the
name.  Remote groups have ports of their own, and the controller has services. -/
def standsIn (parent : Option String) : ComponentKind -> Bool
  | .inputPort => parent != some "remoteProcessGroup"
  | .outputPort => parent != some "remoteProcessGroup"
  | .controllerService => parent == some "rootGroup" || parent == some "processGroup"
  | _ => true

def all : List ComponentKind :=
  [.processor, .connection, .funnel, .label, .inputPort, .outputPort, .processGroup,
   .remoteProcessGroup, .controllerService]

theorem mem_all (k : ComponentKind) : k ∈ all := by
  cases k <;> decide

end ComponentKind

namespace FlowSchema

def openNames : List String :=
  ["template", "styles", "versionControlInformation"]

/-- Neither the root group nor a component of a group. -/
def isPart (parent name : String) : Bool :=
  name != "rootGroup" &&
    ComponentKind.all.all fun k => !(name == k.elementName && k.standsIn (some parent))

theorem name_ne_rootGroup_of_isPart {parent name : String} (h : isPart parent name = true) :
    name ≠ "rootGroup" := by
  rw [isPart, Bool.and_eq_true] at h
  exact bne_iff_ne.mp h.left

theorem not_component_of_isPart {parent name : String} (h : isPart parent name = true)
    (k : ComponentKind) : (name == k.elementName && k.standsIn (some parent)) = false := by
  rw [isPart, Bool.and_eq_true] at h
  exact Bool.not_eq_true' _ |>.mp (List.all_eq_true.mp h.right k k.mem_all)

/-!
# The types
-/

def types : List ElementType :=
  valueTypes ++ controllerTypes ++ groupTypes ++ extensionTypes ++ canvasTypes ++ remoteTypes ++
    connectionTypes

theorem declares_of_mem_types :
    forall t, t ∈ types -> forall d, d ∈ t.content.declarations ->
      flowSchema.Declares t.name d := by
  decide +kernel

/-- The type of the name declares the child, as the schema is written down. -/
def declaresField (typeName : String) (d : ChildDeclaration) : Bool :=
  types.any fun t => t.name == typeName && t.content.declarations.contains d

theorem declares_of_declaresField {typeName : String} {d : ChildDeclaration}
    (h : declaresField typeName d = true) : flowSchema.Declares typeName d := by
  rcases List.any_eq_true.mp h with ⟨t, ht, hboth⟩
  rw [Bool.and_eq_true] at hboth
  rw [← eq_of_beq hboth.left]
  exact declares_of_mem_types t ht d (List.contains_iff_mem.mp hboth.right)

/-!
# The controller
-/

theorem isOpen_controller : flowSchema.isOpen "FlowControllerType" = false := by
  decide

/-- The roles of what the controller holds beside the root group. -/
def sectionRoles : List (String × String) :=
  ((flowSchema.rolesIn ((controllerTypes ++ extensionTypes).map ElementType.name)).filter
    fun role => role.1 != "rootGroup" && role.2 != "AnyType").eraseDups

theorem covers_sectionRoles : flowSchema.covers [] isPart sectionRoles = true := by
  decide +kernel

theorem controller_declarations :
    forall d, d ∈ flowSchema.declarationsOf "FlowControllerType" ->
      if d.name = "rootGroup" then d.typeName = "RootProcessGroupType"
      else isPart "flowController" d.name = true ∧ (d.name, d.typeName) ∈ sectionRoles := by
  decide +kernel

theorem find?_rootGroup :
    (flowSchema.declarationsOf "FlowControllerType").find? (fun d => d.name == "rootGroup") =
      some (ChildDeclaration.one "rootGroup" "RootProcessGroupType") := by
  decide

theorem conforms_of_admits {root : Element} (h : flowSchema.Admits root) :
    flowSchema.Conforms root "FlowControllerType" :=
  h.conforms

theorem name_eq_of_admits {root : Element} (h : flowSchema.Admits root) :
    root.name = "flowController" :=
  h.name_eq

theorem isPart_of_mem_section {root c x : Element} {up : List Element}
    (h : flowSchema.Admits root) (hc : c ∈ root.children) (hname : c.name ≠ "rootGroup")
    (hmem : (x, up) ∈ c.lineages [root]) :
    exists p rest, up = p :: rest ∧ isPart p.name x.name = true := by
  rcases Schema.exists_declaration_of_mem_children (conforms_of_admits h) isOpen_controller hc
    with ⟨d, hd, hdname, hconforms⟩
  have hdeclared := controller_declarations d hd
  rw [hdname, if_neg hname] at hdeclared
  rw [Element.lineages_eq] at hmem
  rcases List.mem_cons.mp hmem with heq | hinside
  · cases heq
    refine ⟨root, [], rfl, ?_⟩
    rw [name_eq_of_admits h]
    exact hdeclared.left
  · exact Schema.may_of_mem_lineages covers_sectionRoles hconforms hdeclared.right hinside
      fun _ _ => List.not_mem_nil

theorem name_ne_rootGroup_of_mem_section {root c x : Element} (h : flowSchema.Admits root)
    (hc : c ∈ root.children) (hname : c.name ≠ "rootGroup") (hx : x ∈ c.elements) :
    x.name ≠ "rootGroup" := by
  rw [← Element.map_fst_lineages [root] c] at hx
  rcases List.mem_map.mp hx with ⟨⟨_, up⟩, hlineage, rfl⟩
  rcases isPart_of_mem_section h hc hname hlineage with ⟨_, _, _, hpart⟩
  exact name_ne_rootGroup_of_isPart hpart

/-- The controller holds one root group, and no element of that name comes before
it in the document. -/
theorem exists_rootGroup {root : Element} (h : flowSchema.Admits root) :
    exists g, root.childrenNamed "rootGroup" = [g] ∧
      root.descendant? "rootGroup" = some g ∧
        flowSchema.Conforms g "RootProcessGroupType" := by
  have hconforms := conforms_of_admits h
  have hallows := Schema.allows_length_childrenNamed hconforms isOpen_controller find?_rootGroup
  have hone : (root.childrenNamed "rootGroup").length = 1 :=
    Nat.le_antisymm (hallows.right 1 rfl) hallows.left
  rcases List.length_eq_one_iff.mp hone with ⟨g, hg⟩
  have hmem : g ∈ root.childrenNamed "rootGroup" := by
    rw [hg]
    exact List.mem_singleton_self g
  rcases List.mem_filter.mp hmem with ⟨hchild, hname⟩
  refine ⟨g, hg, ?_, ?_⟩
  · rw [Element.descendant?_eq_child?, Element.child?_eq_head?, hg]
    · rfl
    · intro c hc hother x hx
      exact name_ne_rootGroup_of_mem_section h hc hother hx
  · rcases Schema.exists_declaration_of_mem_children hconforms isOpen_controller hchild with
      ⟨d, hd, hdname, hchildConforms⟩
    have hdeclared := controller_declarations d hd
    rw [hdname, if_pos (eq_of_beq hname)] at hdeclared
    rw [← hdeclared]
    exact hchildConforms

/-!
# Groups
-/

def groupTypeNames : List String :=
  groupTypes.map ElementType.name

theorem declaresField_group {typeName : String} {d : ChildDeclaration}
    (htype : typeName ∈ groupTypeNames) (hd : d ∈ groupChildren) :
    declaresField typeName d = true := by
  have hgroups : forall t, t ∈ groupTypes ->
      t ∈ types ∧ t.content.declarations = groupChildren := by
    decide
  rcases List.mem_map.mp htype with ⟨t, ht, rfl⟩
  refine List.any_eq_true.mpr ⟨t, (hgroups t ht).left, ?_⟩
  rw [Bool.and_eq_true, (hgroups t ht).right]
  exact ⟨beq_self_eq_true t.name, List.contains_iff_mem.mpr hd⟩

theorem isOpen_group : forall typeName, typeName ∈ groupTypeNames ->
    flowSchema.isOpen typeName = false := by
  decide

def partRoles : List (String × String) :=
  ((flowSchema.rolesIn ((groupTypes ++ extensionTypes ++ canvasTypes ++ remoteTypes ++
    connectionTypes).map ElementType.name)).filter
      fun role => role.1 != "processGroup").eraseDups

theorem covers_partRoles : flowSchema.covers openNames isPart partRoles = true := by
  decide +kernel

theorem group_declarations :
    forall typeName, typeName ∈ groupTypeNames -> forall d,
      d ∈ flowSchema.declarationsOf typeName ->
      if d.name = "processGroup" then d.typeName ∈ groupTypeNames
      else (d.name, d.typeName) ∈ partRoles := by
  decide +kernel

theorem exists_conforms_of_nested {e c : Element} {typeName : String}
    (h : flowSchema.Conforms e typeName) (htype : typeName ∈ groupTypeNames)
    (hc : c ∈ e.children) (hname : c.name = "processGroup") :
    exists childType, childType ∈ groupTypeNames ∧ flowSchema.Conforms c childType := by
  rcases Schema.exists_declaration_of_mem_children h (isOpen_group typeName htype) hc with
    ⟨d, hd, hdname, hconforms⟩
  have hdeclared := group_declarations typeName htype d hd
  rw [hdname, if_pos hname] at hdeclared
  exact ⟨d.typeName, hdeclared, hconforms⟩

/-- What a group holds directly, other groups apart, holds no components itself
as far as its content is closed. -/
theorem isPart_of_mem_part {e c x : Element} {above up : List Element} {typeName : String}
    (h : flowSchema.Conforms e typeName) (htype : typeName ∈ groupTypeNames)
    (hc : c ∈ e.children) (hname : c.name ≠ "processGroup")
    (hmem : (x, up) ∈ c.children.flatMap (Element.lineages (c :: above)))
    (hlive : forall a, a ∈ up -> a.name ∉ openNames) :
    exists p rest, up = p :: rest ∧ isPart p.name x.name = true := by
  rcases Schema.exists_declaration_of_mem_children h (isOpen_group typeName htype) hc with
    ⟨d, hd, hdname, hconforms⟩
  have hdeclared := group_declarations typeName htype d hd
  rw [hdname, if_neg hname] at hdeclared
  exact Schema.may_of_mem_lineages covers_partRoles hconforms hdeclared hmem hlive

end FlowSchema
end FlowConfig
