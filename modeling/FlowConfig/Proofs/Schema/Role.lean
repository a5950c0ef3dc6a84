import FlowConfig.Proofs.Schema.Conformance

/-!
# Roles

The role of an element is its name together with the name of the type that
governs it.  A list of roles that is closed under the declarations of its types
covers everything that conforming elements of these roles hold, as far as the
schema looks into them.
-/

namespace FlowConfig

def Content.declarations : Content -> List ChildDeclaration
  | .elements declarations => declarations
  | _ => []

namespace Schema

/-- The declared children of the named type; none where the content is not
declared. -/
def declarationsOf (s : Schema) (typeName : String) : List ChildDeclaration :=
  match s.type? typeName with
  | some ⟨_, _, .elements declarations⟩ => declarations
  | _ => []

def isOpen (s : Schema) (typeName : String) : Bool :=
  match s.type? typeName with
  | some t => t.content = .any
  | none => false

variable {s : Schema} {e c : Element} {typeName : String}

/-!
# Children of closed content
-/

theorem childrenFit_nil (h : e.children = []) : e.ChildrenFit [] := by
  constructor
  · intro c hc
    rw [h] at hc
    cases hc
  · intro i d hd
    cases hd

theorem childrenFit_of_conforms (h : s.Conforms e typeName)
    (hclosed : s.isOpen typeName = false) : e.ChildrenFit (s.declarationsOf typeName) := by
  cases h with
  | intro htype hfits hchildren =>
      rename_i t
      rcases t with ⟨_, _, content⟩
      rw [isOpen, htype] at hclosed
      rw [declarationsOf, htype]
      cases content with
      | any => cases hclosed
      | empty => exact childrenFit_nil hfits.right.left
      | text kind => exact childrenFit_nil hfits.right.left
      | elements declarations => exact hfits.right.right

theorem find?_of_belongsTo {declarations : List ChildDeclaration} {i : Nat}
    {d : ChildDeclaration} (h : Element.BelongsTo declarations i c)
    (hd : declarations[i]? = some d) :
    declarations.find? (fun d => d.name == c.name) = some d := by
  rcases h with ⟨_, ⟨other, hother, hname⟩, hfirst⟩
  rw [hd] at hother
  cases hother
  rcases List.getElem?_eq_some_iff.mp hd with ⟨hlt, hget⟩
  refine List.find?_eq_some_iff_getElem.mpr ⟨beq_iff_eq.mpr hname, i, hlt, hget, ?_⟩
  intro j hj
  have hne := hfirst j _ hj (List.getElem?_eq_getElem (Nat.lt_trans hj hlt))
  rw [beq_eq_false_iff_ne.mpr hne]
  rfl

/-- A child of a conforming element with closed content conforms to the type of
the first declaration of its name. -/
theorem exists_find?_of_mem_children (h : s.Conforms e typeName)
    (hclosed : s.isOpen typeName = false) (hc : c ∈ e.children) :
    exists d, (s.declarationsOf typeName).find? (fun d => d.name == c.name) = some d ∧
      s.Conforms c d.typeName := by
  rcases (childrenFit_of_conforms h hclosed).declared c hc with ⟨i, hi⟩
  rcases Element.exists_getElem?_of_belongsTo hi with ⟨d, hd, _⟩
  refine ⟨d, find?_of_belongsTo hi hd, ?_⟩
  cases h with
  | intro htype hfits hchildren =>
      rename_i t
      rcases t with ⟨_, _, content⟩
      rw [declarationsOf, htype] at hi hd
      cases content with
      | any => cases hd
      | empty => cases hd
      | text kind => cases hd
      | elements declarations => exact hchildren declarations rfl c hc i d hi hd

theorem exists_declaration_of_mem_children (h : s.Conforms e typeName)
    (hclosed : s.isOpen typeName = false) (hc : c ∈ e.children) :
    exists d, d ∈ s.declarationsOf typeName ∧ d.name = c.name ∧ s.Conforms c d.typeName := by
  rcases exists_find?_of_mem_children h hclosed hc with ⟨d, hd, hconforms⟩
  have hname := List.find?_some hd
  exact ⟨d, List.mem_of_find?_eq_some hd, eq_of_beq hname, hconforms⟩

theorem exists_declaration_of_mem_governedChildren {t : ElementType} {childType : String}
    (htype : s.type? typeName = some t) (hc : (c, childType) ∈ e.governedChildren t) :
    exists d, d ∈ s.declarationsOf typeName ∧ d.name = c.name ∧ d.typeName = childType := by
  obtain ⟨name, attributes, content⟩ := t
  cases content with
  | any => cases hc
  | empty => cases hc
  | text kind => cases hc
  | elements declarations =>
      rcases Element.mem_typedBy_iff.mp hc with ⟨_, i, d, hi, hd, hchildType⟩
      rcases Element.exists_getElem?_of_belongsTo hi with ⟨other, hother, hname⟩
      rw [hd] at hother
      cases hother
      refine ⟨d, ?_, hname, hchildType⟩
      rw [declarationsOf, htype]
      exact List.mem_of_getElem? hd

theorem belongsTo_iff_name_eq {declarations : List ChildDeclaration} {i : Nat}
    {d : ChildDeclaration} (hfit : e.ChildrenFit declarations) (hc : c ∈ e.children)
    (hd : declarations[i]? = some d)
    (hfirst : forall j other, j < i -> declarations[j]? = some other -> other.name ≠ d.name) :
    Element.BelongsTo declarations i c <-> c.name = d.name := by
  constructor
  · intro h
    rcases Element.exists_getElem?_of_belongsTo h with ⟨other, hother, hname⟩
    rw [hd] at hother
    cases hother
    exact hname.symm
  · intro hname
    rcases hfit.declared c hc with ⟨_, hnone, _, _⟩
    refine ⟨hnone, ⟨d, hd, hname.symm⟩, ?_⟩
    rw [hname]
    exact hfirst

/-- A conforming element has as many children of a name as the first declaration
of the name allows. -/
theorem allows_length_childrenNamed {name : String} {d : ChildDeclaration}
    (h : s.Conforms e typeName) (hclosed : s.isOpen typeName = false)
    (hd : (s.declarationsOf typeName).find? (fun d => d.name == name) = some d) :
    d.Allows (e.childrenNamed name).length := by
  have hfit := childrenFit_of_conforms h hclosed
  rcases List.find?_eq_some_iff_getElem.mp hd with ⟨hname, i, hlt, hget, hbefore⟩
  have hname' : d.name = name := eq_of_beq hname
  have hindex : (s.declarationsOf typeName)[i]? = some d := by
    rw [List.getElem?_eq_getElem hlt, hget]
  have hfirst : forall j other, j < i -> (s.declarationsOf typeName)[j]? = some other ->
      other.name ≠ d.name := by
    intro j other hj hother
    rcases List.getElem?_eq_some_iff.mp hother with ⟨_, rfl⟩
    simpa [hname'] using hbefore j hj
  have hcount : Element.useCount (s.declarationsOf typeName) i e.children =
      (e.childrenNamed name).length := by
    rw [Element.useCount, Element.childrenNamed, ← List.countP_eq_length_filter]
    apply List.countP_congr
    intro c hc
    rw [decide_eq_true_iff, belongsTo_iff_name_eq hfit hc hindex hfirst, hname', beq_iff_eq]
  rw [← hcount]
  exact hfit.counted i d hindex

/-!
# Covering
-/

/-- The roles that the named types give to children. -/
def rolesIn (s : Schema) (typeNames : List String) : List (String × String) :=
  typeNames.flatMap fun typeName =>
    (s.declarationsOf typeName).map fun d => (d.name, d.typeName)

/-- A role is covered when its content is open and its name is one of the
`openNames`, or when it gives its children only roles of the list and names that
they may have under a parent of this name. -/
def coversRole (s : Schema) (openNames : List String) (may : String -> String -> Bool)
    (roles : List (String × String)) (role : String × String) : Bool :=
  if s.isOpen role.2 then openNames.contains role.1
  else (s.declarationsOf role.2).all fun d =>
    may role.1 d.name && roles.contains (d.name, d.typeName)

def covers (s : Schema) (openNames : List String) (may : String -> String -> Bool)
    (roles : List (String × String)) : Bool :=
  roles.all (s.coversRole openNames may roles)

variable {openNames : List String} {may : String -> String -> Bool}
  {roles : List (String × String)}

/-- One level down: a child of an element with a covered role has a covered
role itself. -/
theorem exists_role_of_mem_children (hcovers : s.covers openNames may roles = true)
    (h : s.Conforms e typeName) (hrole : (e.name, typeName) ∈ roles)
    (hclosed : e.name ∉ openNames) (hc : c ∈ e.children) :
    may e.name c.name = true ∧
      exists childType, (c.name, childType) ∈ roles ∧ s.Conforms c childType := by
  have hone := List.all_eq_true.mp hcovers _ hrole
  rw [coversRole] at hone
  split at hone
  · exact absurd (List.contains_iff_mem.mp hone) hclosed
  · next hcontent =>
      rcases exists_declaration_of_mem_children h (Bool.eq_false_iff.mpr hcontent) hc with
        ⟨d, hd, hname, hconforms⟩
      have hboth := List.all_eq_true.mp hone d hd
      rw [Bool.and_eq_true, hname] at hboth
      exact ⟨hboth.left, d.typeName, List.contains_iff_mem.mp hboth.right, hconforms⟩

/-- All the way down: whatever stands inside an element with a covered role, and
not inside open content, has a name that it may have under its parent. -/
theorem may_of_mem_lineages {x : Element} {above up : List Element}
    (hcovers : s.covers openNames may roles = true)
    (h : s.Conforms e typeName) (hrole : (e.name, typeName) ∈ roles)
    (hmem : (x, up) ∈ e.children.flatMap (Element.lineages (e :: above)))
    (hlive : forall a, a ∈ up -> a.name ∉ openNames) :
    exists p rest, up = p :: rest ∧ may p.name x.name = true := by
  induction e using Element.treeInduction generalizing typeName above with
  | step e ih =>
      rcases List.mem_flatMap.mp hmem with ⟨c, hc, hinside⟩
      have hclosed : e.name ∉ openNames := by
        apply hlive
        exact (Element.suffix_of_mem_lineages hinside).subset List.mem_cons_self
      rcases exists_role_of_mem_children hcovers h hrole hclosed hc with
        ⟨hmay, childType, hchild, hconforms⟩
      rw [Element.lineages_eq] at hinside
      rcases List.mem_cons.mp hinside with heq | hdeeper
      · cases heq
        exact ⟨e, above, rfl, hmay⟩
      · exact ih c hc hconforms hchild hdeeper

end Schema
end FlowConfig
