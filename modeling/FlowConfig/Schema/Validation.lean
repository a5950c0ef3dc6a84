import FlowConfig.Element
import FlowConfig.Schema.Basic
import FlowConfig.Text.Blank

/-!
# Validation

An element is checked against its type; its children are then checked against
the types that their declarations name.  The first violation met is reported
together with the element at fault.
-/

namespace FlowConfig

inductive Violation where
  | unexpectedRoot (found : String)
  | undeclaredElement (parent name : String)
  | missingElement (parent name : String) (min : Nat)
  | tooManyElements (parent name : String) (max : Nat)
  | undeclaredAttribute (element name : String)
  | missingAttribute (element name : String)
  | invalidAttribute (element name : String) (kind : SimpleType) (value : String)
  | unexpectedText (element : String)
  | invalidText (element : String) (kind : SimpleType) (value : String)
  | unknownType (name : String)
deriving DecidableEq, Repr

def Violation.message : Violation -> String
  | .unexpectedRoot found => s!"Cannot find the declaration of element '{found}'"
  | .undeclaredElement parent name => s!"Element '{name}' is not allowed in '{parent}'"
  | .missingElement parent name min => s!"Element '{parent}' requires at least {min} '{name}'"
  | .tooManyElements parent name max => s!"Element '{parent}' allows at most {max} '{name}'"
  | .undeclaredAttribute element name => s!"Attribute '{name}' is not allowed on '{element}'"
  | .missingAttribute element name => s!"Attribute '{name}' is required on '{element}'"
  | .invalidAttribute element name kind value =>
      s!"Value '{value}' of attribute '{name}' on '{element}' is not a valid {kind.display}"
  | .unexpectedText element => s!"Element '{element}' must not contain character data"
  | .invalidText element kind value =>
      s!"Value '{value}' of element '{element}' is not a valid {kind.display}"
  | .unknownType name => s!"Schema type '{name}' is not defined"

namespace Element

/-!
# Attributes
-/

def checkDeclared (e : Element) (declarations : List AttributeDeclaration) :
    List (String × String) -> Except Violation Unit
  | [] => .ok ()
  | (name, value) :: rest =>
      match declarations.find? fun d => d.name == name with
      | none => .error (.undeclaredAttribute e.name name)
      | some d =>
          if d.kind.accepts value then e.checkDeclared declarations rest
          else .error (.invalidAttribute e.name name d.kind value)

def checkRequired (e : Element) : List AttributeDeclaration -> Except Violation Unit
  | [] => .ok ()
  | d :: rest =>
      if d.required && (e.attribute? d.name).isNone then .error (.missingAttribute e.name d.name)
      else e.checkRequired rest

def checkAttributes (e : Element) (declarations : List AttributeDeclaration) :
    Except Violation Unit :=
  match e.checkDeclared declarations e.attributes with
  | .ok () => e.checkRequired declarations
  | .error v => .error v

/-!
# Content
-/

def hasBlankText (e : Element) : Bool :=
  Text.allBlank e.text

def checkNoChildren (e : Element) : Except Violation Unit :=
  match e.children with
  | [] => .ok ()
  | c :: _ => .error (.undeclaredElement e.name c.qualifiedName)

def declarationIndex? (declarations : List ChildDeclaration) (c : Element) : Option Nat :=
  match c.uri with
  | some _ => none
  | none => declarations.findIdx? fun d => d.name == c.name

/-- The children of an element, each with the type name of its declaration, and
how often each declaration was used. -/
structure Assignment where
  typed : List (Element × String)
  counts : List Nat

def exceeds (count : Nat) (max : Option Nat) : Bool :=
  match max with
  | some max => max < count
  | none => false

/-- Assigns further children, after those in `typed`, which are latest first. -/
def assignFrom (e : Element) (declarations : List ChildDeclaration)
    (typed : List (Element × String)) (counts : List Nat) :
    List Element -> Except Violation Assignment
  | [] => .ok ⟨typed.reverse, counts⟩
  | c :: rest =>
      match declarationIndex? declarations c with
      | none => .error (.undeclaredElement e.name c.qualifiedName)
      | some i =>
          match declarations[i]? with
          | none => .error (.undeclaredElement e.name c.qualifiedName)
          | some d =>
              let count := counts[i]?.getD 0 + 1
              if exceeds count d.max then
                .error (.tooManyElements e.name d.name (d.max.getD 0))
              else e.assignFrom declarations ((c, d.typeName) :: typed) (counts.set i count) rest

def checkCounts (e : Element) : List (ChildDeclaration × Nat) -> Except Violation Unit
  | [] => .ok ()
  | (d, count) :: rest =>
      if count < d.min then .error (.missingElement e.name d.name d.min)
      else e.checkCounts rest

def checkChildren (e : Element) (declarations : List ChildDeclaration) :
    Except Violation (List (Element × String)) :=
  match e.assignFrom declarations [] (declarations.map fun _ => 0) e.children with
  | .error v => .error v
  | .ok assignment =>
      match e.checkCounts (declarations.zip assignment.counts) with
      | .ok () => .ok assignment.typed
      | .error v => .error v

def checkContent (e : Element) : Content -> Except Violation (List (Element × String))
  | .any => .ok []
  | .empty =>
      match e.checkNoChildren with
      | .error v => .error v
      | .ok () => if e.hasBlankText then .ok [] else .error (.unexpectedText e.name)
  | .text kind =>
      match e.checkNoChildren with
      | .error v => .error v
      | .ok () =>
          if kind.accepts e.text then .ok [] else .error (.invalidText e.name kind e.text)
  | .elements declarations =>
      if e.hasBlankText then e.checkChildren declarations
      else .error (.unexpectedText e.name)

/-- Checks one element; the children still to be checked come with the names of
their types. -/
def check (e : Element) (t : ElementType) : Except Violation (List (Element × String)) :=
  if t.content = .any then .ok []
  else
    match e.checkAttributes t.attributes with
    | .ok () => e.checkContent t.content
    | .error v => .error v

/-!
# What a check leaves to do

A check that succeeds hands on the children of the element or nothing, so
validation always has fewer elements left.
-/

theorem map_fst_of_assignFrom {e : Element} {declarations : List ChildDeclaration}
    {typed : List (Element × String)} {counts : List Nat} {children : List Element}
    {assignment : Assignment}
    (h : e.assignFrom declarations typed counts children = .ok assignment) :
    assignment.typed.map Prod.fst = typed.reverse.map Prod.fst ++ children := by
  induction children generalizing typed counts with
  | nil =>
      simp only [assignFrom, Except.ok.injEq] at h
      simp [← h]
  | cons c rest ih =>
      simp only [assignFrom] at h
      split at h
      · cases h
      · split at h
        · cases h
        · split at h
          · cases h
          · simpa using ih h

theorem map_fst_of_checkChildren {e : Element} {declarations : List ChildDeclaration}
    {typed : List (Element × String)} (h : e.checkChildren declarations = .ok typed) :
    typed.map Prod.fst = e.children := by
  simp only [checkChildren] at h
  split at h
  · cases h
  · next assignment hassign =>
      split at h
      · cases h
        simpa using map_fst_of_assignFrom hassign
      · cases h

theorem map_fst_of_check {e : Element} {t : ElementType} {typed : List (Element × String)}
    (h : e.check t = .ok typed) :
    typed = [] ∨ typed.map Prod.fst = e.children := by
  simp only [check] at h
  split at h
  · cases h
    exact Or.inl rfl
  · split at h
    · cases hcontent : t.content with
      | any =>
          simp only [hcontent, checkContent, Except.ok.injEq] at h
          exact Or.inl h.symm
      | empty =>
          simp only [hcontent, checkContent] at h
          split at h
          · cases h
          · split at h
            · cases h
              exact Or.inl rfl
            · cases h
      | text kind =>
          simp only [hcontent, checkContent] at h
          split at h
          · cases h
          · split at h
            · cases h
              exact Or.inl rfl
            · cases h
      | elements declarations =>
          simp only [hcontent, checkContent] at h
          split at h
          · exact Or.inr (map_fst_of_checkChildren h)
          · cases h
    · cases h

theorem totalSize_lt_of_check {e : Element} {t : ElementType}
    {typed : List (Element × String)} (h : e.check t = .ok typed) :
    totalSize (typed.map Prod.fst) < e.size := by
  rw [size_eq]
  rcases map_fst_of_check h with hnil | hchildren
  · simp [hnil]
  · rw [hchildren]
    omega

end Element

/-!
# Whole documents
-/

namespace Schema

/-- Looks up the types of elements, the last one first; `resolved` holds those
behind them. -/
def resolveFrom (s : Schema) (resolved : List (Element × ElementType)) :
    List (Element × String) -> Except (Element × Violation) (List (Element × ElementType))
  | [] => .ok resolved
  | (e, typeName) :: before =>
      match s.type? typeName with
      | none => .error (e, .unknownType typeName)
      | some t => s.resolveFrom ((e, t) :: resolved) before

def resolveTypes (s : Schema) (typed : List (Element × String)) :
    Except (Element × Violation) (List (Element × ElementType)) :=
  s.resolveFrom [] typed.reverse

theorem map_fst_of_resolveFrom {s : Schema} {resolved tasks : List (Element × ElementType)}
    {typed : List (Element × String)} (h : s.resolveFrom resolved typed = .ok tasks) :
    tasks.map Prod.fst = typed.reverse.map Prod.fst ++ resolved.map Prod.fst := by
  induction typed generalizing resolved with
  | nil =>
      simp only [resolveFrom, Except.ok.injEq] at h
      simp [← h]
  | cons head rest ih =>
      simp only [resolveFrom] at h
      split at h
      · cases h
      · simpa using ih h

theorem map_fst_of_resolveTypes {s : Schema} {tasks : List (Element × ElementType)}
    {typed : List (Element × String)} (h : s.resolveTypes typed = .ok tasks) :
    tasks.map Prod.fst = typed.map Prod.fst := by
  simpa [resolveTypes] using map_fst_of_resolveFrom h

/-- Checks the pending elements and all inside them, each against its type. -/
def validateFrom (s : Schema) (pending : List (Element × ElementType)) :
    Except (Element × Violation) Unit :=
  match pending with
  | [] => .ok ()
  | (e, t) :: rest =>
      match _hcheck : e.check t with
      | .error v => .error (e, v)
      | .ok typed =>
          match _hresolve : s.resolveTypes typed with
          | .error fault => .error fault
          | .ok tasks => s.validateFrom (tasks ++ rest)
termination_by Element.totalSize (pending.map Prod.fst)
decreasing_by
  simp only [List.map_append, List.map_cons, Element.totalSize_append, Element.totalSize_cons,
    map_fst_of_resolveTypes _hresolve]
  have hlt := Element.totalSize_lt_of_check _hcheck
  omega

def validate (s : Schema) (root : Element) : Except (Element × Violation) Unit :=
  if root.name = s.rootName ∧ root.uri = none then
    match s.type? s.rootType with
    | none => .error (root, .unknownType s.rootType)
    | some t => s.validateFrom [(root, t)]
  else .error (root, .unexpectedRoot root.qualifiedName)

end Schema
end FlowConfig
