import FlowConfig.Proofs.Schema.Acceptance
import Mathlib.Data.List.Flatten

/-!
# Typing a document

The declarations of a type give names of types to the children of an element, and
so on down the tree, whether or not the elements are as their types ask and
whether or not all these types are defined.  Each element reached in this way is
in violation or not by itself.
-/

namespace FlowConfig
namespace Schema

variable {s : Schema} {e : Element} {typeName : String}

/-- The children that the named type governs, with the names of their types; none
if the type is not defined. -/
def assignedChildren (s : Schema) (e : Element) (typeName : String) :
    List (Element × String) :=
  match s.type? typeName with
  | some t => e.governedChildren t
  | none => []

theorem assignedChildren_eq {t : ElementType} (e : Element) (h : s.type? typeName = some t) :
    s.assignedChildren e typeName = e.governedChildren t := by
  rw [assignedChildren, h]

theorem map_fst_assignedChildren_sublist (s : Schema) (e : Element) (typeName : String) :
    List.Sublist ((s.assignedChildren e typeName).map Prod.fst) e.children := by
  rw [assignedChildren]
  split
  · next t _ => exact map_fst_governedChildren_sublist e t
  · exact List.nil_sublist e.children

theorem mem_children_of_mem_assignedChildren {entry : Element × String}
    (h : entry ∈ s.assignedChildren e typeName) : entry.1 ∈ e.children :=
  (s.map_fst_assignedChildren_sublist e typeName).subset (List.mem_map_of_mem h)

/-- The elements reached by typing children from a typed element on, each with the
name of its type, in document order. -/
def typings (s : Schema) (e : Element) (typeName : String) : List (Element × String) :=
  (e, typeName) :: (s.assignedChildren e typeName).attach.flatMap fun ⟨entry, _hmem⟩ =>
    s.typings entry.1 entry.2
termination_by e.size
decreasing_by
  exact Element.size_lt_of_mem_children (mem_children_of_mem_assignedChildren _hmem)

def typingsIn (s : Schema) (typed : List (Element × String)) : List (Element × String) :=
  typed.flatMap fun entry => s.typings entry.1 entry.2

theorem typings_eq (s : Schema) (e : Element) (typeName : String) :
    s.typings e typeName = (e, typeName) :: s.typingsIn (s.assignedChildren e typeName) := by
  rw [typings, List.flatMap_subtype fun _ _ => rfl, List.unattach_attach]
  rfl

theorem typingsIn_cons (s : Schema) (e : Element) (typeName : String)
    (rest : List (Element × String)) :
    s.typingsIn ((e, typeName) :: rest) =
      (e, typeName) :: (s.typingsIn (s.assignedChildren e typeName) ++ s.typingsIn rest) := by
  rw [typingsIn, List.flatMap_cons, typings_eq]
  rfl

theorem typingsIn_append (s : Schema) (typed rest : List (Element × String)) :
    s.typingsIn (typed ++ rest) = s.typingsIn typed ++ s.typingsIn rest :=
  List.flatMap_append

theorem map_fst_typings_sublist (s : Schema) (e : Element) (typeName : String) :
    List.Sublist ((s.typings e typeName).map Prod.fst) e.elements := by
  induction e using Element.treeInduction generalizing typeName with
  | step e ih =>
      rw [typings_eq, Element.elements_eq, List.map_cons, typingsIn, List.map_flatMap]
      apply List.Sublist.cons_cons
      have hentries : List.Sublist
          ((s.assignedChildren e typeName).flatMap fun entry =>
            (s.typings entry.1 entry.2).map Prod.fst)
          ((s.assignedChildren e typeName).flatMap fun entry => entry.1.elements) := by
        apply List.Sublist.flatMap_right
        intro entry hentry
        exact ih entry.1 (mem_children_of_mem_assignedChildren hentry) entry.2
      rw [← List.flatMap_map Prod.fst Element.elements] at hentries
      exact hentries.trans ((s.map_fst_assignedChildren_sublist e typeName).flatMap _)

/-!
# Violations of single elements
-/

def Suits (s : Schema) (e : Element) (typeName : String) : Prop :=
  exists t, s.type? typeName = some t ∧ e.Fits t

/-- The violation that is found at an element by itself: its type is not defined,
or the element fails the check of its type. -/
inductive Fault (s : Schema) (e : Element) (typeName : String) : Violation -> Prop where
  | undefined : s.type? typeName = none -> Fault s e typeName (.unknownType typeName)
  | unfit {t : ElementType} {v : Violation} :
      s.type? typeName = some t -> e.check t = .error v -> Fault s e typeName v

theorem not_suits_of_undefined (h : s.type? typeName = none) : ¬ s.Suits e typeName := by
  rintro ⟨t, ht, _⟩
  rw [h] at ht
  cases ht

theorem exists_fault_iff : (exists v, s.Fault e typeName v) <-> ¬ s.Suits e typeName := by
  constructor
  · rintro ⟨v, hfault⟩
    cases hfault with
    | undefined hnone => exact not_suits_of_undefined hnone
    | unfit htype hcheck =>
        rintro ⟨t, ht, hfits⟩
        rw [htype] at ht
        cases ht
        exact Element.not_fits_of_check_eq_error hcheck hfits
  · intro hnot
    cases htype : s.type? typeName with
    | none => exact ⟨_, Fault.undefined htype⟩
    | some t =>
        cases hcheck : e.check t with
        | error v => exact ⟨v, Fault.unfit htype hcheck⟩
        | ok typed =>
            exact absurd ⟨t, htype, (Element.check_eq_ok_iff.mp hcheck).left⟩ hnot

theorem fault_unique {v w : Violation} (hv : s.Fault e typeName v)
    (hw : s.Fault e typeName w) : v = w := by
  cases hv with
  | undefined hnone =>
      cases hw with
      | undefined _ => rfl
      | unfit htype _ =>
          rw [hnone] at htype
          cases htype
  | unfit htype hcheck =>
      cases hw with
      | undefined hnone =>
          rw [hnone] at htype
          cases htype
      | unfit hother hcheck' =>
          rw [htype] at hother
          cases hother
          rw [hcheck] at hcheck'
          exact Except.error.inj hcheck'

def Closed (s : Schema) : Prop :=
  forall typeName t, s.type? typeName = some t ->
    forall declarations, t.content = .elements declarations ->
      forall d, d ∈ declarations -> exists u, s.type? d.typeName = some u

theorem defined_of_mem_assignedChildren {c : Element} {childType : String} (h : s.Closed)
    (hc : (c, childType) ∈ s.assignedChildren e typeName) :
    exists t, s.type? childType = some t := by
  rw [assignedChildren] at hc
  split at hc
  · next t htype =>
      rw [Element.governedChildren] at hc
      split at hc
      · next declarations hcontent =>
          rcases Element.mem_typedBy_iff.mp hc with ⟨_, i, d, _, hd, rfl⟩
          exact h typeName t htype declarations hcontent d (List.mem_of_getElem? hd)
      · cases hc
  · cases hc

/-- So every type that is given to an element is defined, if that of the first is. -/
theorem exists_type_of_mem_typings {x : Element} {n : String} (h : s.Closed)
    (htype : exists t, s.type? typeName = some t) (hx : (x, n) ∈ s.typings e typeName) :
    exists t, s.type? n = some t := by
  induction e using Element.treeInduction generalizing typeName with
  | step e ih =>
      rw [typings_eq] at hx
      rcases List.mem_cons.mp hx with heq | hinside
      · cases heq
        exact htype
      · rcases List.mem_flatMap.mp hinside with ⟨⟨c, childType⟩, hc, hx⟩
        exact ih c (mem_children_of_mem_assignedChildren hc)
          (defined_of_mem_assignedChildren h hc) hx

/-!
# The first violation
-/

/-- The element with the violation found at it, no element listed before it being
in violation by itself. -/
def FirstFault (s : Schema) (typed : List (Element × String)) (e : Element) (v : Violation) :
    Prop :=
  exists before typeName after, typed = before ++ (e, typeName) :: after ∧
    s.Fault e typeName v ∧ forall x n, (x, n) ∈ before -> s.Suits x n

theorem eq_nil_of_firstFault {x y : Element × String}
    {before after between rest : List (Element × String)} {v : Violation}
    (hfault : s.Fault x.1 x.2 v)
    (hbefore : forall z n, (z, n) ∈ before ++ between -> s.Suits z n)
    (h : x :: after = between ++ y :: rest) : between = [] := by
  cases between with
  | nil => rfl
  | cons first others =>
      have hfirst : x = first := (List.cons_eq_cons.mp h).left
      have hsuits : s.Suits first.1 first.2 :=
        hbefore first.1 first.2 (List.mem_append_right before List.mem_cons_self)
      rw [hfirst] at hfault
      exact absurd hsuits (exists_fault_iff.mp ⟨v, hfault⟩)

theorem firstFault_unique {typed : List (Element × String)} {d : Element} {v w : Violation}
    (hv : s.FirstFault typed e v) (hw : s.FirstFault typed d w) : e = d ∧ v = w := by
  rcases hv with ⟨before, n, after, htyped, hfault, hbefore⟩
  rcases hw with ⟨before', n', after', htyped', hfault', hbefore'⟩
  have hsame : (e, n) = (d, n') := by
    rw [htyped] at htyped'
    rcases List.append_eq_append_iff.mp htyped' with
      ⟨between, rfl, hrest⟩ | ⟨between, rfl, hrest⟩
    · have hnil := eq_nil_of_firstFault hfault hbefore' hrest
      rw [hnil] at hrest
      exact (List.cons_eq_cons.mp hrest).left
    · have hnil := eq_nil_of_firstFault hfault' hbefore hrest
      rw [hnil] at hrest
      exact (List.cons_eq_cons.mp hrest).left.symm
  cases hsame
  exact ⟨rfl, fault_unique hfault hfault'⟩

/-- The first violation of a document: at the root, if its name or its namespace is
another one than the schema asks for, and else at the first element in document
order that is in violation by itself. -/
inductive FirstViolation (s : Schema) (root : Element) : Element -> Violation -> Prop where
  | unexpectedRoot :
      ¬ (root.name = s.rootName ∧ root.uri = none) ->
      FirstViolation s root root (.unexpectedRoot root.qualifiedName)
  | inside {e : Element} {v : Violation} :
      root.name = s.rootName -> root.uri = none ->
      s.FirstFault (s.typings root s.rootType) e v -> FirstViolation s root e v

end Schema
end FlowConfig
