import FlowConfig.Proofs.Schema.Role

/-!
# Declared fields

A field of an element is a child or an attribute with a name of its own.  Where
the type of a conforming element declares the field, the declaration says how
often it is there and what its value can be.
-/

namespace FlowConfig

/-- The first declaration of its name among the children of the named type. -/
def Schema.Declares (s : Schema) (typeName : String) (d : ChildDeclaration) : Prop :=
  (s.declarationsOf typeName).find? (fun other => other.name == d.name) = some d

instance (s : Schema) (typeName : String) (d : ChildDeclaration) :
    Decidable (s.Declares typeName d) :=
  inferInstanceAs (Decidable (_ = _))

namespace Schema

variable {s : Schema} {e c : Element} {typeName name childType : String}
  {d : ChildDeclaration}

/-!
# Children
-/

theorem isOpen_of_declares (hd : s.Declares typeName d) : s.isOpen typeName = false := by
  have hmem : d ∈ s.declarationsOf typeName := List.mem_of_find?_eq_some hd
  rw [declarationsOf] at hmem
  split at hmem
  · next htype =>
      rw [isOpen, htype]
      rfl
  · cases hmem

theorem conforms_of_mem_childrenNamed (h : s.Conforms e typeName)
    (hd : s.Declares typeName d) (hc : c ∈ e.childrenNamed d.name) :
    s.Conforms c d.typeName := by
  rcases List.mem_filter.mp hc with ⟨hchild, hname⟩
  rcases exists_find?_of_mem_children h (isOpen_of_declares hd) hchild with
    ⟨other, hother, hconforms⟩
  rw [eq_of_beq hname, hd] at hother
  cases hother
  exact hconforms

open ChildDeclaration in
theorem exists_childrenNamed_eq_singleton (h : s.Conforms e typeName)
    (hd : s.Declares typeName (one name childType)) :
    exists c, e.childrenNamed name = [c] ∧ s.Conforms c childType := by
  have hallows := allows_length_childrenNamed h (isOpen_of_declares hd) hd
  have hone : (e.childrenNamed name).length = 1 :=
    Nat.le_antisymm (hallows.right 1 rfl) hallows.left
  rcases List.length_eq_one_iff.mp hone with ⟨c, hc⟩
  refine ⟨c, hc, conforms_of_mem_childrenNamed h hd ?_⟩
  exact hc ▸ List.mem_singleton_self c

open ChildDeclaration in
theorem childrenNamed_eq_nil_or_singleton (h : s.Conforms e typeName)
    (hd : s.Declares typeName (atMostOne name childType)) :
    e.childrenNamed name = [] ∨
      exists c, e.childrenNamed name = [c] ∧ s.Conforms c childType := by
  have hallows := allows_length_childrenNamed h (isOpen_of_declares hd) hd
  have hmost : (e.childrenNamed name).length ≤ 1 := hallows.right 1 rfl
  cases hchildren : e.childrenNamed name with
  | nil => exact Or.inl rfl
  | cons c rest =>
      rw [hchildren, List.length_cons] at hmost
      cases List.eq_nil_of_length_eq_zero (Nat.le_zero.mp (Nat.le_of_succ_le_succ hmost))
      refine Or.inr ⟨c, rfl, conforms_of_mem_childrenNamed h hd ?_⟩
      exact hchildren ▸ List.mem_singleton_self c

/-!
# Values
-/

variable {t : ElementType} {kind : SimpleType} {a : AttributeDeclaration}

theorem fits_of_conforms (h : s.Conforms e typeName)
    (htype : s.type? typeName = some t) : e.Fits t := by
  rcases conforms_iff.mp h with ⟨other, hother, hfits, _⟩
  rw [htype] at hother
  cases hother
  exact hfits

theorem accepts_text_of_conforms (h : s.Conforms e typeName)
    (htype : s.type? typeName = some t) (hcontent : t.content = .text kind) :
    kind.accepts e.text = true := by
  have hfits := fits_of_conforms h htype
  rw [Element.Fits, hcontent] at hfits
  exact hfits.right.right

/-- A required attribute is there, and what is read of it is of the declared
kind. -/
theorem exists_attribute_of_conforms (h : s.Conforms e typeName)
    (htype : s.type? typeName = some t) (hclosed : t.content ≠ .any)
    (hrequired : a.required = true)
    (ha : t.attributes.find? (fun other => other.name == a.name) = some a) :
    exists value, e.attribute? a.name = some value ∧ a.kind.accepts value = true := by
  have hfit := Element.attributesFit_of_fits (fits_of_conforms h htype) hclosed
  have hpresent := hfit.required a (List.mem_of_find?_eq_some ha) hrequired
  rw [← Element.isSome_attribute?_iff] at hpresent
  rcases Option.isSome_iff_exists.mp hpresent with ⟨value, hvalue⟩
  refine ⟨value, hvalue, ?_⟩
  rcases List.lookup_eq_some_iff.mp hvalue with ⟨before, after, heq, _⟩
  have hmem : (a.name, value) ∈ e.attributes := by
    rw [heq]
    exact List.mem_append_right before List.mem_cons_self
  rcases hfit.declared a.name value hmem with ⟨other, hother, haccepts⟩
  rw [ha] at hother
  cases hother
  exact haccepts

end Schema
end FlowConfig
