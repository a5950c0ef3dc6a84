import FlowConfig.Proofs.Bundle.Reporting
import FlowConfig.Proofs.Document.Places

/-!
# The places of templates

The scope of templates is seen in three ways: as what one pass over the table marks, as
the elements from which the way up leads to a template, and as the ranges of places that
the templates and all inside them take up.  Ranges may lie in one another; the scope is
their union.
-/

namespace FlowConfig
namespace Document

variable (d : Document)

def placesFrom (place : Nat) : List Nat :=
  place :: d.descendantPlaces place

theorem placesFrom_eq_range' (place : Nat) :
    d.placesFrom place = List.range' place ((d.descendantPlaces place).length + 1) := by
  rcases exists_range' (d := d) place with ⟨count, hrange⟩
  rw [placesFrom, hrange, List.length_range', List.range'_succ]

theorem mem_placesFrom_iff {a place : Nat} :
    place ∈ d.placesFrom a <-> a ∈ place :: d.ancestors place := by
  rw [placesFrom, List.mem_cons, List.mem_cons, mem_ancestors_iff, eq_comm]

theorem placesFrom_subset {a place : Nat} (h : a ∈ d.placesFrom place) :
    d.descendantPlaces a ⊆ d.placesFrom place := by
  intro e he
  rcases List.mem_cons.mp h with heq | hinside
  · rw [heq] at he
    exact List.mem_cons_of_mem place he
  · rw [mem_descendantPlaces_iff] at he hinside
    exact List.mem_cons_of_mem place (mem_descendantPlaces_iff.mpr (hinside.trans he))

theorem mem_templateScope_iff {place : Nat} :
    place ∈ d.templateScope <-> d.withinTemplate place = true := by
  rw [templateScope]
  simp only [List.mem_filter, getD_templateMarks, places, List.mem_range, and_iff_right_iff_imp]
  intro hwithin
  apply Nat.lt_of_not_le
  intro hle
  rw [withinTemplate, d.isWithin_eq_false_of_no_entry _ (Array.getElem?_eq_none hle)] at hwithin
  cases hwithin

theorem mem_placesNamed_iff {name : String} {place : Nat} :
    place ∈ d.placesNamed name <-> d.hasName name place = true :=
  ⟨d.hasName_of_mem_placesNamed, d.mem_placesNamed⟩

theorem withinTemplate_iff {place : Nat} :
    d.withinTemplate place = true <->
      exists t, t ∈ d.placesNamed templateName ∧ place ∈ d.placesFrom t := by
  rw [withinTemplate, isWithin_eq_any_hasName, List.any_eq_true]
  simp only [mem_placesNamed_iff, mem_placesFrom_iff, and_comm]

/-- The marks of the pass from the top, the way up and the ranges of places give one
scope: it has the places from which the way up leads to a template, and is the union over
all templates of the places that they and all inside them take up, one after the other.
So all inside an element of the scope is in the scope, however templates are nested. -/
theorem templateScope_is_union_of_ranges :
    (forall place, place ∈ d.templateScope <-> d.withinTemplate place = true) ∧
    (forall place, place ∈ d.templateScope <->
      exists t, t ∈ d.placesNamed templateName ∧ place ∈ d.placesFrom t) ∧
    (forall t, d.placesFrom t = List.range' t ((d.descendantPlaces t).length + 1)) ∧
    forall a e, a ∈ d.templateScope -> e ∈ d.descendantPlaces a -> e ∈ d.templateScope := by
  have hunion : forall place, place ∈ d.templateScope <->
      exists t, t ∈ d.placesNamed templateName ∧ place ∈ d.placesFrom t := by
    intro place
    rw [mem_templateScope_iff, withinTemplate_iff]
  refine ⟨fun _ => d.mem_templateScope_iff, hunion, d.placesFrom_eq_range', ?_⟩
  intro a e ha he
  rcases (hunion a).mp ha with ⟨t, ht, hrange⟩
  exact (hunion e).mpr ⟨t, ht, d.placesFrom_subset hrange he⟩

end Document
end FlowConfig
