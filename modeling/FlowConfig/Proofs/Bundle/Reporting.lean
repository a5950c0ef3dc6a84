import FlowConfig.Proofs.Bundle.Compatibility
import FlowConfig.Proofs.Bundle.TemplateScope
import Mathlib.Data.List.Forall2

/-!
# Reports of missing bundles

All missing bundles are reported in document order, one for each declaration of a
live component that the resolver refuses.  The check that stops early answers with
the first of them.
-/

namespace FlowConfig
namespace Document

variable (d : Document) (resolver : Resolver)

/-- The report is about the bundle declared at a place: its owner is no template
and lies in none, and the resolver refuses what the two declare. -/
structure Misses (bundle : Nat) (report : MissingBundle) : Prop where
  named : d.hasName bundleName bundle = true
  owned : d.parent? bundle = some report.component
  live : forall place, place ∈ report.component :: d.ancestors report.component ->
    d.hasName templateName place = false
  declared : exists owner declaration, d.element? report.component = some owner ∧
    d.element? bundle = some declaration ∧
      report.incompatibility.reference =
        { componentType := Text.trim ((owner.childText? "class").getD "")
          coordinate := {
            group := Text.trim ((declaration.childText? "group").getD "")
            artifact := Text.trim ((declaration.childText? "artifact").getD "")
            version := Text.trim ((declaration.childText? "version").getD "") } }
  refused : resolver report.incompatibility.reference.componentType
    report.incompatibility.reference.coordinate = .error report.incompatibility.reason

/-- The reports are those of all missing bundles, in the order of the places that
declare them, each place once. -/
def ReportsAll (reports : List MissingBundle) : Prop :=
  exists bundles : List Nat, bundles.Pairwise (· < ·) ∧
    (forall bundle, bundle ∈ bundles <-> exists report, d.Misses resolver bundle report) ∧
      List.Forall₂ (d.Misses resolver) bundles reports

/-!
# One declaration
-/

def missing? (bundle : Nat) : Option MissingBundle :=
  match d.parent? bundle with
  | none => none
  | some component =>
      if d.withinTemplate component then none
      else (d.incompatibility? resolver component bundle).map fun i => ⟨component, i⟩

theorem incompatibility?_eq_some_iff {component bundle : Nat} {i : Incompatibility} :
    d.incompatibility? resolver component bundle = some i <->
      exists owner declaration, d.element? component = some owner ∧
        d.element? bundle = some declaration ∧
          i.reference = BundleReference.ofElements owner declaration ∧
            resolver i.reference.componentType i.reference.coordinate = .error i.reason := by
  rw [incompatibility?]
  cases howner : d.element? component with
  | none => simp
  | some owner =>
      cases hdeclaration : d.element? bundle with
      | none => simp
      | some declaration =>
          obtain ⟨reference, reason⟩ := i
          cases hanswer : resolver (BundleReference.ofElements owner declaration).componentType
              (BundleReference.ofElements owner declaration).coordinate with
          | ok found => simp +contextual [hanswer]
          | error fault =>
              simp only [hanswer, Option.some.injEq, Incompatibility.mk.injEq,
                exists_eq_left', exists_and_left]
              constructor
              · rintro ⟨rfl, rfl⟩
                exact ⟨rfl, hanswer⟩
              · rintro ⟨rfl, hrefused⟩
                rw [hanswer] at hrefused
                exact ⟨rfl, Except.error.inj hrefused⟩

theorem missing?_eq_some_iff {bundle : Nat} (hnamed : d.hasName bundleName bundle = true)
    {report : MissingBundle} :
    d.missing? resolver bundle = some report <-> d.Misses resolver bundle report := by
  obtain ⟨component, i⟩ := report
  have hlive : d.withinTemplate component = false <->
      forall place, place ∈ component :: d.ancestors component ->
        d.hasName templateName place = false := by
    rw [withinTemplate, isWithin_eq_any_hasName, List.any_eq_false]
    simp only [Bool.not_eq_true]
  constructor
  · intro h
    rw [missing?] at h
    split at h
    · cases h
    · next owner howned =>
        split at h
        · cases h
        · next htemplate =>
            rcases Option.map_eq_some_iff.mp h with ⟨found, hfound, heq⟩
            cases heq
            rcases (d.incompatibility?_eq_some_iff resolver).mp hfound with
              ⟨e, b, he, hb, href, hrefused⟩
            exact ⟨hnamed, howned, hlive.mp (Bool.not_eq_true _ ▸ htemplate),
              ⟨e, b, he, hb, href⟩, hrefused⟩
  · rintro ⟨_, howned, hoff, ⟨e, b, he, hb, href⟩, hrefused⟩
    have hfound : d.incompatibility? resolver component bundle = some i :=
      (d.incompatibility?_eq_some_iff resolver).mpr ⟨e, b, he, hb, href, hrefused⟩
    rw [missing?, howned]
    simp only
    rw [hlive.mpr hoff, hfound]
    rfl

/-!
# All declarations
-/

theorem checkAll_eq_filterMap :
    d.checkAll resolver = (d.placesNamed bundleName).filterMap (d.missing? resolver) := by
  simp only [checkAll, getD_templateMarks]
  rfl

theorem placesNamed_pairwise (name : String) : (d.placesNamed name).Pairwise (· < ·) :=
  List.pairwise_lt_range.filter _

theorem hasName_of_mem_placesNamed {name : String} {place : Nat}
    (h : place ∈ d.placesNamed name) : d.hasName name place = true :=
  (List.mem_filter.mp h).right

theorem mem_placesNamed {name : String} {place : Nat} (h : d.hasName name place = true) :
    place ∈ d.placesNamed name := by
  refine List.mem_filter.mpr ⟨?_, h⟩
  rw [places, List.mem_range, size]
  apply Nat.lt_of_not_le
  intro hle
  rw [hasName, element?, Array.getElem?_eq_none hle] at h
  cases h

theorem forall₂_filterMap {A B : Type} {f : A -> Option B} {R : A -> B -> Prop} {as : List A}
    (h : forall a b, a ∈ as -> f a = some b -> R a b) :
    List.Forall₂ R (as.filter fun a => (f a).isSome) (as.filterMap f) := by
  induction as with
  | nil => exact .nil
  | cons a rest ih =>
      have hrest := ih fun other b hother => h other b (List.mem_cons_of_mem a hother)
      cases hfa : f a with
      | none => simpa [List.filter_cons, List.filterMap_cons, hfa] using hrest
      | some b =>
          have hhead := h a b List.mem_cons_self hfa
          simpa [List.filter_cons, List.filterMap_cons, hfa] using And.intro hhead hrest

theorem reportsAll_checkAll : d.ReportsAll resolver (d.checkAll resolver) := by
  refine ⟨(d.placesNamed bundleName).filter fun b => (d.missing? resolver b).isSome,
    (d.placesNamed_pairwise bundleName).filter _, ?_, ?_⟩
  · intro bundle
    rw [List.mem_filter, Option.isSome_iff_exists]
    constructor
    · rintro ⟨hmem, report, hreport⟩
      exact ⟨report,
        (d.missing?_eq_some_iff resolver (d.hasName_of_mem_placesNamed hmem)).mp hreport⟩
    · rintro ⟨report, hmisses⟩
      exact ⟨d.mem_placesNamed hmisses.named, report,
        (d.missing?_eq_some_iff resolver hmisses.named).mpr hmisses⟩
  · rw [checkAll_eq_filterMap]
    apply forall₂_filterMap
    intro bundle report hmem hreport
    exact (d.missing?_eq_some_iff resolver (d.hasName_of_mem_placesNamed hmem)).mp hreport

/-!
# Stopping early
-/

/-- What a check that stops early answers. -/
def firstOf : List Incompatibility -> Except Incompatibility Unit
  | [] => .ok ()
  | i :: _ => .error i

def faults : List Incompatibility :=
  (d.checkAll resolver).map MissingBundle.incompatibility

theorem checkFrom_eq_firstOf (bundles : List Nat) :
    d.checkFrom resolver bundles =
      firstOf ((bundles.filterMap (d.missing? resolver)).map MissingBundle.incompatibility) := by
  induction bundles with
  | nil => rfl
  | cons bundle rest ih =>
      rw [checkFrom, List.filterMap_cons, missing?, ih]
      cases d.parent? bundle with
      | none => rfl
      | some component =>
          cases htemplate : d.withinTemplate component with
          | true => simp [htemplate]
          | false =>
              cases hfault : d.incompatibility? resolver component bundle with
              | none => simp [htemplate, hfault]
              | some i => simp [htemplate, hfault, firstOf]

theorem check_eq_firstOf : d.check resolver = firstOf (d.faults resolver) := by
  rw [check, checkFrom_eq_firstOf, faults, checkAll_eq_filterMap]

/-!
# Reports by the tree

The same faults are found along the lineages of the tree, without any places.
-/

def faultOf? : Element × List Element -> Option Incompatibility
  | (_, []) => none
  | (b, owner :: above) =>
      if b.name = bundleName ∧ (forall a, a ∈ owner :: above -> a.name ≠ templateName) then
        let reference := BundleReference.ofElements owner b
        match resolver reference.componentType reference.coordinate with
        | .ok _ => none
        | .error reason => some ⟨reference, reason⟩
      else none

theorem fault_eq_faultOf? (place : Nat) :
    (if d.hasName bundleName place = true then
        (d.missing? resolver place).map MissingBundle.incompatibility
      else none) = (d.lineage? place).bind (faultOf? resolver) := by
  cases hlineage : d.lineage? place with
  | none =>
      have hnone : d.element? place = none := Option.map_eq_none_iff.mp hlineage
      rw [hasName, hnone]
      rfl
  | some lineage =>
      obtain ⟨b, above⟩ := lineage
      have hb := d.element?_of_lineage? hlineage
      have hname : d.hasName bundleName place = true <-> b.name = bundleName := by
        simp [hasName, hb]
      simp only [hname, Option.bind_some]
      cases above with
      | nil =>
          have hroot : d.parent? place = none := by
            cases hparent : d.parent? place with
            | none => rfl
            | some p =>
                rcases d.exists_lineage?_of_parent? hparent with ⟨_, _, _, hother, _⟩
                rw [hlineage] at hother
                cases hother
          rw [missing?, hroot, faultOf?]
          exact ite_self none
      | cons owner upper =>
          rcases d.exists_parent_of_lineage? hlineage with ⟨p, hparent, howner⟩
          have hlive := d.withinTemplate_eq_false_iff howner
          simp only [missing?, hparent, faultOf?, ← hlive, ite_and]
          cases d.withinTemplate p with
          | true => simp
          | false =>
              simp only [incompatibility?, d.element?_of_lineage? howner, hb, Bool.false_eq_true,
                if_false, if_true]
              cases resolver (BundleReference.ofElements owner b).componentType
                (BundleReference.ofElements owner b).coordinate with
              | ok found => rfl
              | error reason => rfl

theorem faults_eq_filterMap :
    d.faults resolver = (d.root.lineages []).filterMap (faultOf? resolver) := by
  have hplaces : (d.places.map d.lineage?).filterMap (fun l => l.bind (faultOf? resolver)) =
      ((d.root.lineages []).map some).filterMap (fun l => l.bind (faultOf? resolver)) := by
    rw [map_lineage?_places]
  rw [List.filterMap_map, List.filterMap_map] at hplaces
  rw [faults, checkAll_eq_filterMap, List.map_filterMap, placesNamed, List.filterMap_filter]
  refine Eq.trans ?_ hplaces
  exact List.filterMap_congr fun place _ => d.fault_eq_faultOf? resolver place

end Document
end FlowConfig
