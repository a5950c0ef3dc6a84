import FlowConfig.Bundle.Compatibility
import FlowConfig.Proofs.Document.Table

/-!
# What the bundle check approves

The check walks over a flat list of places and asks the way up from each.  It
succeeds exactly when every bundle declared outside of templates resolves, said
of the tree.
-/

namespace FlowConfig

/-- The resolver knows the component type in the bundle. -/
def BundleReference.Resolves (r : BundleReference) (resolver : Resolver) : Prop :=
  exists b, resolver r.componentType r.coordinate = .ok b

namespace Document

variable (d : Document) (resolver : Resolver)

theorem checkFrom_eq_ok_iff (bundles : List Nat) :
    d.checkFrom resolver bundles = .ok () <->
      forall bundle, bundle ∈ bundles -> forall component, d.parent? bundle = some component ->
        d.withinTemplate component = false ->
          d.incompatibility? resolver component bundle = none := by
  induction bundles with
  | nil => simp [checkFrom]
  | cons bundle rest ih =>
      rw [checkFrom, List.forall_mem_cons, ← ih]
      cases hparent : d.parent? bundle with
      | none => simp
      | some component =>
          cases htemplate : d.withinTemplate component with
          | true => simp [htemplate]
          | false =>
              cases hfault : d.incompatibility? resolver component bundle with
              | none => simp [htemplate, hfault]
              | some i => simp [htemplate, hfault]

theorem incompatibility?_eq_none_iff {component bundle : Nat} {c b : Element}
    (hc : d.element? component = some c) (hb : d.element? bundle = some b) :
    d.incompatibility? resolver component bundle = none <->
      (BundleReference.ofElements c b).Resolves resolver := by
  rw [incompatibility?, hc, hb, BundleReference.Resolves]
  cases hanswer : resolver (BundleReference.ofElements c b).componentType
      (BundleReference.ofElements c b).coordinate with
  | ok found => simp [hanswer]
  | error reason => simp [hanswer]

theorem withinTemplate_eq_false_iff {place : Nat} {e : Element} {above : List Element}
    (h : d.lineage? place = some (e, above)) :
    d.withinTemplate place = false <-> forall a, a ∈ e :: above -> a.name ≠ templateName := by
  rw [withinTemplate, d.isWithin_eq_any templateName h, List.any_eq_false]
  simp only [beq_iff_eq, ne_eq]

/-- The check succeeds exactly when every bundle that an element declares resolves,
unless the element is a template or stands inside one. -/
theorem check_eq_ok_iff :
    d.check resolver = .ok () <->
      forall b component above, (b, component :: above) ∈ d.root.lineages [] ->
        b.name = bundleName ->
          (forall a, a ∈ component :: above -> a.name ≠ templateName) ->
            (BundleReference.ofElements component b).Resolves resolver := by
  rw [check, checkFrom_eq_ok_iff]
  constructor
  · intro h b component above hmem hname hlive
    rcases d.exists_place_of_mem_lineages hmem with ⟨place, hplace, hlineage⟩
    rcases d.exists_parent_of_lineage? hlineage with ⟨p, hparent, houter⟩
    have hb := d.element?_of_lineage? hlineage
    have hnamed : place ∈ d.placesNamed bundleName := by
      refine List.mem_filter.mpr ⟨hplace, ?_⟩
      rw [hasName, hb]
      exact beq_iff_eq.mpr hname
    rw [← d.incompatibility?_eq_none_iff resolver (d.element?_of_lineage? houter) hb]
    exact h place hnamed p hparent ((d.withinTemplate_eq_false_iff houter).mpr hlive)
  · intro h place hnamed p hparent htemplate
    rcases List.mem_filter.mp hnamed with ⟨hplace, hname⟩
    rcases d.exists_lineage?_of_parent? hparent with ⟨b, component, above, hlineage, houter⟩
    have hb := d.element?_of_lineage? hlineage
    rw [hasName, hb] at hname
    rw [d.incompatibility?_eq_none_iff resolver (d.element?_of_lineage? houter) hb]
    exact h b component above (d.mem_lineages_of_lineage? hplace hlineage)
      (beq_iff_eq.mp hname) ((d.withinTemplate_eq_false_iff houter).mp htemplate)

end Document
end FlowConfig
