import FlowConfig.Proofs.Bundle.Registration
import FlowConfig.Proofs.Bundle.Reporting
import FlowConfig.Proofs.Flow.Approval
import FlowConfig.Proofs.Flow.Conservation

/-!
# Installing more bundles

A registry is within another one if the other has a bundle at each of its
coordinates that provides at least the same types.  What resolves in the one
resolves in the other, perhaps by another bundle, and what does not resolve may
fail for another reason there.  The bundle check asks only whether references
resolve, so every flow that is accepted stays accepted, with the same decision, and
no component is reported that was not reported before.
-/

namespace FlowConfig

/-!
# Larger registries
-/

namespace Registry

variable {r s : Registry} {b : Bundle} {bundles : List Bundle}

/-- The other registry has a bundle at every coordinate of this one, with at least
the same types. -/
def IsWithin (r s : Registry) : Prop :=
  forall c b, r.get? c = some b ->
    exists other, s.get? c = some other ∧ forall t, t ∈ b.types -> t ∈ other.types

theorem isWithin_refl (r : Registry) : r.IsWithin r :=
  fun _ b h => ⟨b, h, fun _ ht => ht⟩

theorem isWithin_trans {u : Registry} (hr : r.IsWithin s) (hs : s.IsWithin u) :
    r.IsWithin u := by
  intro c b hb
  rcases hr c b hb with ⟨other, hother, htypes⟩
  rcases hs c other hother with ⟨last, hlast, hmore⟩
  exact ⟨last, hlast, fun t ht => hmore t (htypes t ht)⟩

theorem isWithin_of_register (h : r.register b = .ok s) : r.IsWithin s := by
  have hs : s = ⟨r.bundles ++ [b]⟩ := by
    rw [register] at h
    split at h
    · cases h
    · exact (Except.ok.inj h).symm
  subst hs
  intro c found hfound
  refine ⟨found, ?_, fun _ ht => ht⟩
  rw [get?] at hfound
  rw [get?, List.find?_append, hfound]
  rfl

theorem isWithin_of_registerAll (h : r.registerAll bundles = .ok s) : r.IsWithin s := by
  induction bundles generalizing r with
  | nil =>
      cases h
      exact isWithin_refl _
  | cons b rest ih =>
      rw [registerAll] at h
      split at h
      · next larger hlarger => exact isWithin_trans (isWithin_of_register hlarger) (ih h)
      · cases h

theorem resolves_of_isWithin (h : r.IsWithin s) {reference : BundleReference}
    (hr : reference.Resolves r.resolve) : reference.Resolves s.resolve := by
  rcases hr with ⟨b, hb⟩
  rcases resolve_eq_ok_iff.mp hb with ⟨hget, hprovided⟩
  rcases h _ b hget with ⟨other, hother, htypes⟩
  exact ⟨other, resolve_eq_ok_iff.mpr ⟨hother, htypes _ hprovided⟩⟩

end Registry

theorem SharedRegistry.resolves_of_register {s next : SharedRegistry} {b : Bundle}
    (h : s.register b = .ok next) {reference : BundleReference}
    (hr : reference.Resolves s.resolve) : reference.Resolves next.resolve := by
  rw [register] at h
  split at h
  · next larger hlarger =>
      cases h
      exact Registry.resolves_of_isWithin (Registry.isWithin_of_register hlarger) hr
  · cases h

/-!
# Resolvers that resolve more

All that matters of two resolvers is which references they resolve.
-/

def MissingBundle.subject (m : MissingBundle) : Nat × BundleReference :=
  (m.component, m.incompatibility.reference)

theorem filterMap_sublist_filterMap {A B : Type} {f g : A -> Option B}
    (h : forall a b, f a = some b -> g a = some b) (as : List A) :
    (as.filterMap f).Sublist (as.filterMap g) := by
  induction as with
  | nil => exact .slnil
  | cons a rest ih =>
      rw [List.filterMap_cons, List.filterMap_cons]
      cases hf : f a with
      | none =>
          cases g a with
          | none => exact ih
          | some b => exact ih.cons b
      | some b =>
          rw [h a b hf]
          exact ih.cons_cons b

section

variable {p q : Resolver}
  (h : forall reference : BundleReference, reference.Resolves p -> reference.Resolves q)

include h

namespace Document

variable (d : Document)

theorem exists_incompatibility?_of_resolves {component bundle : Nat} {i : Incompatibility}
    (hi : d.incompatibility? q component bundle = some i) :
    exists j, d.incompatibility? p component bundle = some j ∧ j.reference = i.reference := by
  rcases (d.incompatibility?_eq_some_iff q).mp hi with ⟨owner, declaration, howner, hdecl, href,
    hrefused⟩
  cases hanswer : p i.reference.componentType i.reference.coordinate with
  | ok b =>
      rcases h i.reference ⟨b, hanswer⟩ with ⟨other, hother⟩
      rw [hother] at hrefused
      cases hrefused
  | error reason =>
      exact ⟨⟨i.reference, reason⟩,
        (d.incompatibility?_eq_some_iff p).mpr ⟨owner, declaration, howner, hdecl, href, hanswer⟩,
        rfl⟩

theorem subject_missing?_of_resolves {bundle : Nat} {subject : Nat × BundleReference}
    (hq : (d.missing? q bundle).map MissingBundle.subject = some subject) :
    (d.missing? p bundle).map MissingBundle.subject = some subject := by
  rw [Option.map_eq_some_iff] at hq ⊢
  rcases hq with ⟨report, hreport, rfl⟩
  rw [missing?] at hreport ⊢
  split at hreport
  · cases hreport
  · next component hparent =>
      split at hreport
      · cases hreport
      · next hlive =>
          rcases Option.map_eq_some_iff.mp hreport with ⟨i, hi, rfl⟩
          rcases d.exists_incompatibility?_of_resolves h hi with ⟨j, hj, href⟩
          refine ⟨⟨component, j⟩, ?_, Prod.ext rfl href⟩
          rw [if_neg hlive, hj]
          rfl

theorem subjects_checkAll_sublist :
    ((d.checkAll q).map MissingBundle.subject).Sublist
      ((d.checkAll p).map MissingBundle.subject) := by
  rw [checkAll_eq_filterMap, checkAll_eq_filterMap, List.map_filterMap, List.map_filterMap]
  exact filterMap_sublist_filterMap (fun _ _ => d.subject_missing?_of_resolves h) _

theorem check_of_resolves (hp : d.check p = .ok ()) : d.check q = .ok () := by
  rw [check_eq_ok_iff] at hp ⊢
  intro b component above hmem hname hlive
  exact h _ (hp b component above hmem hname hlive)

end Document

theorem verifyBundles_of_resolves {checkBundles : Bool} (d : Document)
    (hp : verifyBundles p checkBundles d = .ok ()) :
    verifyBundles q checkBundles d = .ok () := by
  cases checkBundles with
  | false => rfl
  | true => exact d.check_of_resolves h hp

theorem classify_of_resolves {checkBundles : Bool} {input : Bytes} {decision : Decision}
    (hp : classify p checkBundles input = .ok decision) :
    classify q checkBundles input = .ok decision := by
  rw [classify] at hp ⊢
  split at hp
  · cases hp
  · exact hp
  · next d hparse =>
      split at hp
      · cases hp
      · next happroved =>
          rw [verifyBundles_of_resolves h d happroved]
          exact hp

end

/-!
# Registries and decisions
-/

/-- A registry that bundles were added to is larger than before.  With a larger
registry every decision stays the same, and the components with missing bundles are
some of those before, in the same order. -/
theorem larger_registry_accepts_more (r s : Registry) :
    (forall bundles, r.registerAll bundles = .ok s -> r.IsWithin s) ∧
    (r.IsWithin s ->
      (forall checkBundles input decision,
        classify r.resolve checkBundles input = .ok decision ->
          classify s.resolve checkBundles input = .ok decision) ∧
      forall d : Document,
        ((d.checkAll s.resolve).map MissingBundle.component).Sublist
          ((d.checkAll r.resolve).map MissingBundle.component)) := by
  refine ⟨fun _ => Registry.isWithin_of_registerAll, ?_⟩
  intro hwithin
  have hresolves : forall reference : BundleReference,
      reference.Resolves r.resolve -> reference.Resolves s.resolve :=
    fun _ => Registry.resolves_of_isWithin hwithin
  refine ⟨fun _ _ _ => classify_of_resolves hresolves, ?_⟩
  intro d
  have hsubjects := (d.subjects_checkAll_sublist hresolves).map Prod.fst
  rw [List.map_map, List.map_map] at hsubjects
  exact hsubjects

def sampleText (name text : String) : Element :=
  ⟨⟨name, none, [], text, ⟨0, 0⟩⟩, []⟩

def sampleBundled (artifact : String) : Element :=
  Document.sampleElement "processor"
    [sampleText "class" "T",
     Document.sampleElement "bundle"
      [sampleText "group" "g", sampleText "artifact" artifact, sampleText "version" "1"]]

def bundledFlow : Document :=
  .ofRoot (Document.sampleElement "rootGroup"
    [sampleBundled "b", sampleBundled "c", sampleBundled "d"])

def threeInstalled : Registry :=
  ⟨oneInstalled.bundles ++ [⟨⟨"g", "b", "1"⟩, ["T"]⟩, ⟨⟨"g", "c", "1"⟩, []⟩]⟩

theorem larger_registry_accepts_more_threeInstalled :
    oneInstalled.IsWithin threeInstalled ∧
      (exists decision, classify oneInstalled.resolve true flowWithBundle = .ok decision ∧
        classify threeInstalled.resolve true flowWithBundle = .ok decision) ∧
      (bundledFlow.checkAll oneInstalled.resolve).map MissingBundle.component = [1, 7, 13] ∧
      (bundledFlow.checkAll threeInstalled.resolve).map MissingBundle.component = [7, 13] ∧
      ((bundledFlow.checkAll threeInstalled.resolve).map MissingBundle.component).Sublist
        ((bundledFlow.checkAll oneInstalled.resolve).map MissingBundle.component) := by
  have hregistered : oneInstalled.registerAll
      [⟨⟨"g", "b", "1"⟩, ["T"]⟩, ⟨⟨"g", "c", "1"⟩, []⟩] = .ok threeInstalled := by
    decide +kernel
  have htheorem := larger_registry_accepts_more oneInstalled threeInstalled
  have hwithin := htheorem.left _ hregistered
  rcases Decision.exists_processor_of_loadsBundled loadsBundled_flowWithBundle with
    ⟨model, _, _, _, _, h, _⟩
  refine ⟨hwithin, ⟨.load model, h, (htheorem.right hwithin).left _ _ _ h⟩, ?_, ?_,
    (htheorem.right hwithin).right bundledFlow⟩
  · decide +kernel
  · decide +kernel

end FlowConfig
