import FlowConfig.Proofs.Flow.Approval
import FlowConfig.Proofs.Flow.LiveGroups
import FlowConfig.Proofs.Flow.Sources

/-!
# References of decoded records

The check and the decoder read a component type and a bundle each on its own.  Of the
bundle they read the same.  The check trims the component type and the decoder does not,
so what was approved is what a record refers to without the blanks around its type.
-/

namespace FlowConfig

/-!
# Components
-/

namespace Element

/-- What a record with a bundle refers to is related to what the check reads in the
component and its bundle. -/
def RefersAs (A : BundleReference -> BundleReference -> Prop) (e : Element)
    (componentType : String) (bundle : Option Coordinate) : Prop :=
  forall c, bundle = some c -> exists b, e.child? "bundle" = some b ∧
    A ⟨componentType, c⟩ (BundleReference.ofElements e b)

structure RefersOnlyAs (A : BundleReference -> BundleReference -> Prop) (e : Element)
    (componentType : String) (bundle : Option Coordinate) : Prop where
  atMostOne : (e.childrenNamed "bundle").length ≤ 1
  refersAs : e.RefersAs A componentType bundle

end Element

namespace Document

/-- What the check reads and resolves is what a record refers to with its component type
trimmed.  The two are the same exactly if there was nothing to trim. -/
structure Approves (d : Document) (written read : BundleReference) : Prop where
  trimmed : read = ⟨Text.trim written.componentType, written.coordinate⟩
  same_iff : written = read <-> Text.trim written.componentType = written.componentType
  resolved : forall resolver, d.check resolver = .ok () -> read.Resolves resolver

/-- The check reads the element and its first bundle as the decoder does, but for the
blanks around the component type. -/
theorem IsLive.refersAs {d : Document} {e : Element} (h : d.IsLive e) :
    e.RefersAs d.Approves (e.fieldText "class") e.bundle? := by
  intro c hc
  rcases h with ⟨up, hmem, hlive⟩
  rcases Option.map_eq_some_iff.mp hc with ⟨b, hb, rfl⟩
  refine ⟨b, hb, ?_⟩
  constructor
  · rfl
  · constructor
    · intro hsame
      exact congrArg BundleReference.componentType hsame.symm
    · intro htrim
      exact congrArg (BundleReference.mk · b.coordinate) htrim.symm
  · intro resolver hcheck
    exact resolves_of_bundle? hcheck hmem hlive hc

end Document

namespace FlowSchema

variable {d : Document} {e : Element} {typeName : String}

theorem refersOnlyAs_of_isLive (h : flowSchema.Conforms e typeName)
    (hd : declaresField typeName (.atMostOne "bundle" "BundleType") = true)
    (hlive : d.IsLive e) :
    e.RefersOnlyAs d.Approves (e.fieldText "class") e.bundle? := by
  constructor
  · rcases Schema.childrenNamed_eq_nil_or_singleton h (declares_of_declaresField hd) with
      hnil | ⟨b, hb, _⟩
    · rw [hnil]
      exact Nat.zero_le 1
    · rw [hb]
      exact Nat.le_refl 1
  · exact hlive.refersAs

theorem processor_refersOnlyAs (hlive : d.IsLive e)
    (h : flowSchema.Conforms e "ProcessorType") :
    e.RefersOnlyAs d.Approves (Processor.ofElement e).componentType
      (Processor.ofElement e).bundle :=
  refersOnlyAs_of_isLive h (by decide) hlive

theorem controllerService_refersOnlyAs (hlive : d.IsLive e)
    (h : flowSchema.Conforms e "ControllerServiceType") :
    e.RefersOnlyAs d.Approves (ControllerService.ofElement e).componentType
      (ControllerService.ofElement e).bundle :=
  refersOnlyAs_of_isLive h (by decide) hlive

end FlowSchema

/-!
# Documents
-/

section Relations

variable (A : BundleReference -> BundleReference -> Prop)

structure Contents.ReferencesRelated (layout : Layout) (e : Element) (c : Contents) :
    Prop where
  processors : List.Forall₂
    (fun x (p : Processor) => x.RefersOnlyAs A p.componentType p.bundle)
    (e.childrenNamed "processor") c.processors
  controllerServices : List.Forall₂
    (fun x (s : ControllerService) => x.RefersOnlyAs A s.componentType s.bundle)
    (if layout.groupServices then e.childrenNamed "controllerService" else [])
    c.controllerServices

/-- A group has contents, and what the records in them refer to is related to what the
check reads. -/
def ProcessGroup.ReferencesRelated (layout : Layout) (e : Element) (g : ProcessGroup) : Prop :=
  exists c, g.contents = some c ∧ c.ReferencesRelated A layout e

/-- What the records of a document refer to is related to what the check reads: records
in the root group and in all groups inside it, and the two records beside the root group
if what they were decoded from is not in a template. -/
structure Document.ReferencesRelated (d : Document) : Prop where
  groups : exists e g, d.root.childrenNamed "rootGroup" = [e] ∧
    (Model.ofDocument d).rootGroup = some g ∧
      g.Mirrors (ProcessGroup.ReferencesRelated A (Model.ofDocument d).layout) e
  reportingTask : forall t, (Model.ofDocument d).reportingTask = some t ->
    exists x, d.root.descendant? "reportingTask" = some x ∧
      (d.IsLive x -> x.RefersAs A t.componentType t.bundle)
  controllerService : forall s, (Model.ofDocument d).controllerService = some s ->
    exists x, d.root.descendant? "controllerService" = some x ∧
      (d.IsLive x -> x.RefersAs A s.componentType s.bundle)

end Relations

namespace Document

variable {d : Document}

/-- One group at a time. -/
theorem IsLiveGroup.referencesRelated {x : Element} (h : d.IsLiveGroup x) (layout : Layout) :
    (ProcessGroup.decodeTree layout x).ReferencesRelated d.Approves layout x := by
  rw [ProcessGroup.decodeTree_eq]
  refine ⟨_, rfl, ?_⟩
  constructor
  · exact h.forall₂_childrenNamed (by decide) (by decide) fun _ =>
      FlowSchema.processor_refersOnlyAs
  · change List.Forall₂ _ _ (ite _ _ _)
    cases layout.groupServices with
    | false => exact .nil
    | true =>
        exact h.forall₂_childrenNamed (by decide) (by decide) fun _ =>
          FlowSchema.controllerService_refersOnlyAs

/-- In a valid document every record with a bundle refers to what the check reads and
resolves, up to blanks around the component type. -/
theorem records_refer_up_to_blanks (d : Document) (h : flowSchema.validate d.root = .ok ()) :
    d.ReferencesRelated d.Approves := by
  constructor
  · apply Model.rootGroup_mirrors (Schema.validate_eq_ok_iff.mp h)
    intro x hx
    exact hx.referencesRelated _
  · intro t ht
    rcases Option.map_eq_some_iff.mp ht with ⟨x, hx, rfl⟩
    exact ⟨x, hx, IsLive.refersAs⟩
  · intro s hs
    rcases Option.map_eq_some_iff.mp hs with ⟨x, hx, rfl⟩
    exact ⟨x, hx, IsLive.refersAs⟩

def referringComponent (name componentType : String) : Element :=
  sampleComponent name
    [sampleLeaf "class" [] componentType,
     sampleElement "bundle"
       [sampleLeaf "group" [] "g", sampleLeaf "artifact" [] " a ", sampleLeaf "version" [] "1"]]

/-- A processor and a reporting task of the type. -/
def referringFlow (componentType : String) : Document :=
  .ofRoot (sampleElement "flowController"
    [sampleComponent "rootGroup" [referringComponent "processor" componentType],
     sampleElement "reportingTasks" [referringComponent "reportingTask" componentType]])

def processorReferences (d : Document) : List (String × Option Coordinate) :=
  (Model.ofDocument d).rootContents.processors.map fun p => (p.componentType, p.bundle)

theorem records_refer_up_to_blanks_referringFlow :
    flowSchema.validate (referringFlow "T").root = .ok () ∧
      (referringFlow "T").ReferencesRelated (referringFlow "T").Approves ∧
        (referringFlow "T").processorReferences = [("T", some ⟨"g", "a", "1"⟩)] := by
  have hvalid : flowSchema.validate (referringFlow "T").root = .ok () :=
    Schema.validate_eq_ok_of_isOk (by decide +kernel)
  refine ⟨hvalid, records_refer_up_to_blanks _ hvalid, ?_⟩
  decide +kernel

/-- With blanks around the component type the record of a processor does not refer to
what was approved, and what it does refer to is not installed. -/
theorem approved_reference_differs :
    flowSchema.validate (referringFlow " T ").root = .ok () ∧
      (referringFlow " T ").check oneInstalled.resolve = .ok () ∧
        (referringFlow " T ").processorReferences = [(" T ", some ⟨"g", "a", "1"⟩)] ∧
          ¬ BundleReference.Resolves ⟨" T ", ⟨"g", "a", "1"⟩⟩ oneInstalled.resolve ∧
            ¬ (referringFlow " T ").ReferencesRelated Eq := by
  have hreferences : (referringFlow " T ").processorReferences =
      [(" T ", some ⟨"g", "a", "1"⟩)] := by
    decide +kernel
  refine ⟨Schema.validate_eq_ok_of_isOk (by decide +kernel), by decide +kernel, hreferences,
    ?_, ?_⟩
  · intro hresolves
    rcases hresolves with ⟨b, hb⟩
    have hunknown : (oneInstalled.resolve " T " ⟨"g", "a", "1"⟩).isOk = false := by
      decide +kernel
    rw [hb] at hunknown
    cases hunknown
  · intro hsame
    rcases Model.exists_related_rootContents hsame.groups with ⟨e, he, hrelated⟩
    have hread : forall r, r ∈ (referringFlow " T ").root.children ->
        forall x, x ∈ r.childrenNamed "processor" ->
          BundleReference.trimmedText x "class" = "T" := by
      decide +kernel
    rcases List.map_eq_singleton_iff.mp hreferences with ⟨p, hp, hwritten⟩
    rcases Prod.mk.inj hwritten with ⟨htype, hbundle⟩
    have hprocessors := hrelated.processors
    rw [hp] at hprocessors
    rcases List.forall₂_cons_right_iff.mp hprocessors with ⟨x, rest, hrefers, _, hx⟩
    rcases hrefers.refersAs _ hbundle with ⟨b, _, heq⟩
    have hclass : p.componentType = BundleReference.trimmedText x "class" :=
      congrArg BundleReference.componentType heq
    rw [htype, hread e he x (hx ▸ List.mem_cons_self)] at hclass
    exact absurd hclass (by decide)

end Document
end FlowConfig
