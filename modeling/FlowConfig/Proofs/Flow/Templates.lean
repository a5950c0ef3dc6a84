import FlowConfig.Flow.Loading
import FlowConfig.Proofs.Bundle.Reporting
import FlowConfig.Proofs.Element.Pruning
import FlowConfig.Proofs.Flow.Conservation
import FlowConfig.Proofs.Flow.Records
import FlowConfig.Proofs.Schema.Pruning

/-!
# Templates and the decision to load

The bundle check, the schema and the root group never look into templates, but
the first reporting task and the first controller service are looked for
everywhere, and so may be found in one.  Taking all templates out of a document
changes its decision in no other way.
-/

namespace FlowConfig

namespace Element

def withoutTemplates (e : Element) : Element :=
  e.without Document.templateName

theorem keepsFields_withoutTemplates :
    KeepsFields Document.templateName withoutTemplates :=
  keepsFields_without Document.templateName

end Element

/-- The decision about a document, given what the bundle check says of it. -/
def Decision.after (approval : Except Incompatibility Unit) (model : Model) :
    Except Refusal Decision :=
  match approval with
  | .error i => .error (.missingBundle i)
  | .ok () => .ok (Decision.ofModel model)

namespace Document

variable (d : Document) (resolver : Resolver)

def decision (checkBundles : Bool) : Except Refusal Decision :=
  Decision.after (verifyBundles resolver checkBundles d) (Model.ofDocument d)

theorem classify_eq_decision {input : Bytes} {d : Document}
    (h : Document.parse input = .ok (some d)) (checkBundles : Bool) :
    classify resolver checkBundles input = d.decision resolver checkBundles := by
  rw [classify, h]
  rfl

def withoutTemplates : Document :=
  .ofRoot d.root.withoutTemplates

theorem root_name_ne {name : String} (h : flowSchema.Admits d.root)
    (hname : "flowController" ≠ name) : d.root.name ≠ name := by
  rw [FlowSchema.name_eq_of_admits h]
  exact hname

theorem lineages_withoutTemplates (h : d.root.name ≠ templateName) :
    d.withoutTemplates.root.lineages [] =
      ((d.root.lineages []).filter (Element.isOutside templateName)).map
        (Element.lineageWithout templateName) := by
  have houtside : Element.isOutside templateName (d.root, []) = true :=
    Element.isOutside_iff.mpr (List.forall_mem_singleton.mpr h)
  exact Element.lineages_without houtside

/-!
# The bundle check
-/

theorem faultOf?_lineageWithout (lineage : Element × List Element) :
    faultOf? resolver (Element.lineageWithout templateName lineage) =
      faultOf? resolver lineage := by
  obtain ⟨b, above⟩ := lineage
  cases above with
  | nil => rfl
  | cons owner above =>
      have hnames : (forall a, a ∈ (owner :: above).map (Element.without templateName) ->
          a.name ≠ templateName) <->
            forall a, a ∈ owner :: above -> a.name ≠ templateName := by
        simp only [List.forall_mem_map, Element.name_without]
      show faultOf? resolver (b.without templateName,
        (owner :: above).map (Element.without templateName)) = _
      rw [List.map_cons] at hnames ⊢
      simp only [faultOf?, Element.name_without, hnames]
      rw [← Element.keepsFields_withoutTemplates.bundleReference owner b]
      rfl

theorem faultOf?_eq_none_of_not_outside {lineage : Element × List Element}
    (h : Element.isOutside templateName lineage ≠ true) : faultOf? resolver lineage = none := by
  obtain ⟨b, above⟩ := lineage
  cases above with
  | nil => rfl
  | cons owner above =>
      apply if_neg
      rintro ⟨hname, hlive⟩
      apply h
      rw [Element.isOutside_iff, List.forall_mem_cons]
      refine ⟨?_, hlive⟩
      rw [hname]
      decide

theorem faults_withoutTemplates (h : d.root.name ≠ templateName) :
    d.withoutTemplates.faults resolver = d.faults resolver := by
  rw [faults_eq_filterMap, d.lineages_withoutTemplates h, List.filterMap_map,
    List.filterMap_filter, faults_eq_filterMap]
  apply List.filterMap_congr
  intro lineage _
  by_cases houtside : Element.isOutside templateName lineage = true
  · rw [if_pos houtside]
    exact faultOf?_lineageWithout resolver lineage
  · rw [if_neg houtside, faultOf?_eq_none_of_not_outside resolver houtside]

theorem verifyBundles_withoutTemplates (checkBundles : Bool) (h : d.root.name ≠ templateName) :
    verifyBundles resolver checkBundles d.withoutTemplates =
      verifyBundles resolver checkBundles d := by
  rw [verifyBundles, check_eq_firstOf, d.faults_withoutTemplates resolver h, ← check_eq_firstOf,
    verifyBundles]

/-- A valid document and what is left of it without its templates get the same answer
from the check that stops early, and the list of all missing bundles has the same
references with the same reasons in the same order. -/
theorem check_ignores_templates (h : flowSchema.validate d.root = .ok ()) :
    d.withoutTemplates.check resolver = d.check resolver ∧
      (d.withoutTemplates.checkAll resolver).map MissingBundle.incompatibility =
        (d.checkAll resolver).map MissingBundle.incompatibility := by
  have htemplate := d.root_name_ne (Schema.validate_eq_ok_iff.mp h)
    (show "flowController" ≠ templateName by decide)
  have hfaults := d.faults_withoutTemplates resolver htemplate
  refine ⟨?_, hfaults⟩
  rw [check_eq_firstOf, check_eq_firstOf, hfaults]

def unnamedBundled (children : List Element) : Element :=
  let bundle := sampleElement "bundle"
    [sampleElement "group" [], sampleElement "artifact" [], sampleElement "version" []]
  sampleComponent "processor" (sampleElement "class" [] :: bundle :: children)

/-- Processors with bundles in a template and in a template that the styles of a third
one hold. -/
def styledFlow : Document :=
  let template := sampleElement "template" [unnamedBundled []]
  .ofRoot (sampleElement "flowController"
    [sampleComponent "rootGroup" [template, unnamedBundled [sampleElement "styles" [template]]]])

theorem check_ignores_templates_styledFlow :
    flowSchema.validate styledFlow.root = .ok () ∧
      (styledFlow.placesNamed bundleName).length = 3 ∧
      (styledFlow.withoutTemplates.placesNamed bundleName).length = 1 ∧
      styledFlow.withoutTemplates.check Registry.empty.resolve =
        styledFlow.check Registry.empty.resolve ∧
      (styledFlow.withoutTemplates.checkAll Registry.empty.resolve).map
          MissingBundle.incompatibility =
        [⟨⟨"", "", "", ""⟩, .notInstalled ⟨"", "", ""⟩⟩] := by
  have hvalid : flowSchema.validate styledFlow.root = .ok () :=
    Schema.validate_eq_ok_of_isOk (by decide +kernel)
  have hsame := check_ignores_templates styledFlow Registry.empty.resolve hvalid
  refine ⟨hvalid, by decide +kernel, by decide +kernel, hsame.left, ?_⟩
  rw [hsame.right]
  decide +kernel

/-!
# First elements

The first element of a name, and the first one that is not in a template.
-/

def first? (name : String) : Option Nat :=
  (d.placesNamed name).head?

def firstLive? (name : String) : Option Nat :=
  (d.placesNamed name).find? fun place => !d.withinTemplate place

theorem bind_find?_places (f : Element × List Element -> Bool) :
    (d.places.find? fun place => (d.lineage? place).any f).bind d.lineage? =
      (d.root.lineages []).find? f := by
  have hplaces : (d.places.map d.lineage?).find? (Option.any f) =
      ((d.root.lineages []).map some).find? (Option.any f) := by
    rw [map_lineage?_places]
  rw [List.find?_map, List.find?_map] at hplaces
  have hfirst : Option.map d.lineage? (d.places.find? fun place => (d.lineage? place).any f) =
      Option.map some ((d.root.lineages []).find? f) := hplaces
  cases hfound : d.places.find? fun place => (d.lineage? place).any f with
  | none =>
      rw [hfound] at hfirst
      exact (Option.map_eq_none_iff.mp hfirst.symm).symm
  | some place =>
      rw [hfound] at hfirst
      rcases Option.map_eq_some_iff.mp hfirst.symm with ⟨lineage, hlineage, heq⟩
      rw [hlineage, Option.bind_some]
      exact heq.symm

theorem hasName_eq_any (name : String) (place : Nat) :
    d.hasName name place = (d.lineage? place).any fun lineage => lineage.1.name == name := by
  rw [hasName, lineage?]
  cases d.element? place with
  | none => rfl
  | some e => rfl

theorem bind_element?_eq_map (place : Option Nat) :
    place.bind d.element? = (place.bind d.lineage?).map Prod.fst := by
  rw [Option.map_bind]
  congr 1
  funext p
  rw [Function.comp_apply, lineage?, Option.map_map]
  exact Option.map_id'.symm

theorem bind_first?_element? {name : String} (h : d.root.name ≠ name) :
    (d.first? name).bind d.element? = d.root.descendant? name := by
  have hfind : d.first? name =
      d.places.find? fun place =>
        (d.lineage? place).any fun lineage => lineage.1.name == name := by
    rw [first?, placesNamed, List.head?_filter]
    congr 1
    funext place
    exact d.hasName_eq_any name place
  rw [bind_element?_eq_map, hfind, bind_find?_places, Element.descendant?_eq_find?_lineages h]

theorem isFirstLive_eq_any (name : String) (place : Nat) :
    (d.hasName name place && !d.withinTemplate place) =
      (d.lineage? place).any fun lineage =>
        Element.isOutside templateName lineage && lineage.1.name == name := by
  rw [hasName_eq_any]
  cases hlineage : d.lineage? place with
  | none => rfl
  | some lineage =>
      obtain ⟨e, above⟩ := lineage
      rw [withinTemplate, d.isWithin_eq_any templateName hlineage, List.not_any_eq_all_not,
        Bool.and_comm]
      rfl

/-- What is looked for after all templates are taken out is the first element that
is in none. -/
theorem descendant?_withoutTemplates {name : String} (hroot : d.root.name ≠ name)
    (h : d.root.name ≠ templateName) :
    d.withoutTemplates.root.descendant? name =
      ((d.firstLive? name).bind d.element?).map Element.withoutTemplates := by
  have hfind : d.firstLive? name =
      d.places.find? fun place =>
        (d.lineage? place).any fun lineage =>
          Element.isOutside templateName lineage && lineage.1.name == name := by
    simp only [firstLive?, placesNamed, List.find?_filter, Bool.decide_and, Bool.decide_eq_true,
      isFirstLive_eq_any]
  have hname : d.withoutTemplates.root.name ≠ name := by
    intro heq
    exact hroot ((Element.name_without templateName d.root).symm.trans heq)
  rw [Element.descendant?_eq_find?_lineages hname, d.lineages_withoutTemplates h, List.find?_map,
    List.find?_filter, bind_element?_eq_map, hfind, bind_find?_places, Option.map_map,
    Option.map_map]
  simp only [Bool.decide_and, Bool.decide_eq_true, Function.comp_apply, Element.lineageWithout,
    Element.name_without]
  rfl

/-!
# Models
-/

/-- The model with the first reporting task and the first controller service that
are in no template. -/
def liveModel : Model :=
  { Model.ofDocument d with
    reportingTask :=
      ((d.firstLive? "reportingTask").bind d.element?).map ReportingTask.ofElement
    controllerService :=
      ((d.firstLive? "controllerService").bind d.element?).map ControllerService.ofElement }

/-- What a name is read as is read of the first live element of the name. -/
theorem map_descendant?_withoutTemplates {A : Type} {f : Element -> A} {name : String}
    (hf : forall e : Element, f e.withoutTemplates = f e) (hroot : d.root.name ≠ name)
    (h : d.root.name ≠ templateName) :
    (d.withoutTemplates.root.descendant? name).map f =
      ((d.firstLive? name).bind d.element?).map f := by
  rw [d.descendant?_withoutTemplates hroot h, Option.map_map]
  congr 1
  funext e
  exact hf e

theorem admits_withoutTemplates (h : flowSchema.Admits d.root) :
    flowSchema.Admits d.withoutTemplates.root :=
  Schema.admits_without FlowSchema.spares_template h

theorem descendant?_rootGroup_withoutTemplates (h : flowSchema.Admits d.root) :
    d.withoutTemplates.root.descendant? "rootGroup" =
      (d.root.descendant? "rootGroup").map Element.withoutTemplates := by
  rcases FlowSchema.exists_rootGroup h with ⟨g, hg, hfirst, _⟩
  rcases FlowSchema.exists_rootGroup (d.admits_withoutTemplates h) with ⟨left, hleft, hnow, _⟩
  have hchild : d.withoutTemplates.root.childrenNamed "rootGroup" = [g.withoutTemplates] := by
    have hchildren := Element.childrenNamed_without d.root
      (show "rootGroup" ≠ templateName by decide)
    rw [hg] at hchildren
    exact hchildren
  rw [hleft] at hchild
  rw [hnow, hfirst, (List.cons.inj hchild).left, Option.map_some]

theorem ofDocument_withoutTemplates (h : flowSchema.Admits d.root) :
    Model.ofDocument d.withoutTemplates = d.liveModel := by
  have htemplate := d.root_name_ne h (show "flowController" ≠ templateName by decide)
  have hkeeps := Element.keepsFields_withoutTemplates
  have htask := d.map_descendant?_withoutTemplates hkeeps.reportingTask
    (d.root_name_ne h (show "flowController" ≠ "reportingTask" by decide)) htemplate
  have hservice := d.map_descendant?_withoutTemplates hkeeps.controllerService
    (d.root_name_ne h (show "flowController" ≠ "controllerService" by decide)) htemplate
  rw [Model.ofDocument, Model.ofRoot, htask, hservice, d.descendant?_rootGroup_withoutTemplates h]
  simp only [hkeeps.versionOf, hkeeps.map_processGroup]
  rfl

/-- The live model is the model where the elements found first are live. -/
theorem liveModel_eq_ofDocument (h : flowSchema.Admits d.root)
    (htask : d.first? "reportingTask" = d.firstLive? "reportingTask")
    (hservice : d.first? "controllerService" = d.firstLive? "controllerService") :
    d.liveModel = Model.ofDocument d := by
  have hfirstTask := d.bind_first?_element?
    (d.root_name_ne h (show "flowController" ≠ "reportingTask" by decide))
  have hfirstService := d.bind_first?_element?
    (d.root_name_ne h (show "flowController" ≠ "controllerService" by decide))
  rw [liveModel, ← htask, ← hservice, hfirstTask, hfirstService]
  rfl

/-!
# Decisions
-/

/-- A valid document without its templates is valid, and the decision about it is
the one about the document as long as the first reporting task and the first
controller service are those in no template.  These decisions are the answers to
the texts that hold the documents. -/
theorem decision_withoutTemplates (checkBundles : Bool)
    (h : flowSchema.validate d.root = .ok ()) :
    (forall input other, parse input = .ok (some other) ->
      classify resolver checkBundles input = other.decision resolver checkBundles) ∧
      flowSchema.validate d.withoutTemplates.root = .ok () ∧
      d.withoutTemplates.decision resolver checkBundles =
        Decision.after (verifyBundles resolver checkBundles d) d.liveModel ∧
      (d.first? "reportingTask" = d.firstLive? "reportingTask" ->
        d.first? "controllerService" = d.firstLive? "controllerService" ->
          d.withoutTemplates.decision resolver checkBundles =
            d.decision resolver checkBundles) := by
  have hadmits := Schema.validate_eq_ok_iff.mp h
  have htemplate := d.root_name_ne hadmits (show "flowController" ≠ templateName by decide)
  have hdecision : d.withoutTemplates.decision resolver checkBundles =
      Decision.after (verifyBundles resolver checkBundles d) d.liveModel := by
    rw [decision, d.verifyBundles_withoutTemplates resolver checkBundles htemplate,
      d.ofDocument_withoutTemplates hadmits]
  refine ⟨fun _ _ hparse => classify_eq_decision resolver hparse checkBundles,
    Schema.validate_eq_ok_iff.mpr (d.admits_withoutTemplates hadmits), hdecision, ?_⟩
  intro htask hservice
  rw [hdecision, d.liveModel_eq_ofDocument hadmits htask hservice, decision]

/-- A flow with a named service in a template, and with services of the controller
before it. -/
def templatedFlow (services : List Element) : Document :=
  let service := sampleElement "controllerService" [⟨⟨"name", none, [], "Pool", ⟨0, 0⟩⟩, []⟩]
  .ofRoot (sampleElement "flowController"
    [sampleElement "controllerServices" services,
     sampleComponent "rootGroup" [sampleElement "template" [service]]])

theorem decision_withoutTemplates_templatedFlow :
    flowSchema.validate (templatedFlow [sampleService]).root = .ok () ∧
      (templatedFlow [sampleService]).withoutTemplates.size < (templatedFlow [sampleService]).size ∧
      (templatedFlow [sampleService]).withoutTemplates.decision Registry.empty.resolve true =
        (templatedFlow [sampleService]).decision Registry.empty.resolve true := by
  have hvalid : flowSchema.validate (templatedFlow [sampleService]).root = .ok () :=
    Schema.validate_eq_ok_of_isOk (by decide +kernel)
  have htask : (templatedFlow [sampleService]).first? "reportingTask" =
      (templatedFlow [sampleService]).firstLive? "reportingTask" := by
    decide +kernel
  have hservice : (templatedFlow [sampleService]).first? "controllerService" =
      (templatedFlow [sampleService]).firstLive? "controllerService" := by
    decide +kernel
  refine ⟨hvalid, by decide +kernel, ?_⟩
  exact (decision_withoutTemplates _ Registry.empty.resolve true hvalid).right.right.right
    htask hservice

/-- With no services of the controller, a service in a template is the first one,
and its name alone makes a flow that is empty otherwise be loaded. -/
theorem template_loads_templatedFlow :
    flowSchema.validate (templatedFlow []).root = .ok () ∧
      ((templatedFlow []).decision Registry.empty.resolve true).map Decision.isFresh =
        .ok false ∧
      ((templatedFlow []).withoutTemplates.decision Registry.empty.resolve true).map
        Decision.isFresh = .ok true := by
  refine ⟨Schema.validate_eq_ok_of_isOk (by decide +kernel), ?_, ?_⟩
  · decide +kernel
  · decide +kernel

end Document
end FlowConfig
