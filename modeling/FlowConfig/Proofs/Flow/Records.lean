import FlowConfig.Bundle.Compatibility
import FlowConfig.Proofs.Element.Fields
import FlowConfig.Proofs.Flow.GroupDecoding

/-!
# Decoding after a change

No record has a field that is read from a template.  An element decodes to the
same record after every change that keeps its fields, whatever the change does
to templates.
-/

namespace FlowConfig

namespace Element.KeepsFields

variable {change : Element -> Element} (h : KeepsFields Document.templateName change)
  (e : Element)

include h

theorem position? : (change e).position? = e.position? :=
  h.map_child? e h.point (by decide)

theorem coordinate : (change e).coordinate = e.coordinate := by
  simp (disch := decide) only [Element.coordinate, h.fieldText]

theorem bundle? : (change e).bundle? = e.bundle? :=
  h.map_child? e h.coordinate (by decide)

theorem properties : (change e).properties = e.properties := by
  have hentry : forall p : Element,
      ((change p).fieldText "name", (change p).childText? "value") =
        (p.fieldText "name", p.childText? "value") := by
    intro p
    rw [h.fieldText p (by decide), h.childText? p (by decide)]
  exact congrArg Dictionary.ofList (h.map_childrenNamed e hentry (by decide))

theorem declaredVariables : (change e).declaredVariables = e.declaredVariables := by
  rw [Element.declaredVariables, h.childrenNamed e (by decide), List.filterMap_map,
    Element.declaredVariables]
  congr 2
  funext v
  rw [Function.comp_apply, h.attribute?, h.attribute?]

/-!
# Records
-/

theorem processor : Processor.ofElement (change e) = .ofElement e := by
  simp (disch := decide) only [Processor.ofElement, h.fieldText, h.childText?, h.allTexts,
    h.integer?, h.bundle?, h.position?, h.properties]

theorem connection : Connection.ofElement (change e) = .ofElement e := by
  have hpoints : (Connection.ofElement (change e)).bendPoints =
      (Connection.ofElement e).bendPoints := by
    simp only [Connection.ofElement]
    rw [h.child? e (by decide)]
    cases e.child? "bendPoints" with
    | none => rfl
    | some points => exact h.map_childrenNamed points h.point (by decide)
  simp (disch := decide) only [Connection.ofElement, h.fieldText, h.childText?, h.allTexts,
    h.integer?]
  exact congrArg (fun points => { Connection.ofElement e with bendPoints := points }) hpoints

theorem funnel : Funnel.ofElement (change e) = .ofElement e := by
  simp (disch := decide) only [Funnel.ofElement, h.fieldText, h.position?]

theorem label : Label.ofElement (change e) = .ofElement e := by
  have hsize : ((change e).child? "size").map Element.extent =
      (e.child? "size").map Element.extent :=
    h.map_child? e h.extent (by decide)
  simp (disch := decide) only [Label.ofElement, h.fieldText, h.childText?, h.position?, hsize]

theorem port : Port.ofElement (change e) = .ofElement e := by
  simp (disch := decide) only [Port.ofElement, h.fieldText, h.childText?, h.integer?,
    h.position?]

theorem remotePort : RemotePort.ofElement (change e) = .ofElement e := by
  simp (disch := decide) only [RemotePort.ofElement, h.fieldText, h.childText?, h.integer?,
    h.flag]

theorem remoteProcessGroup : RemoteProcessGroup.ofElement (change e) = .ofElement e := by
  have hports : forall {name : String}, name ≠ Document.templateName ->
      ((change e).childrenNamed name).map RemotePort.ofElement =
        (e.childrenNamed name).map RemotePort.ofElement :=
    h.map_childrenNamed e h.remotePort
  simp (disch := decide) only [RemoteProcessGroup.ofElement, h.fieldText, h.childText?, h.flag,
    h.position?, hports]

theorem reportingTask : ReportingTask.ofElement (change e) = .ofElement e := by
  simp (disch := decide) only [ReportingTask.ofElement, h.fieldText, h.childText?, h.bundle?,
    h.properties]

theorem controllerService : ControllerService.ofElement (change e) = .ofElement e := by
  simp (disch := decide) only [ControllerService.ofElement, h.fieldText, h.childText?, h.flag,
    h.bundle?, h.properties]

theorem bundleReference (component bundle : Element) :
    BundleReference.ofElements (change component) (change bundle) =
      .ofElements component bundle := by
  simp (disch := decide) only [BundleReference.ofElements, BundleReference.trimmedText,
    h.childText?]

/-!
# Groups
-/

theorem assemble (layout : Layout) (nested : List ProcessGroup) :
    ProcessGroup.assemble layout (change e) nested = .assemble layout e nested := by
  have hparts : forall {A : Type} {f : Element -> A} {name : String},
      (forall c : Element, f (change c) = f c) -> name ≠ Document.templateName ->
        ((change e).childrenNamed name).map f = (e.childrenNamed name).map f :=
    fun hf hname => h.map_childrenNamed e hf hname
  rw [ProcessGroup.assemble, hparts h.processor (by decide), hparts h.connection (by decide),
    hparts h.funnel (by decide), hparts h.label (by decide), hparts h.port (by decide),
    hparts h.port (by decide), hparts h.remoteProcessGroup (by decide),
    hparts h.controllerService (by decide)]
  simp (disch := decide) only [h.fieldText, h.childText?, h.position?, h.declaredVariables]
  rfl

theorem decodeTree (layout : Layout) :
    ProcessGroup.decodeTree layout (change e) = .decodeTree layout e := by
  induction e using Element.treeInduction with
  | step e ih =>
      have hnested : (ProcessGroup.nestedElements (change e)).map
          (ProcessGroup.decodeTree layout) =
            (ProcessGroup.nestedElements e).map (ProcessGroup.decodeTree layout) := by
        rw [ProcessGroup.nestedElements, h.childrenNamed e (by decide), List.map_map]
        exact List.map_congr_left fun c hc => ih c (List.mem_filter.mp hc).left
      rw [ProcessGroup.decodeTree_eq, hnested, h.assemble, ← ProcessGroup.decodeTree_eq]

theorem processGroup (layout : Layout) :
    ProcessGroup.ofElement layout (change e) = .ofElement layout e := by
  rw [ProcessGroup.ofElement_eq_decodeTree, h.decodeTree, ProcessGroup.ofElement_eq_decodeTree]

theorem versionOf (group : Option Element) :
    Model.versionOf (group.map change) = Model.versionOf group := by
  cases group with
  | none => rfl
  | some g =>
      rw [Option.map_some, Model.versionOf, Option.bind_some, h.attribute?, Model.versionOf,
        Option.bind_some]

theorem map_processGroup (layout : Layout) (group : Option Element) :
    (group.map change).map (ProcessGroup.ofElement layout) =
      group.map (ProcessGroup.ofElement layout) := by
  rw [Option.map_map]
  congr 1
  funext g
  exact h.processGroup g layout

end Element.KeepsFields
end FlowConfig
