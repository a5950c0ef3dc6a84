import FlowConfig.Document
import FlowConfig.Flow.Decoding

/-!
# Models

The part of a document that decides what is loaded: its root group, its first
reporting task and its first controller service.  The version is declared on
the root group and selects the layout for the whole model.
-/

namespace FlowConfig

structure Model where
  version : Option Version
  layout : Layout
  rootGroup : Option ProcessGroup
  reportingTask : Option ReportingTask
  controllerService : Option ControllerService

namespace Model

def versionOf (rootGroup : Option Element) : Option Version :=
  rootGroup.bind fun g => Version.ofAttribute? (g.attribute? Version.attributeName)

def ofRoot (root : Element) : Model :=
  let group := root.descendant? "rootGroup"
  let version := versionOf group
  let layout := Layout.ofVersion version
  { version := version
    layout := layout
    rootGroup := group.map (ProcessGroup.ofElement layout)
    reportingTask := (root.descendant? "reportingTask").map ReportingTask.ofElement
    controllerService := (root.descendant? "controllerService").map ControllerService.ofElement }

def ofDocument (d : Document) : Model :=
  ofRoot d.root

end Model

/-!
# Counting components
-/

/-- How many components of each kind some groups hold. -/
structure Tally where
  processors : Nat
  connections : Nat
  funnels : Nat
  labels : Nat
  inputPorts : Nat
  outputPorts : Nat
  processGroups : Nat
  remoteProcessGroups : Nat
  controllerServices : Nat
deriving DecidableEq, Repr

namespace Tally

def zero : Tally := ⟨0, 0, 0, 0, 0, 0, 0, 0, 0⟩

def add (s t : Tally) : Tally where
  processors := s.processors + t.processors
  connections := s.connections + t.connections
  funnels := s.funnels + t.funnels
  labels := s.labels + t.labels
  inputPorts := s.inputPorts + t.inputPorts
  outputPorts := s.outputPorts + t.outputPorts
  processGroups := s.processGroups + t.processGroups
  remoteProcessGroups := s.remoteProcessGroups + t.remoteProcessGroups
  controllerServices := s.controllerServices + t.controllerServices

def ofContents (c : Contents) : Tally where
  processors := c.processors.length
  connections := c.connections.length
  funnels := c.funnels.length
  labels := c.labels.length
  inputPorts := c.inputPorts.length
  outputPorts := c.outputPorts.length
  processGroups := c.processGroups.length
  remoteProcessGroups := c.remoteProcessGroups.length
  controllerServices := c.controllerServices.length

def ofGroup (g : ProcessGroup) : Tally :=
  match g.contents with
  | some c => ofContents c
  | none => zero

/-- The components of the pending groups and of all groups inside them, on top
of those counted before. -/
def countFrom (before : Tally) (pending : List ProcessGroup) : Tally :=
  match pending with
  | [] => before
  | g :: rest => countFrom (before.add (ofGroup g)) (g.nested ++ rest)
termination_by ProcessGroup.totalCount pending
decreasing_by
  simp only [ProcessGroup.totalCount_append, ProcessGroup.totalCount_cons,
    ProcessGroup.groupCount_eq g]
  omega

def display (t : Tally) : String :=
  s!"{t.processors} processors, {t.connections} connections, {t.funnels} funnels, "
    ++ s!"{t.labels} labels, {t.inputPorts} input ports, {t.outputPorts} output ports, "
    ++ s!"{t.processGroups} process groups, "
    ++ s!"{t.remoteProcessGroups} remote process groups, "
    ++ s!"{t.controllerServices} group controller services"

end Tally

structure Summary where
  tally : Tally
  reportingTask : Bool
  controllerService : Bool
deriving DecidableEq, Repr

/-- The text counts the components of the groups and leaves out the rest. -/
def Summary.display (s : Summary) : String :=
  s.tally.display

def Model.summary (m : Model) : Summary where
  tally := Tally.countFrom Tally.zero m.rootGroup.toList
  reportingTask := m.reportingTask.isSome
  controllerService := m.controllerService.isSome

end FlowConfig
