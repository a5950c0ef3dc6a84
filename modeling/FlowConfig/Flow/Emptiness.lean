import FlowConfig.Document.Reading
import FlowConfig.Flow.Model

/-!
# Empty flows

A flow is empty when its root group holds no components, and its reporting task
and its controller service are missing or unnamed.  Input ports and the services
of a group do not count as components.
-/

namespace FlowConfig

def Contents.isEmpty (c : Contents) : Bool :=
  c.processors.isEmpty && c.connections.isEmpty && c.funnels.isEmpty && c.labels.isEmpty
    && c.outputPorts.isEmpty && c.processGroups.isEmpty && c.remoteProcessGroups.isEmpty

def ProcessGroup.isEmpty (g : ProcessGroup) : Bool :=
  match g.contents with
  | none => true
  | some c => c.isEmpty

def ReportingTask.isUnnamed (t : ReportingTask) : Bool :=
  Text.allBlank t.name

def ControllerService.isUnnamed (s : ControllerService) : Bool :=
  Text.allBlank s.name

namespace Model

def rootGroupEmpty (m : Model) : Bool :=
  m.rootGroup.all ProcessGroup.isEmpty

def reportingTaskEmpty (m : Model) : Bool :=
  m.reportingTask.all ReportingTask.isUnnamed

def controllerServiceEmpty (m : Model) : Bool :=
  m.controllerService.all ControllerService.isUnnamed

def isEmpty (m : Model) : Bool :=
  m.rootGroupEmpty && m.reportingTaskEmpty && m.controllerServiceEmpty

end Model

/-- Whether the text of a flow configuration describes an empty flow; the empty
text does. -/
def isEmptyFlow (input : Bytes) : Except Issue Bool :=
  match Document.parse input with
  | .error issue => .error issue
  | .ok none => .ok true
  | .ok (some d) => .ok (Model.ofDocument d).isEmpty

end FlowConfig
