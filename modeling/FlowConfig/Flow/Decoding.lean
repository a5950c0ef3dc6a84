import FlowConfig.Element
import FlowConfig.Flow.Layout
import FlowConfig.Flow.Record
import FlowConfig.Text.Blank
import FlowConfig.Text.Numeral

/-!
# Decoding elements into records

Decoding cannot fail.  It trusts that the document was validated; whatever is
missing or unreadable takes its default.  Of several children with one name,
where a record has room for one, the first counts.
-/

namespace FlowConfig

/-!
# Fields
-/

namespace Element

/-- The text of the first child with the name, or the empty text. -/
def fieldText (e : Element) (name : String) : String :=
  (e.childText? name).getD ""

def allTexts (e : Element) (name : String) : List String :=
  (e.childrenNamed name).map text

/-- The number a child's trimmed text denotes, if it fits a machine integer. -/
def integer? (e : Element) (name : String) : Option Int :=
  (e.childText? name).bind fun t => Text.readInt64 (Text.trimChars t.toList)

def flag (e : Element) (name : String) : Bool :=
  match (e.childText? name).map Text.trim with
  | some t => t == "true" || t == "1"
  | none => false

def decimalAttribute (e : Element) (key : String) : Binary64 :=
  ((e.attribute? key).bind fun v => Binary64.read (Text.trimChars v.toList)).getD Binary64.zero

def point (e : Element) : Point :=
  ⟨e.decimalAttribute "x", e.decimalAttribute "y"⟩

def position? (e : Element) : Option Point :=
  (e.child? "position").map point

def extent (e : Element) : Extent :=
  ⟨e.decimalAttribute "width", e.decimalAttribute "height"⟩

def coordinate (e : Element) : Coordinate :=
  ⟨Text.trim (e.fieldText "group"), Text.trim (e.fieldText "artifact"),
    Text.trim (e.fieldText "version")⟩

def bundle? (e : Element) : Option Coordinate :=
  (e.child? "bundle").map coordinate

def properties (e : Element) : Properties :=
  Dictionary.ofList ((e.childrenNamed "property").map fun p =>
    (p.fieldText "name", p.childText? "value"))

/-- Variables are written in attributes; one without a name declares nothing. -/
def declaredVariables (e : Element) : Properties :=
  Dictionary.ofList ((e.childrenNamed "variable").filterMap fun v =>
    (v.attribute? "name").map fun name => (name, v.attribute? "value"))

end Element

/-!
# Components
-/

def Processor.ofElement (e : Element) : Processor where
  id := e.fieldText "id"
  name := e.fieldText "name"
  componentType := e.fieldText "class"
  bundle := e.bundle?
  position := e.position?
  comments := e.childText? "comment"
  properties := e.properties
  maxConcurrentTasks := e.integer? "maxConcurrentTasks"
  schedulingPeriod := e.childText? "schedulingPeriod"
  schedulingStrategy := e.childText? "schedulingStrategy"
  scheduledState := e.childText? "scheduledState"
  autoTerminatedRelationships := e.allTexts "autoTerminatedRelationship"

def Connection.ofElement (e : Element) : Connection where
  id := e.fieldText "id"
  name := e.fieldText "name"
  sourceId := e.fieldText "sourceId"
  sourceGroupId := e.fieldText "sourceGroupId"
  sourceType := e.fieldText "sourceType"
  destinationId := e.fieldText "destinationId"
  destinationGroupId := e.fieldText "destinationGroupId"
  destinationType := e.fieldText "destinationType"
  relationships := e.allTexts "relationship"
  bendPoints :=
    match e.child? "bendPoints" with
    | some points => (points.childrenNamed "bendPoint").map Element.point
    | none => []
  maxWorkQueueSize := e.integer? "maxWorkQueueSize"
  maxWorkQueueDataSize := e.childText? "maxWorkQueueDataSize"
  flowFileExpiration := e.childText? "flowFileExpiration"
  prioritizers := e.allTexts "queuePrioritizerClass"

def Funnel.ofElement (e : Element) : Funnel where
  id := e.fieldText "id"
  position := e.position?

def Label.ofElement (e : Element) : Label where
  id := e.fieldText "id"
  value := e.childText? "value"
  position := e.position?
  size := (e.child? "size").map Element.extent

def Port.ofElement (e : Element) : Port where
  id := e.fieldText "id"
  name := e.fieldText "name"
  position := e.position?
  comments := e.childText? "comments"
  scheduledState := e.childText? "scheduledState"
  maxConcurrentTasks := e.integer? "maxConcurrentTasks"

def RemotePort.ofElement (e : Element) : RemotePort where
  id := e.fieldText "id"
  targetId := e.childText? "targetId"
  name := e.fieldText "name"
  comments := e.childText? "comments"
  maxConcurrentTasks := e.integer? "maxConcurrentTasks"
  useCompression := e.flag "useCompression"
  transmitting := e.flag "transmitting"

/-- A list of addresses goes before the single address of older flows. -/
def RemoteProcessGroup.ofElement (e : Element) : RemoteProcessGroup where
  id := e.fieldText "id"
  name := e.fieldText "name"
  targetUris := (e.childText? "urls").or (e.childText? "url")
  position := e.position?
  comments := e.childText? "comment"
  communicationsTimeout := e.childText? "timeout"
  yieldDuration := e.childText? "yieldPeriod"
  transportProtocol := e.childText? "transportProtocol"
  transmitting := e.flag "transmitting"
  inputPorts := (e.childrenNamed "inputPort").map RemotePort.ofElement
  outputPorts := (e.childrenNamed "outputPort").map RemotePort.ofElement

def ReportingTask.ofElement (e : Element) : ReportingTask where
  id := e.fieldText "id"
  name := e.fieldText "name"
  componentType := e.fieldText "class"
  bundle := e.bundle?
  comments := e.childText? "comment"
  properties := e.properties
  schedulingPeriod := e.childText? "schedulingPeriod"
  schedulingStrategy := e.childText? "schedulingStrategy"
  scheduledState := e.childText? "scheduledState"

def ControllerService.ofElement (e : Element) : ControllerService where
  id := e.fieldText "id"
  name := e.fieldText "name"
  componentType := e.fieldText "class"
  bundle := e.bundle?
  comments := e.childText? "comment"
  properties := e.properties
  enabled := e.flag "enabled"

/-!
# Groups

Groups nest to any depth.  They are gathered on an array that grows while it is
read, each with the index of the group around it, and decoded one by one.  From
the last to the first every group is then put into the group around it, which
has a lower index.
-/

namespace ProcessGroup

def nestedElements (e : Element) : List Element :=
  e.childrenNamed "processGroup"

theorem totalSize_nestedElements (e : Element) :
    Element.totalSize (nestedElements e) < e.size := by
  rw [Element.size_eq]
  suffices h : forall es : List Element,
      Element.totalSize (es.filter fun c => c.name == "processGroup") ≤ Element.totalSize es by
    have hself := h e.children
    simp only [nestedElements, Element.childrenNamed]
    omega
  intro es
  induction es with
  | nil => simp
  | cons c rest ih =>
      rw [List.filter_cons]
      split
      · simp only [Element.totalSize_cons]
        omega
      · simp only [Element.totalSize_cons]
        omega

/-- A group element and the index of the group around it. -/
structure Gathered where
  element : Element
  parent : Option Nat

def gatheredIn (index : Nat) (e : Element) : List Gathered :=
  (nestedElements e).map fun c => ⟨c, some index⟩

theorem map_element_gatheredIn (index : Nat) (e : Element) :
    (gatheredIn index e).map Gathered.element = nestedElements e := by
  simp [gatheredIn, Function.comp_def]

/-- Adds to the gathered groups all those inside the groups from index `next`
on. -/
def gatherFrom (groups : Array Gathered) (next : Nat) : Array Gathered :=
  if h : next < groups.size then
    gatherFrom (groups ++ gatheredIn next groups[next].element) (next + 1)
  else groups
termination_by Element.totalSize ((groups.toList.drop next).map Gathered.element)
decreasing_by
  have hlt : next < groups.toList.length := by simpa using h
  have hle : next + 1 ≤ groups.toList.length := hlt
  have hsmall := totalSize_nestedElements groups[next].element
  rw [Array.toList_appendList, List.drop_append_of_le_length hle,
    List.drop_eq_getElem_cons hlt, List.map_append, List.map_cons, map_element_gatheredIn,
    Element.totalSize_append, Element.totalSize_cons, Array.getElem_toList]
  omega

/-- The group and all groups inside it; a group comes after the one around
it. -/
def gather (e : Element) : Array Gathered :=
  gatherFrom #[⟨e, none⟩] 0

/-- What a group element declares itself, given the decoded groups inside it. -/
def assemble (layout : Layout) (e : Element) (nested : List ProcessGroup) : ProcessGroup where
  id := e.fieldText "id"
  name := e.fieldText "name"
  comments := e.childText? "comment"
  position := e.position?
  declaredVariables :=
    if layout.groupVariables then e.declaredVariables else Dictionary.empty
  contents := some {
    processors := (e.childrenNamed "processor").map Processor.ofElement
    connections := (e.childrenNamed "connection").map Connection.ofElement
    funnels := (e.childrenNamed "funnel").map Funnel.ofElement
    labels := (e.childrenNamed "label").map Label.ofElement
    inputPorts := (e.childrenNamed "inputPort").map Port.ofElement
    outputPorts := (e.childrenNamed "outputPort").map Port.ofElement
    processGroups := nested
    remoteProcessGroups :=
      (e.childrenNamed "remoteProcessGroup").map RemoteProcessGroup.ofElement
    controllerServices :=
      if layout.groupServices
      then (e.childrenNamed "controllerService").map ControllerService.ofElement
      else [] }

/-- Puts a group in front of those already in the group around it.  Groups come
from the last one back, so they end up in document order and no list has to be
turned round when its owner is done. -/
def putInside (inner outer : ProcessGroup) : ProcessGroup :=
  let contents := outer.contents.getD {}
  { outer with
    contents := some { contents with processGroups := inner :: contents.processGroups } }

theorem size_pop_lt_of_back?_eq_some {A : Type} {as : Array A} {a : A}
    (h : as.back? = some a) : as.pop.size < as.size := by
  have hpos : 0 < as.size := by
    apply Nat.pos_of_ne_zero
    intro hzero
    simp [Array.back?, hzero] at h
  rw [Array.size_pop]
  exact Nat.sub_lt hpos Nat.one_pos

/-- Puts the last group into the group around it until none is left; a group
with nothing around it is the `root`.  No answer if an index is out of range. -/
def attachFrom (groups : Array Gathered) (records : Array ProcessGroup)
    (root : Option ProcessGroup) : Option ProcessGroup :=
  match _hback : records.back? with
  | none => some (root.getD default)
  | some record =>
      let records' := records.pop
      match groups[records'.size]? with
      | none => none
      | some ⟨_, none⟩ => attachFrom groups records' (some record)
      | some ⟨_, some parent⟩ =>
          if parent < records'.size then
            attachFrom groups (records'.modify parent (putInside record)) root
          else none
termination_by records.size
decreasing_by
  · exact size_pop_lt_of_back?_eq_some _hback
  · rw [Array.size_modify]
    exact size_pop_lt_of_back?_eq_some _hback

/-- Decodes a group and all groups inside it; no answer if an index is out of
range, which never happens. -/
def decode? (layout : Layout) (e : Element) : Option ProcessGroup :=
  let groups := gather e
  attachFrom groups (groups.map fun g => assemble layout g.element []) none

def ofElement (layout : Layout) (e : Element) : ProcessGroup :=
  (decode? layout e).getD default

end ProcessGroup
end FlowConfig
