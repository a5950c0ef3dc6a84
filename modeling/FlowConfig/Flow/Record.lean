import FlowConfig.Bundle.Coordinate
import FlowConfig.Dictionary
import FlowConfig.Number.Binary64

/-!
# Records of a flow

What a flow declares, detached from the document it was read from.  Texts that
may be missing are optional; a property without a value is explicitly unset.
-/

namespace FlowConfig

abbrev Properties := Dictionary (Option String)

structure Point where
  x : Binary64
  y : Binary64
deriving DecidableEq, Repr

structure Extent where
  width : Binary64
  height : Binary64
deriving DecidableEq, Repr

structure Processor where
  id : String := ""
  name : String := ""
  componentType : String := ""
  bundle : Option Coordinate := none
  position : Option Point := none
  comments : Option String := none
  properties : Properties := .empty
  maxConcurrentTasks : Option Int := none
  schedulingPeriod : Option String := none
  schedulingStrategy : Option String := none
  scheduledState : Option String := none
  autoTerminatedRelationships : List String := []
deriving DecidableEq, Repr

structure Connection where
  id : String := ""
  name : String := ""
  sourceId : String := ""
  sourceGroupId : String := ""
  sourceType : String := ""
  destinationId : String := ""
  destinationGroupId : String := ""
  destinationType : String := ""
  relationships : List String := []
  bendPoints : List Point := []
  maxWorkQueueSize : Option Int := none
  maxWorkQueueDataSize : Option String := none
  flowFileExpiration : Option String := none
  prioritizers : List String := []
deriving DecidableEq, Repr

structure Funnel where
  id : String := ""
  position : Option Point := none
deriving DecidableEq, Repr

structure Label where
  id : String := ""
  value : Option String := none
  position : Option Point := none
  size : Option Extent := none
deriving DecidableEq, Repr

structure Port where
  id : String := ""
  name : String := ""
  position : Option Point := none
  comments : Option String := none
  scheduledState : Option String := none
  maxConcurrentTasks : Option Int := none
deriving DecidableEq, Repr

structure RemotePort where
  id : String := ""
  targetId : Option String := none
  name : String := ""
  comments : Option String := none
  maxConcurrentTasks : Option Int := none
  useCompression : Bool := false
  transmitting : Bool := false
deriving DecidableEq, Repr

structure RemoteProcessGroup where
  id : String := ""
  name : String := ""
  targetUris : Option String := none
  position : Option Point := none
  comments : Option String := none
  communicationsTimeout : Option String := none
  yieldDuration : Option String := none
  transportProtocol : Option String := none
  transmitting : Bool := false
  inputPorts : List RemotePort := []
  outputPorts : List RemotePort := []
deriving DecidableEq, Repr

structure ReportingTask where
  id : String := ""
  name : String := ""
  componentType : String := ""
  bundle : Option Coordinate := none
  comments : Option String := none
  properties : Properties := .empty
  schedulingPeriod : Option String := none
  schedulingStrategy : Option String := none
  scheduledState : Option String := none
deriving DecidableEq, Repr

structure ControllerService where
  id : String := ""
  name : String := ""
  componentType : String := ""
  bundle : Option Coordinate := none
  comments : Option String := none
  properties : Properties := .empty
  enabled : Bool := false
deriving DecidableEq, Repr

/-!
# Groups

A group holds components and further groups.  A group that was decoded always
has contents.
-/

mutual

structure ProcessGroup where
  id : String := ""
  name : String := ""
  comments : Option String := none
  position : Option Point := none
  declaredVariables : Properties := .empty
  contents : Option Contents := none

structure Contents where
  processors : List Processor := []
  connections : List Connection := []
  funnels : List Funnel := []
  labels : List Label := []
  inputPorts : List Port := []
  outputPorts : List Port := []
  processGroups : List ProcessGroup := []
  remoteProcessGroups : List RemoteProcessGroup := []
  controllerServices : List ControllerService := []

end

instance : Inhabited ProcessGroup := ⟨{}⟩

namespace ProcessGroup

def nested (g : ProcessGroup) : List ProcessGroup :=
  match g.contents with
  | none => []
  | some c => c.processGroups

/-!
# Size

The number of groups bounds every walk over nested groups.
-/

mutual

def groupCount : ProcessGroup -> Nat
  | ⟨_, _, _, _, _, contents⟩ => contentsCount contents + 1

def contentsCount : Option Contents -> Nat
  | none => 0
  | some ⟨_, _, _, _, _, _, groups, _, _⟩ => totalCount groups

def totalCount : List ProcessGroup -> Nat
  | [] => 0
  | g :: rest => groupCount g + totalCount rest

end

theorem groupCount_eq (g : ProcessGroup) : groupCount g = totalCount g.nested + 1 := by
  rcases g with ⟨_, _, _, _, _, _ | ⟨_, _, _, _, _, _, _, _, _⟩⟩ <;>
    simp [groupCount, contentsCount, nested, totalCount]

@[simp] theorem totalCount_nil : totalCount [] = 0 := by
  simp [totalCount]

@[simp] theorem totalCount_cons (g : ProcessGroup) (rest : List ProcessGroup) :
    totalCount (g :: rest) = groupCount g + totalCount rest := by
  simp [totalCount]

@[simp] theorem totalCount_append (gs hs : List ProcessGroup) :
    totalCount (gs ++ hs) = totalCount gs + totalCount hs := by
  induction gs with
  | nil => simp
  | cons g rest ih =>
      simp [ih]
      omega

end ProcessGroup
end FlowConfig
