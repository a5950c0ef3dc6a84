import FlowConfig.Schema.Basic

/-!
# The flow configuration schema

The element types of a flow: the controller at the top, process groups with the
components inside them, and the typed values those components carry.  Styles,
version control information and templates are open content.
-/

namespace FlowConfig
namespace FlowSchema

open ChildDeclaration AttributeDeclaration

def revision : String := "1.3"

def ofElements (name : String) (attributes : List AttributeDeclaration)
    (children : List ChildDeclaration) : ElementType :=
  ⟨name, attributes, .elements children⟩

/-!
# Values
-/

def valueTypes : List ElementType :=
  [⟨"StringType", [], .text .string⟩,
   ⟨"IntegerType", [], .text .integer⟩,
   ⟨"BooleanType", [], .text .boolean⟩,
   ⟨"PositionType", [needed "x" .decimal, needed "y" .decimal], .empty⟩,
   ⟨"SizeType", [needed "width" .decimal, needed "height" .decimal], .empty⟩,
   ⟨"VariableType",
    [needed "name" .string, allowed "value" .string], .empty⟩,
   ⟨"AnyType", [], .any⟩]

/-!
# The controller
-/

def controllerTypes : List ElementType :=
  [ofElements "FlowControllerType" [allowed "encoding-version" .string]
    [atMostOne "maxThreadCount" "IntegerType",
     atMostOne "maxTimerDrivenThreadCount" "IntegerType",
     atMostOne "maxEventDrivenThreadCount" "IntegerType",
     atMostOne "registries" "RegistriesType",
     one "rootGroup" "RootProcessGroupType",
     atMostOne "controllerServices" "ControllerServicesType",
     atMostOne "reportingTasks" "ReportingTasksType"],
   ofElements "RegistriesType" [] [many "flowRegistry" "FlowRegistryType"],
   ofElements "FlowRegistryType" []
    [one "id" "StringType",
     one "name" "StringType",
     one "url" "StringType",
     atMostOne "description" "StringType"],
   ofElements "ControllerServicesType" [] [many "controllerService" "ControllerServiceType"],
   ofElements "ReportingTasksType" [] [many "reportingTask" "ReportingTaskType"]]

/-!
# Groups
-/

def groupChildren : List ChildDeclaration :=
  [one "id" "StringType",
   atMostOne "versionedComponentId" "StringType",
   one "name" "StringType",
   atMostOne "position" "PositionType",
   atMostOne "comment" "StringType",
   atMostOne "versionControlInformation" "AnyType",
   many "processor" "ProcessorType",
   many "inputPort" "PortType",
   many "outputPort" "PortType",
   many "label" "LabelType",
   many "funnel" "FunnelType",
   many "processGroup" "ProcessGroupType",
   many "remoteProcessGroup" "RemoteProcessGroupType",
   many "connection" "ConnectionType",
   many "controllerService" "ControllerServiceType",
   many "template" "AnyType",
   many "variable" "VariableType"]

def groupTypes : List ElementType :=
  [ofElements "RootProcessGroupType"
    [allowed "encoding-version" .string] groupChildren,
   ofElements "ProcessGroupType" [] groupChildren]

/-!
# Components
-/

def extensionChildren : List ChildDeclaration :=
  [one "id" "StringType",
   atMostOne "versionedComponentId" "StringType",
   one "name" "StringType",
   one "class" "StringType",
   atMostOne "bundle" "BundleType",
   many "property" "PropertyType"]

def extensionTypes : List ElementType :=
  [ofElements "ProcessorType" []
    (extensionChildren ++
      [atMostOne "position" "PositionType",
       atMostOne "styles" "AnyType",
       atMostOne "comment" "StringType",
       atMostOne "maxConcurrentTasks" "IntegerType",
       atMostOne "schedulingPeriod" "StringType",
       atMostOne "penalizationPeriod" "StringType",
       atMostOne "yieldPeriod" "StringType",
       atMostOne "bulletinLevel" "StringType",
       atMostOne "lossTolerant" "BooleanType",
       atMostOne "scheduledState" "StringType",
       atMostOne "schedulingStrategy" "StringType",
       atMostOne "executionNode" "StringType",
       atMostOne "runDurationNanos" "IntegerType",
       atMostOne "annotationData" "StringType",
       many "autoTerminatedRelationship" "StringType"]),
   ofElements "ControllerServiceType" []
    (extensionChildren ++
      [atMostOne "comment" "StringType",
       atMostOne "enabled" "BooleanType",
       atMostOne "annotationData" "StringType"]),
   ofElements "ReportingTaskType" []
    (extensionChildren ++
      [atMostOne "comment" "StringType",
       atMostOne "schedulingPeriod" "StringType",
       atMostOne "scheduledState" "StringType",
       atMostOne "schedulingStrategy" "StringType",
       atMostOne "annotationData" "StringType"]),
   ofElements "BundleType" []
    [one "group" "StringType",
     one "artifact" "StringType",
     one "version" "StringType"],
   ofElements "PropertyType" []
    [one "name" "StringType",
     atMostOne "value" "StringType"]]

def canvasTypes : List ElementType :=
  [ofElements "PortType" []
    [one "id" "StringType",
     atMostOne "versionedComponentId" "StringType",
     one "name" "StringType",
     atMostOne "position" "PositionType",
     atMostOne "comments" "StringType",
     atMostOne "scheduledState" "StringType",
     atMostOne "maxConcurrentTasks" "IntegerType",
     many "userAccessControl" "StringType",
     many "groupAccessControl" "StringType"],
   ofElements "LabelType" []
    [one "id" "StringType",
     atMostOne "versionedComponentId" "StringType",
     atMostOne "position" "PositionType",
     atMostOne "size" "SizeType",
     atMostOne "styles" "AnyType",
     atMostOne "value" "StringType"],
   ofElements "FunnelType" []
    [one "id" "StringType",
     atMostOne "versionedComponentId" "StringType",
     atMostOne "position" "PositionType"]]

def remoteTypes : List ElementType :=
  [ofElements "RemoteProcessGroupType" []
    [one "id" "StringType",
     atMostOne "versionedComponentId" "StringType",
     one "name" "StringType",
     atMostOne "position" "PositionType",
     atMostOne "comment" "StringType",
     atMostOne "url" "StringType",
     atMostOne "urls" "StringType",
     atMostOne "timeout" "StringType",
     atMostOne "yieldPeriod" "StringType",
     atMostOne "transmitting" "BooleanType",
     atMostOne "transportProtocol" "StringType",
     atMostOne "proxyHost" "StringType",
     atMostOne "proxyPort" "IntegerType",
     atMostOne "proxyUser" "StringType",
     atMostOne "proxyPassword" "StringType",
     atMostOne "networkInterface" "StringType",
     many "inputPort" "RemotePortType",
     many "outputPort" "RemotePortType"],
   ofElements "RemotePortType" []
    [one "id" "StringType",
     atMostOne "versionedComponentId" "StringType",
     atMostOne "targetId" "StringType",
     one "name" "StringType",
     atMostOne "position" "PositionType",
     atMostOne "comments" "StringType",
     atMostOne "scheduledState" "StringType",
     atMostOne "maxConcurrentTasks" "IntegerType",
     atMostOne "useCompression" "BooleanType",
     atMostOne "batchCount" "IntegerType",
     atMostOne "batchSize" "StringType",
     atMostOne "batchDuration" "StringType",
     atMostOne "connected" "BooleanType",
     atMostOne "transmitting" "BooleanType"]]

def connectionTypes : List ElementType :=
  [ofElements "ConnectionType" []
    [one "id" "StringType",
     atMostOne "versionedComponentId" "StringType",
     one "name" "StringType",
     atMostOne "bendPoints" "BendPointsType",
     atMostOne "labelIndex" "IntegerType",
     atMostOne "zIndex" "IntegerType",
     one "sourceId" "StringType",
     one "sourceGroupId" "StringType",
     one "sourceType" "StringType",
     one "destinationId" "StringType",
     one "destinationGroupId" "StringType",
     one "destinationType" "StringType",
     many "relationship" "StringType",
     atMostOne "maxWorkQueueSize" "IntegerType",
     atMostOne "maxWorkQueueDataSize" "StringType",
     atMostOne "flowFileExpiration" "StringType",
     many "queuePrioritizerClass" "StringType",
     atMostOne "loadBalanceStrategy" "StringType",
     atMostOne "partitioningAttribute" "StringType",
     atMostOne "loadBalanceCompression" "StringType"],
   ofElements "BendPointsType" [] [many "bendPoint" "PositionType"]]

end FlowSchema

/-- The schema every flow configuration is validated against. -/
def flowSchema : Schema :=
  (Schema.new FlowSchema.revision "flowController" "FlowControllerType").withTypes
    (FlowSchema.valueTypes ++ FlowSchema.controllerTypes ++ FlowSchema.groupTypes ++
      FlowSchema.extensionTypes ++ FlowSchema.canvasTypes ++ FlowSchema.remoteTypes ++
      FlowSchema.connectionTypes)

end FlowConfig
