import FlowConfig.Proofs.Flow.Conservation
import FlowConfig.Proofs.Number.Decimal
import FlowConfig.Proofs.Schema.Field
import Mathlib.Data.List.Forall2

/-!
# Where records are read from

Decoding never fails: a missing field and an unreadable number take a default.
In a valid document no default is taken where the schema asks for a value.  Here
every record is related to its element, field by field, without the decoder.
-/

namespace FlowConfig

namespace Element

/-!
# Fields
-/

/-- One child has the name, and it is as asked. -/
def HasSole (e : Element) (name : String) (P : Element -> Prop) : Prop :=
  exists c, e.childrenNamed name = [c] ∧ P c

/-- The text of a required field. -/
def HasText (e : Element) (name text : String) : Prop :=
  e.HasSole name fun c => c.text = text

/-- A field that is missing together with its child, or that is read from the one
child of the name. -/
inductive HasOptional {A : Type} (R : Element -> A -> Prop) (e : Element) (name : String) :
    Option A -> Prop where
  | missing : e.childrenNamed name = [] -> HasOptional R e name none
  | present {c : Element} {a : A} :
      e.childrenNamed name = [c] -> R c a -> HasOptional R e name (some a)

inductive Spells : Bool -> String -> Prop where
  | trueWord : Spells true "true"
  | trueDigit : Spells true "1"
  | falseWord : Spells false "false"
  | falseDigit : Spells false "0"

/-- A flag that is missing is not set; one that is present has the value its text
denotes. -/
def HasFlag (e : Element) (name : String) (value : Bool) : Prop :=
  (e.childrenNamed name = [] ∧ value = false) ∨
    e.HasSole name fun c => Spells value (Text.trim c.text)

def HasNumber (e : Element) (key : String) (x : Binary64) : Prop :=
  exists value, e.attribute? key = some value ∧
    Binary64.read (Text.trimChars value.toList) = some x ∧ x.isNaN = false

end Element

/-!
# Records
-/

structure Point.ReadFrom (e : Element) (p : Point) : Prop where
  x : e.HasNumber "x" p.x
  y : e.HasNumber "y" p.y

structure Extent.ReadFrom (e : Element) (size : Extent) : Prop where
  width : e.HasNumber "width" size.width
  height : e.HasNumber "height" size.height

structure Coordinate.ReadFrom (e : Element) (c : Coordinate) : Prop where
  group : e.HasSole "group" fun child => Text.trim child.text = c.group
  artifact : e.HasSole "artifact" fun child => Text.trim child.text = c.artifact
  version : e.HasSole "version" fun child => Text.trim child.text = c.version

structure PropertyReadFrom (e : Element) (entry : String × Option String) : Prop where
  name : e.HasText "name" entry.1
  value : e.HasOptional (fun c text => c.text = text) "value" entry.2

/-- Properties are read one by one; of two with one name the later one counts. -/
def PropertiesReadFrom (e : Element) (properties : Properties) : Prop :=
  exists entries, List.Forall₂ PropertyReadFrom (e.childrenNamed "property") entries ∧
    properties = Dictionary.ofList entries

structure Processor.ReadFrom (e : Element) (p : Processor) : Prop where
  id : e.HasText "id" p.id
  name : e.HasText "name" p.name
  componentType : e.HasText "class" p.componentType
  bundle : e.HasOptional Coordinate.ReadFrom "bundle" p.bundle
  position : e.HasOptional Point.ReadFrom "position" p.position
  properties : PropertiesReadFrom e p.properties

/-- Bend points stand in an element of their own, which may be missing. -/
structure Connection.ReadFrom (e : Element) (c : Connection) : Prop where
  id : e.HasText "id" c.id
  name : e.HasText "name" c.name
  sourceId : e.HasText "sourceId" c.sourceId
  sourceGroupId : e.HasText "sourceGroupId" c.sourceGroupId
  sourceType : e.HasText "sourceType" c.sourceType
  destinationId : e.HasText "destinationId" c.destinationId
  destinationGroupId : e.HasText "destinationGroupId" c.destinationGroupId
  destinationType : e.HasText "destinationType" c.destinationType
  bendPoints : (e.childrenNamed "bendPoints" = [] ∧ c.bendPoints = []) ∨
    e.HasSole "bendPoints" fun points =>
      List.Forall₂ Point.ReadFrom (points.childrenNamed "bendPoint") c.bendPoints

structure Funnel.ReadFrom (e : Element) (f : Funnel) : Prop where
  id : e.HasText "id" f.id
  position : e.HasOptional Point.ReadFrom "position" f.position

structure Label.ReadFrom (e : Element) (l : Label) : Prop where
  id : e.HasText "id" l.id
  position : e.HasOptional Point.ReadFrom "position" l.position
  size : e.HasOptional Extent.ReadFrom "size" l.size

structure Port.ReadFrom (e : Element) (p : Port) : Prop where
  id : e.HasText "id" p.id
  name : e.HasText "name" p.name
  position : e.HasOptional Point.ReadFrom "position" p.position

structure RemotePort.ReadFrom (e : Element) (p : RemotePort) : Prop where
  id : e.HasText "id" p.id
  name : e.HasText "name" p.name
  useCompression : e.HasFlag "useCompression" p.useCompression
  transmitting : e.HasFlag "transmitting" p.transmitting

structure RemoteProcessGroup.ReadFrom (e : Element) (g : RemoteProcessGroup) : Prop where
  id : e.HasText "id" g.id
  name : e.HasText "name" g.name
  position : e.HasOptional Point.ReadFrom "position" g.position
  transmitting : e.HasFlag "transmitting" g.transmitting
  inputPorts : List.Forall₂ RemotePort.ReadFrom (e.childrenNamed "inputPort") g.inputPorts
  outputPorts : List.Forall₂ RemotePort.ReadFrom (e.childrenNamed "outputPort") g.outputPorts

structure ControllerService.ReadFrom (e : Element) (s : ControllerService) : Prop where
  id : e.HasText "id" s.id
  name : e.HasText "name" s.name
  componentType : e.HasText "class" s.componentType
  bundle : e.HasOptional Coordinate.ReadFrom "bundle" s.bundle
  enabled : e.HasFlag "enabled" s.enabled
  properties : PropertiesReadFrom e s.properties

/-- The components of a group, other groups apart.  Whether services are among
them depends on the layout. -/
structure Contents.ReadFrom (layout : Layout) (e : Element) (c : Contents) : Prop where
  processors : List.Forall₂ Processor.ReadFrom (e.childrenNamed "processor") c.processors
  connections : List.Forall₂ Connection.ReadFrom (e.childrenNamed "connection") c.connections
  funnels : List.Forall₂ Funnel.ReadFrom (e.childrenNamed "funnel") c.funnels
  labels : List.Forall₂ Label.ReadFrom (e.childrenNamed "label") c.labels
  inputPorts : List.Forall₂ Port.ReadFrom (e.childrenNamed "inputPort") c.inputPorts
  outputPorts : List.Forall₂ Port.ReadFrom (e.childrenNamed "outputPort") c.outputPorts
  remoteProcessGroups : List.Forall₂ RemoteProcessGroup.ReadFrom
    (e.childrenNamed "remoteProcessGroup") c.remoteProcessGroups
  controllerServices : List.Forall₂ ControllerService.ReadFrom
    (if layout.groupServices then e.childrenNamed "controllerService" else [])
      c.controllerServices

inductive ProcessGroup.ReadFrom (layout : Layout) : Element -> ProcessGroup -> Prop where
  | intro {e : Element} {g : ProcessGroup} {c : Contents} :
      e.HasText "id" g.id -> e.HasText "name" g.name ->
      e.HasOptional Point.ReadFrom "position" g.position ->
      g.contents = some c -> c.ReadFrom layout e ->
      List.Forall₂ (ProcessGroup.ReadFrom layout) (e.childrenNamed "processGroup")
        c.processGroups ->
      ProcessGroup.ReadFrom layout e g

/-!
# Fields of valid elements
-/

namespace FlowSchema

open ChildDeclaration

variable {e : Element} {typeName name childType : String}

theorem type?_boolean :
    flowSchema.type? "BooleanType" = some ⟨"BooleanType", [], .text .boolean⟩ := by
  decide

theorem type?_position :
    flowSchema.type? "PositionType" = some ⟨"PositionType",
      [AttributeDeclaration.needed "x" .decimal, AttributeDeclaration.needed "y" .decimal],
      .empty⟩ := by
  decide

theorem type?_size :
    flowSchema.type? "SizeType" = some ⟨"SizeType",
      [AttributeDeclaration.needed "width" .decimal,
       AttributeDeclaration.needed "height" .decimal], .empty⟩ := by
  decide

theorem hasSole_of_declares {P : Element -> Prop} (h : flowSchema.Conforms e typeName)
    (hd : declaresField typeName (one name childType) = true)
    (hP : forall c, e.childrenNamed name = [c] -> P c) : e.HasSole name P := by
  rcases Schema.exists_childrenNamed_eq_singleton h (declares_of_declaresField hd) with ⟨c, hc, _⟩
  exact ⟨c, hc, hP c hc⟩

theorem childText?_of_singleton {c : Element} (hc : e.childrenNamed name = [c]) :
    e.childText? name = some c.text := by
  rw [Element.childText?, Element.child?_eq_head?, hc]
  rfl

theorem fieldText_of_singleton {c : Element} (hc : e.childrenNamed name = [c]) :
    e.fieldText name = c.text := by
  rw [Element.fieldText, childText?_of_singleton hc, Option.getD_some]

theorem hasText_fieldText (h : flowSchema.Conforms e typeName)
    (hd : declaresField typeName (one name "StringType") = true) :
    e.HasText name (e.fieldText name) :=
  hasSole_of_declares h hd fun _ hc => (fieldText_of_singleton hc).symm

theorem hasOptional_child? {A : Type} {R : Element -> A -> Prop} {f : Element -> A}
    (h : flowSchema.Conforms e typeName)
    (hd : declaresField typeName (atMostOne name childType) = true)
    (hR : forall c, flowSchema.Conforms c childType -> R c (f c)) :
    e.HasOptional R name ((e.child? name).map f) := by
  rw [Element.child?_eq_head?]
  rcases Schema.childrenNamed_eq_nil_or_singleton h (declares_of_declaresField hd) with
    hnil | ⟨c, hc, hconforms⟩
  · rw [hnil]
    exact .missing hnil
  · rw [hc]
    exact .present hc (hR c hconforms)

theorem forall₂_childrenNamed {A : Type} {R : Element -> A -> Prop} {f : Element -> A}
    (h : flowSchema.Conforms e typeName)
    (hd : declaresField typeName (many name childType) = true)
    (hR : forall c, flowSchema.Conforms c childType -> R c (f c)) :
    List.Forall₂ R (e.childrenNamed name) ((e.childrenNamed name).map f) := by
  rw [List.forall₂_map_right_iff, List.forall₂_same]
  intro c hc
  exact hR c (Schema.conforms_of_mem_childrenNamed h (declares_of_declaresField hd) hc)

/-!
# Values of valid fields
-/

theorem spells_of_accepts {text : String} (h : SimpleType.boolean.accepts text = true) :
    Element.Spells (Text.trim text == "true" || Text.trim text == "1") (Text.trim text) := by
  have hwords : Text.trimChars text.toList = "true".toList ∨
      Text.trimChars text.toList = "false".toList ∨
        Text.trimChars text.toList = "1".toList ∨ Text.trimChars text.toList = "0".toList := by
    simpa [SimpleType.accepts, SimpleType.isBoolean, or_assoc] using h
  rw [Text.trim]
  rcases hwords with hword | hword | hword | hword
  · rw [hword, String.ofList_toList]
    exact .trueWord
  · rw [hword, String.ofList_toList]
    exact .falseWord
  · rw [hword, String.ofList_toList]
    exact .trueDigit
  · rw [hword, String.ofList_toList]
    exact .falseDigit

theorem hasFlag_flag (h : flowSchema.Conforms e typeName)
    (hd : declaresField typeName (atMostOne name "BooleanType") = true) :
    e.HasFlag name (e.flag name) := by
  rcases Schema.childrenNamed_eq_nil_or_singleton h (declares_of_declaresField hd) with
    hnil | ⟨c, hc, hconforms⟩
  · refine Or.inl ⟨hnil, ?_⟩
    rw [Element.flag, Element.childText?, Element.child?_eq_head?, hnil]
    rfl
  · refine Or.inr ⟨c, hc, ?_⟩
    rw [Element.flag, childText?_of_singleton hc]
    exact spells_of_accepts (Schema.accepts_text_of_conforms hconforms type?_boolean rfl)

theorem hasNumber_decimalAttribute {t : ElementType} {key : String}
    (h : flowSchema.Conforms e typeName) (htype : flowSchema.type? typeName = some t)
    (hclosed : t.content ≠ .any)
    (hkey : t.attributes.find? (fun a => a.name == key) =
      some (AttributeDeclaration.needed key .decimal)) :
    e.HasNumber key (e.decimalAttribute key) := by
  have hpresent : exists value, e.attribute? key = some value ∧
      SimpleType.decimal.accepts value = true :=
    Schema.exists_attribute_of_conforms (a := AttributeDeclaration.needed key .decimal) h htype
      hclosed rfl hkey
  rcases hpresent with ⟨value, hattribute, haccepts⟩
  rcases Binary64.exists_read_of_isDecimal haccepts with ⟨x, hread, hnumber⟩
  have hdecoded : e.decimalAttribute key = x := by
    rw [Element.decimalAttribute, hattribute, Option.bind_some, hread, Option.getD_some]
  rw [hdecoded]
  exact ⟨value, hattribute, hread, hnumber⟩

theorem point_readFrom (h : flowSchema.Conforms e "PositionType") : e.point.ReadFrom e where
  x := hasNumber_decimalAttribute h type?_position (by decide) rfl
  y := hasNumber_decimalAttribute h type?_position (by decide) rfl

theorem extent_readFrom (h : flowSchema.Conforms e "SizeType") : e.extent.ReadFrom e where
  width := hasNumber_decimalAttribute h type?_size (by decide) rfl
  height := hasNumber_decimalAttribute h type?_size (by decide) rfl

theorem coordinate_readFrom (h : flowSchema.Conforms e "BundleType") :
    e.coordinate.ReadFrom e := by
  have hfield : forall {name : String},
      declaresField "BundleType" (one name "StringType") = true ->
        e.HasSole name fun c => Text.trim c.text = Text.trim (e.fieldText name) :=
    fun hd => hasSole_of_declares h hd fun _ hc => by rw [fieldText_of_singleton hc]
  constructor
  · exact hfield (by decide)
  · exact hfield (by decide)
  · exact hfield (by decide)

theorem properties_readFrom (h : flowSchema.Conforms e typeName)
    (hd : declaresField typeName (many "property" "PropertyType") = true) :
    PropertiesReadFrom e e.properties := by
  refine ⟨_, forall₂_childrenNamed h hd ?_, rfl⟩
  intro p hp
  have hvalue : declaresField "PropertyType" (atMostOne "value" "StringType") = true := by
    decide
  constructor
  · exact hasText_fieldText hp (by decide)
  · exact hasOptional_child? hp hvalue fun _ _ => rfl

theorem position_readFrom (h : flowSchema.Conforms e typeName)
    (hd : declaresField typeName (atMostOne "position" "PositionType") = true) :
    e.HasOptional Point.ReadFrom "position" e.position? :=
  hasOptional_child? h hd fun _ => point_readFrom

theorem bundle_readFrom (h : flowSchema.Conforms e typeName)
    (hd : declaresField typeName (atMostOne "bundle" "BundleType") = true) :
    e.HasOptional Coordinate.ReadFrom "bundle" e.bundle? :=
  hasOptional_child? h hd fun _ => coordinate_readFrom

/-!
# Valid components
-/

theorem processor_readFrom (h : flowSchema.Conforms e "ProcessorType") :
    (Processor.ofElement e).ReadFrom e where
  id := hasText_fieldText h (by decide)
  name := hasText_fieldText h (by decide)
  componentType := hasText_fieldText h (by decide)
  bundle := bundle_readFrom h (by decide)
  position := position_readFrom h (by decide)
  properties := properties_readFrom h (by decide)

theorem connection_readFrom (h : flowSchema.Conforms e "ConnectionType") :
    (Connection.ofElement e).ReadFrom e where
  id := hasText_fieldText h (by decide)
  name := hasText_fieldText h (by decide)
  sourceId := hasText_fieldText h (by decide)
  sourceGroupId := hasText_fieldText h (by decide)
  sourceType := hasText_fieldText h (by decide)
  destinationId := hasText_fieldText h (by decide)
  destinationGroupId := hasText_fieldText h (by decide)
  destinationType := hasText_fieldText h (by decide)
  bendPoints := by
    have hd :
        declaresField "ConnectionType" (atMostOne "bendPoints" "BendPointsType") = true := by
      decide
    simp only [Connection.ofElement]
    rw [Element.child?_eq_head?]
    rcases Schema.childrenNamed_eq_nil_or_singleton h (declares_of_declaresField hd) with
      hnil | ⟨c, hc, hconforms⟩
    · rw [hnil]
      exact Or.inl ⟨rfl, rfl⟩
    · rw [hc]
      refine Or.inr ⟨c, hc, forall₂_childrenNamed hconforms ?_ fun _ => point_readFrom⟩
      decide

theorem funnel_readFrom (h : flowSchema.Conforms e "FunnelType") :
    (Funnel.ofElement e).ReadFrom e where
  id := hasText_fieldText h (by decide)
  position := position_readFrom h (by decide)

theorem label_readFrom (h : flowSchema.Conforms e "LabelType") :
    (Label.ofElement e).ReadFrom e where
  id := hasText_fieldText h (by decide)
  position := position_readFrom h (by decide)
  size := hasOptional_child? h (by decide) fun _ => extent_readFrom

theorem port_readFrom (h : flowSchema.Conforms e "PortType") :
    (Port.ofElement e).ReadFrom e where
  id := hasText_fieldText h (by decide)
  name := hasText_fieldText h (by decide)
  position := position_readFrom h (by decide)

theorem remotePort_readFrom (h : flowSchema.Conforms e "RemotePortType") :
    (RemotePort.ofElement e).ReadFrom e where
  id := hasText_fieldText h (by decide)
  name := hasText_fieldText h (by decide)
  useCompression := hasFlag_flag h (by decide)
  transmitting := hasFlag_flag h (by decide)

theorem remoteProcessGroup_readFrom (h : flowSchema.Conforms e "RemoteProcessGroupType") :
    (RemoteProcessGroup.ofElement e).ReadFrom e where
  id := hasText_fieldText h (by decide)
  name := hasText_fieldText h (by decide)
  position := position_readFrom h (by decide)
  transmitting := hasFlag_flag h (by decide)
  inputPorts :=
    forall₂_childrenNamed h (by decide) fun _ => remotePort_readFrom
  outputPorts :=
    forall₂_childrenNamed h (by decide) fun _ => remotePort_readFrom

theorem controllerService_readFrom (h : flowSchema.Conforms e "ControllerServiceType") :
    (ControllerService.ofElement e).ReadFrom e where
  id := hasText_fieldText h (by decide)
  name := hasText_fieldText h (by decide)
  componentType := hasText_fieldText h (by decide)
  bundle := bundle_readFrom h (by decide)
  enabled := hasFlag_flag h (by decide)
  properties := properties_readFrom h (by decide)

/-!
# Valid groups
-/

theorem contents_readFrom {layout : Layout} {nested : List ProcessGroup} {c : Contents}
    (h : flowSchema.Conforms e typeName) (htype : typeName ∈ groupTypeNames)
    (hc : (ProcessGroup.assemble layout e nested).contents = some c) :
    c.ReadFrom layout e := by
  have hmany : forall {A : Type} {R : Element -> A -> Prop} {f : Element -> A}
      {name childType : String}, many name childType ∈ groupChildren ->
      (forall c, flowSchema.Conforms c childType -> R c (f c)) ->
        List.Forall₂ R (e.childrenNamed name) ((e.childrenNamed name).map f) :=
    fun hd hR => forall₂_childrenNamed h (declaresField_group htype hd) hR
  cases hc
  constructor
  · exact hmany (by decide) fun _ => processor_readFrom
  · exact hmany (by decide) fun _ => connection_readFrom
  · exact hmany (by decide) fun _ => funnel_readFrom
  · exact hmany (by decide) fun _ => label_readFrom
  · exact hmany (by decide) fun _ => port_readFrom
  · exact hmany (by decide) fun _ => port_readFrom
  · exact hmany (by decide) fun _ => remoteProcessGroup_readFrom
  · cases layout.groupServices with
    | false => exact .nil
    | true => exact hmany (by decide) fun _ => controllerService_readFrom

theorem decodeTree_readFrom (layout : Layout) (h : flowSchema.Conforms e typeName)
    (htype : typeName ∈ groupTypeNames) :
    ProcessGroup.ReadFrom layout e (ProcessGroup.decodeTree layout e) := by
  induction e using Element.treeInduction generalizing typeName with
  | step e ih =>
      have hnested : List.Forall₂ (ProcessGroup.ReadFrom layout)
          (e.childrenNamed "processGroup")
          ((e.childrenNamed "processGroup").map (ProcessGroup.decodeTree layout)) := by
        rw [List.forall₂_map_right_iff, List.forall₂_same]
        intro c hc
        rcases List.mem_filter.mp hc with ⟨hchild, hname⟩
        rcases exists_conforms_of_nested h htype hchild (eq_of_beq hname) with
          ⟨childType, hchildType, hconforms⟩
        exact ih c hchild hconforms hchildType
      rw [ProcessGroup.decodeTree_eq]
      refine .intro ?_ ?_ ?_ rfl (contents_readFrom h htype rfl) hnested
      · exact hasText_fieldText h (declaresField_group htype (by decide))
      · exact hasText_fieldText h (declaresField_group htype (by decide))
      · exact position_readFrom h (declaresField_group htype (by decide))

end FlowSchema

/-- In a valid document the root group, and every record inside it to any depth, is
read from the fields of its element: a required field from the one child of its
name, each coordinate from an attribute that holds a number, and a flag that is
present by the value its text denotes. -/
theorem Model.rootGroup_readFrom_document (d : Document)
    (h : flowSchema.validate d.root = .ok ()) :
    exists e g, d.root.childrenNamed "rootGroup" = [e] ∧
      (ofDocument d).rootGroup = some g ∧
        ProcessGroup.ReadFrom (ofDocument d).layout e g := by
  rcases FlowSchema.exists_rootGroup (Schema.validate_eq_ok_iff.mp h) with
    ⟨e, he, hfirst, hconforms⟩
  refine ⟨e, _, he, rootGroup_eq_decodeTree hfirst, ?_⟩
  exact FlowSchema.decodeTree_readFrom _ hconforms (by decide)

def sampleLeaf (name : String) (attributes : List (String × String)) (text : String) :
    Element :=
  ⟨⟨name, none, attributes, text, ⟨0, 0⟩⟩, []⟩

def placedFlow : Document :=
  let port := Document.sampleComponent "inputPort"
    [sampleLeaf "useCompression" [] " 1 ", sampleLeaf "transmitting" [] "false"]
  let remote := Document.sampleComponent "remoteProcessGroup"
    [sampleLeaf "position" [("x", "7"), ("y", "-0.")] "", port]
  .ofRoot (Document.sampleElement "flowController"
    [Document.sampleComponent "rootGroup"
      [sampleLeaf "position" [("x", " -12.5 "), ("y", "+.5")] "",
       Document.sampleComponent "processGroup" [remote]]])

theorem Model.rootGroup_readFrom_document_placedFlow :
    flowSchema.validate placedFlow.root = .ok () ∧
      (exists e g, placedFlow.root.childrenNamed "rootGroup" = [e] ∧
        (ofDocument placedFlow).rootGroup = some g ∧
          ProcessGroup.ReadFrom (ofDocument placedFlow).layout e g) ∧
      ((ofDocument placedFlow).rootGroup.bind ProcessGroup.position) =
        some ⟨⟨0xC029000000000000⟩, ⟨0x3FE0000000000000⟩⟩ := by
  have hvalid : flowSchema.validate placedFlow.root = .ok () :=
    Schema.validate_eq_ok_of_isOk (by decide +kernel)
  refine ⟨hvalid, rootGroup_readFrom_document placedFlow hvalid, ?_⟩
  decide +kernel

end FlowConfig
