import FlowConfig.Proofs.Flow.LiveGroups
import FlowConfig.Proofs.Flow.Sources
import FlowConfig.Proofs.Number.Integer

/-!
# Integers of decoded records

The schema admits integers of any size and a record keeps those of 64 bits.  In a valid
document a task limit or a queue limit that is there denotes an integer, and the record
has it if it fits; a larger one is lost, and the record looks as if none were declared.
-/

namespace FlowConfig

open Text

/-!
# Fields
-/

namespace Element

/-- An integer field is missing, or its one child denotes the integer that is kept, or
that integer does not fit and is not kept. -/
inductive HasInteger (e : Element) (name : String) : Option Int -> Prop where
  | missing : e.childrenNamed name = [] -> HasInteger e name none
  | kept {c : Element} {n : Int} : e.childrenNamed name = [c] ->
      DenotesInteger (trimChars c.text.toList) n -> FitsInt64 n -> HasInteger e name (some n)
  | lost {c : Element} {n : Int} : e.childrenNamed name = [c] ->
      DenotesInteger (trimChars c.text.toList) n -> ¬ FitsInt64 n -> HasInteger e name none

def KeepsInteger (e : Element) (name : String) (value : Option Int) : Prop :=
  forall c, c ∈ e.childrenNamed name ->
    exists n, DenotesInteger (trimChars c.text.toList) n ∧ value = some n

end Element

/-!
# Records

A relation of fields and kept integers, carried over to all records that keep some.
-/

variable (F : Element -> String -> Option Int -> Prop)

structure RemoteProcessGroup.IntegersRelated (e : Element) (g : RemoteProcessGroup) : Prop where
  inputPorts : List.Forall₂
    (fun x (p : RemotePort) => F x "maxConcurrentTasks" p.maxConcurrentTasks)
    (e.childrenNamed "inputPort") g.inputPorts
  outputPorts : List.Forall₂
    (fun x (p : RemotePort) => F x "maxConcurrentTasks" p.maxConcurrentTasks)
    (e.childrenNamed "outputPort") g.outputPorts

structure Contents.IntegersRelated (e : Element) (c : Contents) : Prop where
  processors : List.Forall₂
    (fun x (p : Processor) => F x "maxConcurrentTasks" p.maxConcurrentTasks)
    (e.childrenNamed "processor") c.processors
  connections : List.Forall₂
    (fun x (k : Connection) => F x "maxWorkQueueSize" k.maxWorkQueueSize)
    (e.childrenNamed "connection") c.connections
  inputPorts : List.Forall₂
    (fun x (p : Port) => F x "maxConcurrentTasks" p.maxConcurrentTasks)
    (e.childrenNamed "inputPort") c.inputPorts
  outputPorts : List.Forall₂
    (fun x (p : Port) => F x "maxConcurrentTasks" p.maxConcurrentTasks)
    (e.childrenNamed "outputPort") c.outputPorts
  remoteProcessGroups : List.Forall₂ (RemoteProcessGroup.IntegersRelated F)
    (e.childrenNamed "remoteProcessGroup") c.remoteProcessGroups

def ProcessGroup.IntegersRelated (e : Element) (g : ProcessGroup) : Prop :=
  exists c, g.contents = some c ∧ c.IntegersRelated F e

namespace FlowSchema

open ChildDeclaration

variable {e : Element} {typeName name childType : String}

theorem type?_integer :
    flowSchema.type? "IntegerType" = some ⟨"IntegerType", [], .text .integer⟩ := by
  decide

theorem hasInteger_integer? (h : flowSchema.Conforms e typeName)
    (hd : declaresField typeName (atMostOne name "IntegerType") = true) :
    e.HasInteger name (e.integer? name) := by
  rcases Schema.childrenNamed_eq_nil_or_singleton h (declares_of_declaresField hd) with
    hnil | ⟨c, hc, hconforms⟩
  · have hmissing : e.integer? name = none := by
      rw [Element.integer?, Element.childText?, Element.child?_eq_head?, hnil]
      rfl
    rw [hmissing]
    exact .missing hnil
  · have haccepts := Schema.accepts_text_of_conforms hconforms type?_integer rfl
    rcases (SimpleType.isInteger_iff _).mp haccepts with ⟨n, hdenotes⟩
    rw [Element.integer?, childText?_of_singleton hc, Option.bind_some,
      readInt64_of_denotesInteger hdenotes]
    by_cases hfits : FitsInt64 n
    · rw [if_pos hfits]
      exact .kept hc hdenotes hfits
    · rw [if_neg hfits]
      exact .lost hc hdenotes hfits

theorem processor_hasInteger (h : flowSchema.Conforms e "ProcessorType") :
    e.HasInteger "maxConcurrentTasks" (Processor.ofElement e).maxConcurrentTasks :=
  hasInteger_integer? h (by decide)

theorem connection_hasInteger (h : flowSchema.Conforms e "ConnectionType") :
    e.HasInteger "maxWorkQueueSize" (Connection.ofElement e).maxWorkQueueSize :=
  hasInteger_integer? h (by decide)

theorem port_hasInteger (h : flowSchema.Conforms e "PortType") :
    e.HasInteger "maxConcurrentTasks" (Port.ofElement e).maxConcurrentTasks :=
  hasInteger_integer? h (by decide)

theorem remotePort_hasInteger (h : flowSchema.Conforms e "RemotePortType") :
    e.HasInteger "maxConcurrentTasks" (RemotePort.ofElement e).maxConcurrentTasks :=
  hasInteger_integer? h (by decide)

theorem remoteProcessGroup_hasIntegers
    (h : flowSchema.Conforms e "RemoteProcessGroupType") :
    (RemoteProcessGroup.ofElement e).IntegersRelated Element.HasInteger e where
  inputPorts := forall₂_childrenNamed h (by decide) fun _ => remotePort_hasInteger
  outputPorts := forall₂_childrenNamed h (by decide) fun _ => remotePort_hasInteger

end FlowSchema

/-- One group at a time. -/
theorem Document.IsLiveGroup.hasIntegers {d : Document} {x : Element} (h : d.IsLiveGroup x)
    (layout : Layout) :
    (ProcessGroup.decodeTree layout x).IntegersRelated Element.HasInteger x := by
  rw [ProcessGroup.decodeTree_eq]
  refine ⟨_, rfl, ?_⟩
  constructor
  · exact h.forall₂_childrenNamed (by decide) (by decide) fun _ _ =>
      FlowSchema.processor_hasInteger
  · exact h.forall₂_childrenNamed (by decide) (by decide) fun _ _ =>
      FlowSchema.connection_hasInteger
  · exact h.forall₂_childrenNamed (by decide) (by decide) fun _ _ =>
      FlowSchema.port_hasInteger
  · exact h.forall₂_childrenNamed (by decide) (by decide) fun _ _ =>
      FlowSchema.port_hasInteger
  · exact h.forall₂_childrenNamed (by decide) (by decide) fun _ _ =>
      FlowSchema.remoteProcessGroup_hasIntegers

/-- In a valid document every task limit of a processor, a port or a remote port and
every queue limit of a connection, in the root group and in all groups inside it, is read
from its one child: the record has the integer that the trimmed text denotes if the
integer fits into 64 bits, and has none if it does not. -/
theorem Model.integers_read_within_range (d : Document)
    (h : flowSchema.validate d.root = .ok ()) :
    exists e g, d.root.childrenNamed "rootGroup" = [e] ∧
      (ofDocument d).rootGroup = some g ∧
        g.Mirrors (ProcessGroup.IntegersRelated Element.HasInteger) e := by
  apply rootGroup_mirrors (Schema.validate_eq_ok_iff.mp h)
  intro x hx
  exact hx.hasIntegers _

def limitedFlow (limit : String) : Document :=
  let processor := Document.sampleComponent "processor"
    [Document.sampleElement "class" [], sampleLeaf "maxConcurrentTasks" [] limit]
  .ofRoot (Document.sampleElement "flowController"
    [Document.sampleComponent "rootGroup" [processor]])

def Model.taskLimits (m : Model) : List (Option Int) :=
  m.rootContents.processors.map Processor.maxConcurrentTasks

theorem Model.integers_read_within_range_limitedFlow :
    flowSchema.validate (limitedFlow " -09223372036854775808 ").root = .ok () ∧
      (exists e g, (limitedFlow " -09223372036854775808 ").root.childrenNamed "rootGroup" = [e] ∧
        (ofDocument (limitedFlow " -09223372036854775808 ")).rootGroup = some g ∧
          g.Mirrors (ProcessGroup.IntegersRelated Element.HasInteger) e) ∧
      (ofDocument (limitedFlow " -09223372036854775808 ")).taskLimits =
        [some (-9223372036854775808)] := by
  have hvalid : flowSchema.validate (limitedFlow " -09223372036854775808 ").root = .ok () :=
    Schema.validate_eq_ok_of_isOk (by decide +kernel)
  refine ⟨hvalid, integers_read_within_range _ hvalid, ?_⟩
  decide +kernel

/-- Beyond 64 bits a task limit is lost, though the document is valid. -/
theorem Model.integer_beyond_range_lost :
    flowSchema.validate (limitedFlow "9223372036854775808").root = .ok () ∧
      ¬ exists e g,
        (limitedFlow "9223372036854775808").root.childrenNamed "rootGroup" = [e] ∧
          (ofDocument (limitedFlow "9223372036854775808")).rootGroup = some g ∧
            g.Mirrors (ProcessGroup.IntegersRelated Element.KeepsInteger) e := by
  constructor
  · exact Schema.validate_eq_ok_of_isOk (by decide +kernel)
  · intro hkept
    rcases exists_related_rootContents hkept with ⟨e, he, hrelated⟩
    have hlimits : (ofDocument (limitedFlow "9223372036854775808")).taskLimits = [none] := by
      decide +kernel
    have hpresent : forall r, r ∈ (limitedFlow "9223372036854775808").root.children ->
        forall x, x ∈ r.childrenNamed "processor" ->
          x.childrenNamed "maxConcurrentTasks" ≠ [] := by
      decide +kernel
    rcases List.map_eq_singleton_iff.mp hlimits with ⟨p, hp, hlost⟩
    have hprocessors := hrelated.processors
    rw [hp] at hprocessors
    rcases List.forall₂_cons_right_iff.mp hprocessors with ⟨x, rest, hkeeps, _, hx⟩
    rcases List.exists_mem_of_ne_nil _ (hpresent e he x (hx ▸ List.mem_cons_self)) with
      ⟨child, hchild⟩
    rcases hkeeps child hchild with ⟨n, _, hn⟩
    rw [hlost] at hn
    cases hn

end FlowConfig
