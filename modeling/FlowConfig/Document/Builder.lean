import FlowConfig.Element
import FlowConfig.Markup.Reader
import FlowConfig.Text.Blank

/-!
# Building a document

Start tags, end tags and text are put together to one tree.  Exactly one
element may stand at the top; around it only blank text is allowed.
-/

namespace FlowConfig

/-- An element that is still open, with its finished children latest first. -/
structure OpenElement where
  node : Node
  children : List Element

def OpenElement.finish (e : OpenElement) : Element :=
  ⟨e.node, e.children.reverse⟩

inductive StructureFault where
  | multipleRoots
  | textOutsideRoot
  | unbalancedEnd
  | unclosed
  | noRoot
deriving DecidableEq, Repr

def StructureFault.message : StructureFault -> String
  | .multipleRoots => "Content is not allowed after the document element"
  | .textOutsideRoot => "Text is not allowed outside the document element"
  | .unbalancedEnd => "End tag without matching start tag"
  | .unclosed => "Document ended before all elements were closed"
  | .noRoot => "Document has no root element"

/-- The open elements, innermost first, the root once it is closed, and the
number of elements started. -/
structure Builder where
  opened : List OpenElement
  root : Option Element
  started : Nat

namespace Builder

def empty : Builder :=
  ⟨[], none, 0⟩

def start (b : Builder) (tag : Markup.Tag) (offset : Nat) : Except StructureFault Builder :=
  let node : Node := ⟨tag.name, tag.uri, tag.attributes, "", ⟨b.started, offset⟩⟩
  let next : Builder := ⟨⟨node, []⟩ :: b.opened, b.root, b.started + 1⟩
  match b.opened, b.root with
  | [], some _ => .error .multipleRoots
  | _, _ => .ok next

def close (b : Builder) : Except StructureFault Builder :=
  match b.opened with
  | [] => .error .unbalancedEnd
  | [e] => .ok ⟨[], some e.finish, b.started⟩
  | e :: outer :: rest =>
      .ok ⟨{ outer with children := e.finish :: outer.children } :: rest, b.root, b.started⟩

def text (b : Builder) (content : String) : Except StructureFault Builder :=
  match b.opened with
  | [] => if Text.allBlank content then .ok b else .error .textOutsideRoot
  | e :: rest =>
      .ok { b with
        opened := { e with node := { e.node with text := e.node.text ++ content } } :: rest }

def finish (b : Builder) : Except StructureFault Element :=
  match b.opened, b.root with
  | _ :: _, _ => .error .unclosed
  | [], none => .error .noRoot
  | [], some root => .ok root

end Builder
end FlowConfig
