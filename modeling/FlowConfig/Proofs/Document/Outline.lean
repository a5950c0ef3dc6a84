import FlowConfig.Proofs.Document.Construction
import FlowConfig.Proofs.Markup.Rendering

/-!
# Outlines

An outline is a document as it is meant: names, attributes, texts, and elements
inside elements.  It can be rendered as a text, and it is a tree of elements.
Reading the text gives the tree.
-/

namespace FlowConfig

open Markup Ascii

/-- An element with names that have no prefix and attributes that declare no
namespace. -/
structure Outline where
  name : Name
  attributes : Attributes
  text : String
  children : List Outline

namespace Outline

theorem treeInduction {P : Outline -> Prop}
    (step : forall t : Outline, (forall c, c ∈ t.children -> P c) -> P t)
    (t : Outline) : P t :=
  step t fun c _hc => treeInduction step c
termination_by sizeOf t
decreasing_by
  have hlt := List.sizeOf_lt_of_mem _hc
  cases t
  simp only [mk.sizeOf_spec] at hlt ⊢
  omega

/-!
# Rendering
-/

mutual

/-- The text of an outline: its start tag, its text, the elements inside it, and
its end tag. -/
def render : Outline -> Bytes
  | ⟨name, attributes, text, children⟩ =>
      lessThan :: (tagContent name attributes.entries ++ greaterThan ::
        (escapedBytes text ++ (renderIn children ++
          lessThan :: slash :: (name.bytes ++ [greaterThan]))))

def renderIn : List Outline -> Bytes
  | [] => []
  | c :: rest => c.render ++ renderIn rest

end

theorem render_append (t : Outline) (rest : Bytes) :
    t.render ++ rest = lessThan :: (tagContent t.name t.attributes.entries ++ greaterThan ::
      (escapedBytes t.text ++ (renderIn t.children ++
        lessThan :: slash :: (t.name.bytes ++ greaterThan :: rest)))) := by
  cases t
  simp [render]

example :
    render ⟨⟨"a", rfl⟩, ⟨[(⟨"key", rfl⟩, "1 < 2")], by decide, by decide⟩, "x & y",
        [⟨⟨"b", rfl⟩, ⟨[], by decide, by decide⟩, "", []⟩]⟩ =
      Utf8.encode "<a key=\"1 &lt; 2\">x &amp; y<b></b></a>".toList := by
  decide +kernel

theorem exists_renderIn_append (ts : List Outline) (rest : Bytes) :
    exists more, renderIn ts ++ lessThan :: rest = lessThan :: more := by
  cases ts with
  | nil => exact ⟨rest, rfl⟩
  | cons t ts =>
      rw [renderIn, List.append_assoc, render_append]
      exact ⟨_, rfl⟩

/-!
# The tree
-/

mutual

def size : Outline -> Nat
  | ⟨_, _, _, children⟩ => totalSize children + 1

def totalSize : List Outline -> Nat
  | [] => 0
  | c :: rest => c.size + totalSize rest

end

theorem size_eq (t : Outline) : t.size = totalSize t.children + 1 := by
  cases t
  rw [size]

/-- The element without its children; its start tag has the given rank. -/
def nodeAt (rank : Nat) (t : Outline) : Node :=
  ⟨t.name.text, none, t.attributes.entries.map fun a => (a.1.text, a.2), t.text, ⟨rank, 0⟩⟩

mutual

/-- The outline as an element; its start tag has the given rank among all start
tags, and no offset. -/
def elementAt (rank : Nat) : Outline -> Element
  | ⟨name, attributes, text, children⟩ =>
      ⟨nodeAt rank ⟨name, attributes, text, children⟩, elementsAt (rank + 1) children⟩

def elementsAt (rank : Nat) : List Outline -> List Element
  | [] => []
  | c :: rest => c.elementAt rank :: elementsAt (rank + c.size) rest

end

theorem elementAt_eq (rank : Nat) (t : Outline) :
    t.elementAt rank = ⟨t.nodeAt rank, elementsAt (rank + 1) t.children⟩ := by
  cases t
  rw [elementAt]

/-- The outline as a root element. -/
def element (t : Outline) : Element :=
  t.elementAt 0

/-!
# Reading on

While a rendered outline is read, the names of the elements around are open and a
part of the tree is built.
-/

/-- With the given names open and the given part of the tree built, the bytes are
read to their end, and the tree is made. -/
def Completes (opened : List OpenName) (b : Builder) (bytes : Bytes) (tree : Element) : Prop :=
  exists found events, lexemesFrom bytes = .ok found ∧
    resolveFrom ⟨opened, Scope.initial⟩ found = .ok events ∧
      b.build (eventTokens events) = some tree

variable {opened : List OpenName} {b next : Builder} {rest : Bytes} {tree : Element}

theorem completes_nil (h : b.finish = .ok tree) : Completes opened b [] tree := by
  refine ⟨[], [], ?_, rfl, ?_⟩
  · rw [lexemesFrom]
  · show b.finish.toOption = some tree
    rw [h]
    rfl

theorem completes_startTag {name : Name} {attributes : Attributes}
    (hstart : b.start (renderedTag name attributes) 0 = .ok next)
    (h : Completes (⟨name.bytes, Scope.initial⟩ :: opened) next rest tree) :
    Completes opened b
      (lessThan :: (tagContent name attributes.entries ++ greaterThan :: rest)) tree := by
  rcases h with ⟨found, events, hfound, hevents, hbuild⟩
  have hevent : readEvent ⟨opened, Scope.initial⟩
      (.startTag (tagContent name attributes.entries)) =
        .ok (.startTag (renderedTag name attributes),
          ⟨⟨name.bytes, Scope.initial⟩ :: opened, Scope.initial⟩) := by
    simp only [readEvent, enterScope_tagContent, decodeTag_tagContent, tagName_tagContent, bind,
      Except.bind]
  refine ⟨.startTag (tagContent name attributes.entries) :: found,
    .startTag (renderedTag name attributes) :: events, ?_, ?_, ?_⟩
  · rw [lexemesFrom_startTag, hfound]
    rfl
  · rw [resolveFrom, Lexeme.resolve, hevent]
    simp only [hevents]
    rfl
  · show (b.start (renderedTag name attributes) 0).toOption.bind
      (fun next => next.build (eventTokens events)) = some tree
    rw [hstart]
    exact hbuild

theorem completes_endTag {name : Name} (hclose : b.close = .ok next)
    (h : Completes opened next rest tree) :
    Completes (⟨name.bytes, Scope.initial⟩ :: opened) b
      (lessThan :: slash :: (name.bytes ++ greaterThan :: rest)) tree := by
  rcases h with ⟨found, events, hfound, hevents, hbuild⟩
  refine ⟨.endTag name.bytes :: found, .endTag :: events, ?_, ?_, ?_⟩
  · rw [lexemesFrom_endTag, hfound]
    rfl
  · rw [resolveFrom, Lexeme.resolve, closeName]
    simp only [beq_self_eq_true, if_true, Except.map, hevents]
  · show b.close.toOption.bind (fun next => next.build (eventTokens events)) = some tree
    rw [hclose]
    exact hbuild

theorem completes_text {s : String} (htext : b.text s = .ok next)
    (hempty : s = "" -> next = b) (h : Completes opened next (lessThan :: rest) tree) :
    Completes opened b (escapedBytes s ++ lessThan :: rest) tree := by
  rcases h with ⟨found, events, hfound, hevents, hbuild⟩
  by_cases hs : s = ""
  · refine ⟨found, events, ?_, hevents, hempty hs ▸ hbuild⟩
    rw [lexemesFrom_escapedBytes, hfound, textLexemes, if_pos hs]
    rfl
  · refine ⟨.text s :: found, .text s :: events, ?_, ?_, ?_⟩
    · rw [lexemesFrom_escapedBytes, hfound, textLexemes, if_neg hs]
      rfl
    · rw [resolveFrom, Lexeme.resolve]
      simp only [hevents]
      rfl
    · show b.build (addText s (eventTokens events)) = some tree
      rw [Builder.build_addText, htext]
      exact hbuild

/-- The builder inside an outline of which everything but the end tag was read. -/
def inside (b : Builder) (t : Outline) : Builder :=
  ⟨⟨t.nodeAt b.started, (elementsAt (b.started + 1) t.children).reverse⟩ :: b.opened, b.root,
    b.started + t.size⟩

def behind (e : OpenElement) (others : List OpenElement) (root : Option Element)
    (started : Nat) (ts : List Outline) : Builder :=
  ⟨{ e with children := (elementsAt started ts).reverse ++ e.children } :: others, root,
    started + totalSize ts⟩

/-- Reading goes on behind the outline, wherever the outline may start. -/
def IsRead (t : Outline) : Prop :=
  forall {opened : List OpenName} {b next : Builder} {rest : Bytes} {tree : Element},
    (b.opened = [] -> b.root = none) -> (inside b t).close = .ok next ->
      Completes opened next rest tree -> Completes opened b (t.render ++ rest) tree

theorem finish_inside (rank : Nat) (t : Outline) :
    OpenElement.finish ⟨t.nodeAt rank, (elementsAt (rank + 1) t.children).reverse⟩ =
      t.elementAt rank := by
  rw [OpenElement.finish, List.reverse_reverse, elementAt_eq]

theorem completes_renderIn {e : OpenElement} {others : List OpenElement}
    {root : Option Element} {started : Nat} {ts : List Outline}
    (hts : forall t, t ∈ ts -> t.IsRead)
    (h : Completes opened (behind e others root started ts) rest tree) :
    Completes opened ⟨e :: others, root, started⟩ (renderIn ts ++ rest) tree := by
  induction ts generalizing e started with
  | nil => exact h
  | cons t ts ih =>
      have hclose : (inside ⟨e :: others, root, started⟩ t).close =
          .ok ⟨{ e with children := t.elementAt started :: e.children } :: others, root,
            started + t.size⟩ := by
        rw [← finish_inside]
        rfl
      have hbehind : behind { e with children := t.elementAt started :: e.children } others root
          (started + t.size) ts = behind e others root started (t :: ts) := by
        rw [behind, behind, elementsAt, totalSize, List.reverse_cons, List.append_assoc,
          Nat.add_assoc]
        rfl
      rw [renderIn, List.append_assoc]
      refine hts t List.mem_cons_self (fun hnil => absurd hnil (List.cons_ne_nil _ _)) hclose ?_
      exact ih (fun u hu => hts u (List.mem_cons_of_mem t hu)) (hbehind ▸ h)

theorem isRead (t : Outline) : t.IsRead := by
  induction t using treeInduction with
  | step t ih =>
      intro opened b next rest tree hroot hclose h
      have hstart : b.start (renderedTag t.name t.attributes) 0 =
          .ok ⟨⟨{ t.nodeAt b.started with text := "" }, []⟩ :: b.opened, b.root,
            b.started + 1⟩ := by
        obtain ⟨openedHere, root, started⟩ := b
        cases openedHere with
        | cons e others => rfl
        | nil =>
            cases hroot rfl
            rfl
      have htext : Builder.text ⟨⟨{ t.nodeAt b.started with text := "" }, []⟩ :: b.opened,
          b.root, b.started + 1⟩ t.text =
            .ok ⟨⟨t.nodeAt b.started, []⟩ :: b.opened, b.root, b.started + 1⟩ := by
        rw [Builder.text]
        simp only [String.empty_append]
        rfl
      have hbehind : behind ⟨t.nodeAt b.started, []⟩ b.opened b.root (b.started + 1) t.children =
          inside b t := by
        rw [behind, inside, size_eq, List.append_nil, Nat.add_assoc, Nat.add_comm 1]
      have hend : Completes (⟨t.name.bytes, Scope.initial⟩ :: opened) (inside b t)
          (lessThan :: slash :: (t.name.bytes ++ greaterThan :: rest)) tree :=
        completes_endTag hclose h
      rw [← hbehind] at hend
      have hchildren := completes_renderIn ih hend
      rcases exists_renderIn_append t.children
        (slash :: (t.name.bytes ++ greaterThan :: rest)) with ⟨more, hmore⟩
      rw [hmore] at hchildren
      rw [render_append, hmore]
      refine completes_startTag hstart (completes_text htext ?_ hchildren)
      intro hempty
      simp only [nodeAt, hempty]

/-- Reading a rendered outline completes its tree. -/
theorem completes_render (t : Outline) :
    Completes [] Builder.empty t.render t.element := by
  have hclose : (inside Builder.empty t).close = .ok ⟨[], some t.element, 0 + t.size⟩ := by
    rw [element, ← finish_inside]
    rfl
  have hrest : Completes [] ⟨[], some t.element, 0 + t.size⟩ [] t.element := completes_nil rfl
  have hread := t.isRead (fun _ => rfl) hclose hrest
  rw [List.append_nil] at hread
  exact hread

theorem toOption_readTree_render {State : Type} (handler : Handler State) (state : State)
    (t : Outline) :
    (Document.readTree handler state t.render).2.toOption.map Element.withoutOffsets =
      some t.element := by
  rcases t.completes_render with ⟨found, events, hfound, hevents, hbuild⟩
  have hmark : dropByteOrderMark t.render = t.render := by
    rw [← List.append_nil t.render, render_append]
    rfl
  have hlexemes : lexemes t.render = .ok found := by
    rw [lexemes, hmark, hfound]
  rw [Document.toOption_readTree, verdict_transcribe hlexemes]
  show (resolveFrom ⟨[], Scope.initial⟩ found).toOption.bind _ = _
  rw [hevents]
  exact hbuild

end Outline
end FlowConfig
