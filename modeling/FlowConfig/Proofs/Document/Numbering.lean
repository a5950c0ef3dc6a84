import FlowConfig.Document.Builder
import FlowConfig.Proofs.Document.Places

/-!
# Runs of a builder

Start tags, end tags and text come in any order, and what the builder refuses changes
nothing.  An element is numbered when it is started, and the innermost open element is
its parent.  When the document is finished, this number is its place.

While elements are open, the finished parts of the tree are spread over the stack.  Put
one behind the other from the outermost open element inwards, they list the elements in
the order in which they were started; so a start tag only adds to the end of this list,
and an end tag only moves a part of it from one level of the stack to the next.
-/

namespace FlowConfig

/-- What is known of an element when it is started: its tag, its number with the offset
of the tag, and the number of its parent. -/
structure Heading where
  tag : Markup.Tag
  origin : Origin
  parent : Option Nat
deriving DecidableEq, Repr

def Node.heading (n : Node) (parent : Option Nat) : Heading :=
  ⟨⟨n.name, n.uri, n.attributes⟩, n.origin, parent⟩

def Entry.heading (entry : Entry) : Heading :=
  entry.element.node.heading entry.parent

def Document.headings (d : Document) : List Heading :=
  d.entries.toList.map Entry.heading

def headingsAt (place : Nat) (parent : Option Nat) (e : Element) : List Heading :=
  (entriesAt place parent e).map Entry.heading

theorem headingsAt_eq (place : Nat) (parent : Option Nat) (e : Element) :
    headingsAt place parent e = e.node.heading parent ::
      (entriesIn (place + 1) place e.children).map Entry.heading := by
  rw [headingsAt, entriesAt_eq]
  rfl

theorem length_headingsAt (place : Nat) (parent : Option Nat) (e : Element) :
    (headingsAt place parent e).length = e.size := by
  rw [headingsAt, List.length_map, length_entriesAt]

theorem entriesIn_append (place parent : Nat) (es fs : List Element) :
    entriesIn place parent (es ++ fs) =
      entriesIn place parent es ++ entriesIn (place + Element.totalSize es) parent fs := by
  induction es generalizing place with
  | nil => rfl
  | cons e rest ih =>
      rw [List.cons_append, entriesIn, ih, entriesIn, Element.totalSize_cons, List.append_assoc,
        Nat.add_assoc]

namespace OpenElement

/-- The open element when the one inside it is finished. -/
def enclose (outer : OpenElement) (inner : Element) : OpenElement :=
  { outer with children := inner :: outer.children }

def begin (tag : Markup.Tag) (origin : Origin) : OpenElement :=
  ⟨⟨tag.name, tag.uri, tag.attributes, "", origin⟩, []⟩

def addText (e : OpenElement) (content : String) : OpenElement :=
  { e with node := { e.node with text := e.node.text ++ content } }

theorem headingsAt_enclose (outer : OpenElement) (inner : Element) (place : Nat)
    (parent : Option Nat) :
    headingsAt place parent (outer.enclose inner).finish =
      headingsAt place parent outer.finish ++
        headingsAt (place + outer.finish.size) (some place) inner := by
  have hsize : place + outer.finish.size =
      place + 1 + Element.totalSize outer.children.reverse := by
    rw [Element.size_eq, finish, Nat.add_comm _ 1, Nat.add_assoc]
  rw [headingsAt_eq, headingsAt_eq, hsize, headingsAt]
  simp only [finish, enclose, List.reverse_cons, entriesIn_append, entriesIn, List.append_nil,
    List.map_append, List.cons_append]

end OpenElement

namespace Builder

/-!
# Headings of open elements
-/

/-- The headings of the open elements, the outermost first, each with what is finished
inside it. -/
def openHeadings : List OpenElement -> List Heading
  | [] => []
  | [e] => headingsAt 0 none e.finish
  | e :: outer :: rest =>
      openHeadings (outer :: rest) ++
        headingsAt (openHeadings (outer :: rest)).length (some (openHeadings rest).length)
          e.finish

def innermostPlace : List OpenElement -> Option Nat
  | [] => none
  | _ :: rest => some (openHeadings rest).length

theorem openHeadings_cons (e : OpenElement) (rest : List OpenElement) :
    openHeadings (e :: rest) = openHeadings rest ++
      headingsAt (openHeadings rest).length (innermostPlace rest) e.finish := by
  cases rest with
  | nil => rfl
  | cons outer rest => rfl

theorem openHeadings_enclose (e outer : OpenElement) (rest : List OpenElement) :
    openHeadings (outer.enclose e.finish :: rest) = openHeadings (e :: outer :: rest) := by
  rw [openHeadings_cons e, openHeadings_cons, openHeadings_cons outer,
    OpenElement.headingsAt_enclose, List.length_append, length_headingsAt, innermostPlace,
    List.append_assoc]

theorem openHeadings_addText (e : OpenElement) (content : String) (rest : List OpenElement) :
    openHeadings (e.addText content :: rest) = openHeadings (e :: rest) := by
  rw [openHeadings_cons, openHeadings_cons, headingsAt_eq, headingsAt_eq]
  rfl

def headings (b : Builder) : List Heading :=
  match b.opened, b.root with
  | [], none => []
  | [], some root => headingsAt 0 none root
  | e :: rest, _ => openHeadings (e :: rest)

/-!
# Steps
-/

inductive Step where
  | start (tag : Markup.Tag) (offset : Nat)
  | close
  | text (content : String)
deriving DecidableEq, Repr

def perform (b : Builder) : Step -> Except StructureFault Builder
  | .start tag offset => b.start tag offset
  | .close => b.close
  | .text content => b.text content

/-- The steps that are accepted, and what they lead to. -/
inductive Takes : Builder -> Step -> Builder -> Prop where
  | root (tag : Markup.Tag) (offset started : Nat) :
      Takes ⟨[], none, started⟩ (.start tag offset)
        ⟨[.begin tag ⟨started, offset⟩], none, started + 1⟩
  | inner (tag : Markup.Tag) (offset : Nat) (e : OpenElement) (rest : List OpenElement)
      (top : Option Element) (started : Nat) :
      Takes ⟨e :: rest, top, started⟩ (.start tag offset)
        ⟨.begin tag ⟨started, offset⟩ :: e :: rest, top, started + 1⟩
  | closeRoot (e : OpenElement) (top : Option Element) (started : Nat) :
      Takes ⟨[e], top, started⟩ .close ⟨[], some e.finish, started⟩
  | closeInner (e outer : OpenElement) (rest : List OpenElement) (top : Option Element)
      (started : Nat) :
      Takes ⟨e :: outer :: rest, top, started⟩ .close
        ⟨outer.enclose e.finish :: rest, top, started⟩
  | blank (content : String) (top : Option Element) (started : Nat) :
      Takes ⟨[], top, started⟩ (.text content) ⟨[], top, started⟩
  | text (content : String) (e : OpenElement) (rest : List OpenElement) (top : Option Element)
      (started : Nat) :
      Takes ⟨e :: rest, top, started⟩ (.text content) ⟨e.addText content :: rest, top, started⟩

theorem takes_of_perform {b next : Builder} {s : Step} (h : b.perform s = .ok next) :
    Takes b s next := by
  obtain ⟨opened, top, started⟩ := b
  cases s with
  | start tag offset =>
      cases opened with
      | nil =>
          cases top with
          | none =>
              cases h
              exact .root tag offset started
          | some top => cases h
      | cons e rest =>
          cases h
          exact .inner tag offset e rest top started
  | close =>
      cases opened with
      | nil => cases h
      | cons e rest =>
          cases rest with
          | nil =>
              cases h
              exact .closeRoot e top started
          | cons outer rest =>
              cases h
              exact .closeInner e outer rest top started
  | text content =>
      cases opened with
      | nil =>
          simp only [perform, Builder.text] at h
          split at h
          · cases h
            exact .blank content top started
          · cases h
      | cons e rest =>
          cases h
          exact .text content e rest top started

theorem eq_of_finish {b : Builder} {root : Element} (h : b.finish = .ok root) :
    b = ⟨[], some root, b.started⟩ := by
  obtain ⟨opened, top, started⟩ := b
  cases opened with
  | cons e rest => cases h
  | nil =>
      cases top with
      | none => cases h
      | some top =>
          cases h
          rfl

/-!
# Numbers
-/

def innermost? (b : Builder) : Option Nat :=
  b.opened.head?.map fun e => e.node.origin.rank

def started? (b : Builder) : Step -> Option Heading
  | .start tag offset => some ⟨tag, ⟨b.started, offset⟩, b.innermost?⟩
  | .close => none
  | .text _ => none

/-- The elements started so far are numbered one after the other. -/
def Numbered (b : Builder) : Prop :=
  b.headings.map (fun h => h.origin.rank) = List.range b.started

theorem numbered_empty : empty.Numbered :=
  rfl

section

variable {b next : Builder} {s : Step}

theorem length_headings (h : b.Numbered) : b.headings.length = b.started := by
  have hlength := congrArg List.length h
  rw [List.length_map, List.length_range] at hlength
  exact hlength

theorem innermost?_eq (h : b.Numbered) : b.innermost? = innermostPlace b.opened := by
  obtain ⟨opened, top, started⟩ := b
  cases opened with
  | nil => rfl
  | cons e rest =>
      have hrank : ((openHeadings (e :: rest)).map fun h => h.origin.rank)[
          (openHeadings rest).length]? = some e.node.origin.rank := by
        rw [openHeadings_cons, headingsAt_eq]
        simp [Node.heading, OpenElement.finish]
      have hnumbered : (openHeadings (e :: rest)).map (fun h => h.origin.rank) =
          List.range started := h
      rw [hnumbered, List.getElem?_eq_some_iff] at hrank
      rcases hrank with ⟨_, hrank⟩
      rw [List.getElem_range] at hrank
      rw [innermostPlace, hrank]
      rfl

theorem headings_of_takes (hnumbered : b.Numbered) (h : Takes b s next) :
    next.headings = b.headings ++ (b.started? s).toList := by
  cases h with
  | root tag offset started => rfl
  | inner tag offset e rest top started =>
      rw [started?, innermost?_eq hnumbered]
      rfl
  | closeRoot e top started => exact (List.append_nil _).symm
  | closeInner e outer rest top started =>
      exact (openHeadings_enclose e outer rest).trans (List.append_nil _).symm
  | blank content top started => exact (List.append_nil _).symm
  | text content e rest top started =>
      exact (openHeadings_addText e content rest).trans (List.append_nil _).symm

theorem numbered_of_takes (hnumbered : b.Numbered) (h : Takes b s next) : next.Numbered := by
  rw [Numbered, headings_of_takes hnumbered h, List.map_append, hnumbered]
  cases h with
  | root tag offset started => exact List.range_succ.symm
  | inner tag offset e rest top started => exact List.range_succ.symm
  | closeRoot e top started => exact List.append_nil _
  | closeInner e outer rest top started => exact List.append_nil _
  | blank content top started => exact List.append_nil _
  | text content e rest top started => exact List.append_nil _

end

/-!
# Runs
-/

def run (b : Builder) : List Step -> List (Builder × Step) × Builder
  | [] => ([], b)
  | s :: rest =>
      match b.perform s with
      | .ok next => ((b, s) :: (next.run rest).1, (next.run rest).2)
      | .error _ => b.run rest

/-- The headings of the elements that accepted steps start. -/
def startedIn (taken : List (Builder × Step)) : List Heading :=
  taken.flatMap fun t => (t.1.started? t.2).toList

/-- What holds when no step is accepted, and still holds when one is accepted before all
others, holds of every run. -/
theorem run_induction {P : Builder -> List (Builder × Step) -> Builder -> Prop}
    (stay : forall b, b.Numbered -> P b [] b)
    (step : forall b s next taken last, b.Numbered -> Takes b s next -> P next taken last ->
      P b ((b, s) :: taken) last)
    {b : Builder} (hnumbered : b.Numbered) (steps : List Step) :
    P b (b.run steps).1 (b.run steps).2 := by
  induction steps generalizing b with
  | nil => exact stay b hnumbered
  | cons s rest ih =>
      rw [run]
      cases hperform : b.perform s with
      | error fault => exact ih hnumbered
      | ok next =>
          have htakes := takes_of_perform hperform
          have hrest := ih (numbered_of_takes hnumbered htakes)
          exact step b s next _ _ hnumbered htakes hrest

theorem numbered_run {b : Builder} (hnumbered : b.Numbered) (steps : List Step) :
    (b.run steps).2.Numbered :=
  run_induction (P := fun _ _ last => last.Numbered) (fun _ h => h)
    (fun _ _ _ _ _ _ _ hlast => hlast) hnumbered steps

theorem headings_run {b : Builder} (hnumbered : b.Numbered) (steps : List Step) :
    (b.run steps).2.headings = b.headings ++ startedIn (b.run steps).1 := by
  refine run_induction (P := fun b taken last => last.headings = b.headings ++ startedIn taken)
    ?_ ?_ hnumbered steps
  · intro b _
    exact (List.append_nil b.headings).symm
  · intro b s next taken last hnumbered htakes hrest
    rw [hrest, headings_of_takes hnumbered htakes, List.append_assoc]
    rfl

theorem headings_ofRoot_of_finish {b : Builder} {root : Element} (h : b.finish = .ok root) :
    (Document.ofRoot root).headings = b.headings := by
  rw [eq_of_finish h, Document.headings, Document.toList_entries]
  rfl

end Builder
end FlowConfig
