import FlowConfig.Proofs.Document.Numbering

/-!
# Balanced documents

A builder is kept from call to call, whether or not a call fails.  What it has accepted
makes a document if and only if it is one element, with as many further elements inside
it as there are, each of them ended where it should be, and nothing but blank text before
and after.  Which calls fail, and how, is told by what was accepted before.
-/

namespace FlowConfig
namespace Builder

/-!
# Calls

The builder is state.  An end tag takes the innermost open element off the stack before it
is seen whether there is one; the other calls look first.
-/

/-- A call answers or fails, and leaves a builder either way. -/
abbrev Call (A : Type) := ExceptT StructureFault (StateM Builder) A

def popOpened : Call (Option OpenElement) :=
  modifyGet fun b =>
    match b.opened with
    | [] => (none, b)
    | e :: rest => (some e, { b with opened := rest })

def attach (e : Element) (b : Builder) : Builder :=
  match b.opened with
  | [] => { b with root := some e }
  | outer :: rest => { b with opened := outer.enclose e :: rest }

def pushOpened (tag : Markup.Tag) (offset : Nat) (b : Builder) : Builder :=
  { b with opened := .begin tag ⟨b.started, offset⟩ :: b.opened, started := b.started + 1 }

def appendText (content : String) (b : Builder) : Builder :=
  match b.opened with
  | [] => b
  | e :: rest => { b with opened := e.addText content :: rest }

def call : Step -> Call Unit
  | .start tag offset => do
      let b ← get
      if b.opened.isEmpty && b.root.isSome then throw .multipleRoots
      modify (pushOpened tag offset)
  | .close => do
      match ← popOpened with
      | none => throw .unbalancedEnd
      | some e => modify (attach e.finish)
  | .text content => do
      let b ← get
      if b.opened.isEmpty && !Text.allBlank content then throw .textOutsideRoot
      modify (appendText content)

/-- A call answers as the step does, and leaves the builder as it was when it fails. -/
theorem run_call (s : Step) (b : Builder) :
    (call s).run.run b =
      match b.perform s with
      | .ok next => (.ok (), next)
      | .error fault => (.error fault, b) := by
  obtain ⟨opened, top, started⟩ := b
  cases s with
  | start tag offset =>
      cases opened with
      | nil =>
          cases top with
          | none => rfl
          | some root => rfl
      | cons e rest => rfl
  | close =>
      cases opened with
      | nil => rfl
      | cons e rest =>
          cases rest with
          | nil => rfl
          | cons outer rest => rfl
  | text content =>
      cases opened with
      | nil =>
          simp only [call, perform, Builder.text]
          cases Text.allBlank content with
          | false => rfl
          | true => rfl
      | cons e rest => rfl

def attempts (steps : List Step) : StateM Builder (List (Step × Except StructureFault Unit)) :=
  steps.mapM fun s => do return (s, ← (call s).run)

def accepted (log : List (Step × Except StructureFault Unit)) : List Step :=
  (log.filter fun attempt => attempt.2.isOk).map Prod.fst

theorem run_attempts_cons (s : Step) (rest : List Step) (b : Builder) :
    (attempts (s :: rest)).run b =
      (((s, ((call s).run.run b).1) :: ((attempts rest).run ((call s).run.run b).2).1),
        ((attempts rest).run ((call s).run.run b).2).2) := by
  rw [attempts, List.mapM_cons]
  rfl

def taken (b : Builder) (steps : List Step) : List Step :=
  (b.run steps).1.map Prod.snd

theorem map_fst_attempts (steps : List Step) (b : Builder) :
    ((attempts steps).run b).1.map Prod.fst = steps := by
  induction steps generalizing b with
  | nil => rfl
  | cons s rest ih =>
      rw [run_attempts_cons, List.map_cons]
      exact congrArg (s :: ·) (ih _)

/-- What is left of some calls is what a run of the steps leaves, and the steps that it
takes are those that are accepted. -/
theorem run_attempts (steps : List Step) (b : Builder) :
    ((attempts steps).run b).2 = (b.run steps).2 ∧
      accepted ((attempts steps).run b).1 = b.taken steps := by
  induction steps generalizing b with
  | nil => exact ⟨rfl, rfl⟩
  | cons s rest ih =>
      rw [run_attempts_cons, run_call, taken, run]
      cases b.perform s with
      | error fault => exact ih b
      | ok next =>
          rcases ih next with ⟨hleft, htaken⟩
          refine ⟨hleft, ?_⟩
          exact congrArg (s :: ·) htaken

/-!
# Documents of steps
-/

/-- Steps that start and end elements in pairs, with text anywhere. -/
inductive Balanced : List Step -> Prop where
  | nil : Balanced []
  | text (content : String) {rest : List Step} : Balanced rest ->
      Balanced (.text content :: rest)
  | element (tag : Markup.Tag) (offset : Nat) {inner rest : List Step} : Balanced inner ->
      Balanced rest -> Balanced (.start tag offset :: inner ++ .close :: rest)

def BlankTexts (steps : List Step) : Prop :=
  forall s, s ∈ steps -> exists content, s = .text content ∧ Text.allBlank content = true

/-- One element with all inside it, and blank text around it. -/
def OneElement (steps : List Step) : Prop :=
  exists before tag offset inner after,
    steps = before ++ .start tag offset :: inner ++ .close :: after ∧
      BlankTexts before ∧ Balanced inner ∧ BlankTexts after

theorem blankTexts_nil : BlankTexts [] := by
  intro s hs
  cases hs

theorem blankTexts_cons {content : String} {rest : List Step}
    (hblank : Text.allBlank content = true) (h : BlankTexts rest) :
    BlankTexts (.text content :: rest) := by
  intro s hs
  rcases List.mem_cons.mp hs with heq | hmem
  · exact ⟨content, heq, hblank⟩
  · exact h s hmem

/-!
# What is accepted makes a document

When elements are open, what is accepted until all of them are closed falls into one
balanced part for each of them, the innermost first, and the text that comes after.
-/

/-- Some parts, each followed by an end tag, and what comes after all of them. -/
def endings : List (List Step) -> List Step -> List Step
  | [], after => after
  | part :: parts, after => part ++ .close :: endings parts after

def Closes (depth : Nat) (steps : List Step) : Prop :=
  exists parts after, parts.length = depth ∧ (forall part, part ∈ parts -> Balanced part) ∧
    BlankTexts after ∧ steps = endings parts after

theorem closes_close {depth : Nat} {rest : List Step} (h : Closes depth rest) :
    Closes (depth + 1) (.close :: rest) := by
  rcases h with ⟨parts, after, hlength, hparts, hafter, heq⟩
  refine ⟨[] :: parts, after, congrArg (· + 1) hlength, ?_, hafter, ?_⟩
  · intro part hpart
    rcases List.mem_cons.mp hpart with hnil | hmem
    · rw [hnil]
      exact .nil
    · exact hparts part hmem
  · rw [heq]
    rfl

theorem closes_text {depth : Nat} {rest : List Step} (content : String)
    (h : Closes (depth + 1) rest) : Closes (depth + 1) (.text content :: rest) := by
  rcases h with ⟨parts, after, hlength, hparts, hafter, heq⟩
  cases parts with
  | nil => cases hlength
  | cons part parts =>
      refine ⟨(.text content :: part) :: parts, after, hlength, ?_, hafter, ?_⟩
      · intro other hother
        rcases List.mem_cons.mp hother with hfirst | hmem
        · rw [hfirst]
          exact .text content (hparts part List.mem_cons_self)
        · exact hparts other (List.mem_cons_of_mem part hmem)
      · rw [heq]
        rfl

theorem closes_start {depth : Nat} {rest : List Step} (tag : Markup.Tag) (offset : Nat)
    (h : Closes (depth + 2) rest) : Closes (depth + 1) (.start tag offset :: rest) := by
  rcases h with ⟨parts, after, hlength, hparts, hafter, heq⟩
  match parts, hlength with
  | inner :: part :: parts, hlength =>
      refine ⟨(.start tag offset :: inner ++ .close :: part) :: parts, after,
        Nat.succ.inj hlength, ?_, hafter, ?_⟩
      · intro other hother
        rcases List.mem_cons.mp hother with hfirst | hmem
        · rw [hfirst]
          refine .element tag offset (hparts inner List.mem_cons_self) (hparts part ?_)
          exact List.mem_cons_of_mem inner List.mem_cons_self
        · exact hparts other (List.mem_cons_of_mem inner (List.mem_cons_of_mem part hmem))
      · rw [heq]
        simp only [endings, List.cons_append, List.append_assoc]

theorem allBlank_of_text {content : String} {top : Option Element} {started : Nat}
    {next : Builder} (h : perform ⟨[], top, started⟩ (.text content) = .ok next) :
    Text.allBlank content = true := by
  simp only [perform, Builder.text] at h
  split at h
  · assumption
  · cases h

section

variable {b next : Builder} {s : Step} {rest : List Step}

theorem taken_cons_of_ok (h : b.perform s = .ok next) :
    b.taken (s :: rest) = s :: next.taken rest := by
  rw [taken, run, h]
  rfl

theorem run_cons_of_ok (h : b.perform s = .ok next) :
    (b.run (s :: rest)).2 = (next.run rest).2 := by
  rw [run, h]

end

/-- When the root was started and all is closed in the end, the steps taken close what
was open. -/
theorem closes_taken {b : Builder} (steps : List Step)
    (hbegun : b.opened ≠ [] ∨ b.root ≠ none) (hclosed : (b.run steps).2.opened = []) :
    Closes b.opened.length (b.taken steps) := by
  induction steps generalizing b with
  | nil =>
      have hopened : b.opened = [] := hclosed
      rw [hopened]
      refine ⟨[], [], rfl, ?_, blankTexts_nil, rfl⟩
      intro part hpart
      cases hpart
  | cons s rest ih =>
      cases hperform : b.perform s with
      | error fault =>
          rw [taken, run, hperform]
          rw [run, hperform] at hclosed
          exact ih hbegun hclosed
      | ok next =>
          rw [taken_cons_of_ok hperform]
          rw [run_cons_of_ok hperform] at hclosed
          cases takes_of_perform hperform with
          | root tag offset started =>
              rcases hbegun with hopened | hroot
              · exact (hopened rfl).elim
              · exact (hroot rfl).elim
          | inner tag offset e rest top started =>
              exact closes_start tag offset (ih (.inl (List.cons_ne_nil _ _)) hclosed)
          | closeRoot e top started =>
              exact closes_close (ih (.inr (Option.some_ne_none _)) hclosed)
          | closeInner e outer rest top started =>
              exact closes_close (ih (.inl (List.cons_ne_nil _ _)) hclosed)
          | blank content top started =>
              rcases ih hbegun hclosed with ⟨parts, after, hlength, hparts, hafter, heq⟩
              cases parts with
              | cons part parts => cases hlength
              | nil =>
                  refine ⟨[], .text content :: after, rfl, hparts, ?_, ?_⟩
                  · exact blankTexts_cons (allBlank_of_text hperform) hafter
                  · rw [heq]
                    rfl
          | text content e rest top started =>
              exact closes_text content (ih (.inl (List.cons_ne_nil _ _)) hclosed)

/-- Whatever was refused: when a document is finished, the steps taken make one element. -/
theorem oneElement_taken {b : Builder} (steps : List Step) (hopened : b.opened = [])
    (hroot : b.root = none) {root : Element} (hfinish : (b.run steps).2.finish = .ok root) :
    OneElement (b.taken steps) := by
  induction steps generalizing b with
  | nil =>
      have hnone : b.root = some root := congrArg Builder.root (eq_of_finish hfinish)
      rw [hroot] at hnone
      cases hnone
  | cons s rest ih =>
      cases hperform : b.perform s with
      | error fault =>
          rw [taken, run, hperform]
          rw [run, hperform] at hfinish
          exact ih hopened hroot hfinish
      | ok next =>
          rw [taken_cons_of_ok hperform]
          rw [run_cons_of_ok hperform] at hfinish
          cases takes_of_perform hperform with
          | root tag offset started =>
              have hclosed := congrArg Builder.opened (eq_of_finish hfinish)
              have hcloses := closes_taken rest (.inl (List.cons_ne_nil _ _)) hclosed
              rcases hcloses with ⟨parts, after, hlength, hparts, hafter, heq⟩
              rcases List.length_eq_one_iff.mp hlength with ⟨inner, rfl⟩
              refine ⟨[], tag, offset, inner, after, ?_, blankTexts_nil,
                hparts inner List.mem_cons_self, hafter⟩
              rw [heq]
              rfl
          | inner tag offset e rest top started => cases hopened
          | closeRoot e top started => cases hopened
          | closeInner e outer rest top started => cases hopened
          | blank content top started =>
              rcases ih hopened hroot hfinish with
                ⟨before, tag, offset, inner, after, heq, hbefore, hinner, hafter⟩
              refine ⟨.text content :: before, tag, offset, inner, after, ?_, ?_, hinner, hafter⟩
              · rw [heq]
                rfl
              · exact blankTexts_cons (allBlank_of_text hperform) hbefore
          | text content e rest top started => cases hopened

/-!
# A document is accepted
-/

theorem attempts_of_foldlM {b last : Builder} {steps : List Step}
    (h : steps.foldlM perform b = .ok last) :
    (attempts steps).run b = (steps.map fun s => (s, .ok ()), last) := by
  induction steps generalizing b with
  | nil =>
      cases h
      rfl
  | cons s rest ih =>
      rw [List.foldlM_cons] at h
      cases hperform : b.perform s with
      | error fault =>
          rw [hperform] at h
          cases h
      | ok next =>
          rw [hperform] at h
          rw [run_attempts_cons, run_call, hperform]
          simp only
          rw [ih h]
          rfl

/-- Balanced steps leave the elements that are open. -/
theorem exists_foldlM_of_balanced {inner : List Step} (h : Balanced inner) (e : OpenElement)
    (outer : List OpenElement) (top : Option Element) (started : Nat) :
    exists last count, inner.foldlM perform ⟨e :: outer, top, started⟩ =
      .ok ⟨last :: outer, top, count⟩ := by
  induction h generalizing e outer started with
  | nil => exact ⟨e, started, rfl⟩
  | text content _ ih => exact ih (e.addText content) outer started
  | @element tag offset inner rest _ _ ihinner ihrest =>
      rcases ihinner (.begin tag ⟨started, offset⟩) (e :: outer) (started + 1) with
        ⟨inside, count, hinner⟩
      rcases ihrest (e.enclose inside.finish) outer count with ⟨last, total, hrest⟩
      refine ⟨last, total, ?_⟩
      rw [List.cons_append, List.foldlM_cons]
      show (inner ++ .close :: rest).foldlM perform
        ⟨.begin tag ⟨started, offset⟩ :: e :: outer, top, started + 1⟩ = _
      rw [List.foldlM_append, hinner]
      exact hrest

theorem foldlM_of_blankTexts {steps : List Step} (h : BlankTexts steps)
    (top : Option Element) (started : Nat) :
    steps.foldlM perform ⟨[], top, started⟩ = .ok ⟨[], top, started⟩ := by
  induction steps with
  | nil => rfl
  | cons s rest ih =>
      rcases h s List.mem_cons_self with ⟨content, heq, hblank⟩
      have hstep : perform ⟨[], top, started⟩ s = .ok ⟨[], top, started⟩ := by
        rw [heq, perform, Builder.text]
        exact if_pos hblank
      rw [List.foldlM_cons, hstep]
      exact ih fun other hother => h other (List.mem_cons_of_mem s hother)

theorem exists_foldlM_of_oneElement {steps : List Step} (h : OneElement steps) :
    exists root count, steps.foldlM perform empty = .ok ⟨[], some root, count⟩ := by
  rcases h with ⟨before, tag, offset, inner, after, heq, hbefore, hinner, hafter⟩
  rcases exists_foldlM_of_balanced hinner (.begin tag ⟨0, offset⟩) [] none 1 with
    ⟨last, count, hlast⟩
  refine ⟨last.finish, count, ?_⟩
  rw [heq, List.append_assoc, List.foldlM_append, empty, foldlM_of_blankTexts hbefore]
  show (inner ++ .close :: after).foldlM perform ⟨[.begin tag ⟨0, offset⟩], none, 1⟩ = _
  rw [List.foldlM_append, hlast]
  exact foldlM_of_blankTexts hafter _ _

/-!
# Which calls fail

Start and end tags among the accepted steps are counted; there are as many elements open
as there were more start tags than end tags.
-/

def Step.isStart : Step -> Bool
  | .start _ _ => true
  | .close => false
  | .text _ => false

def Step.isClose : Step -> Bool
  | .start _ _ => false
  | .close => true
  | .text _ => false

def starts (steps : List Step) : Nat :=
  steps.countP Step.isStart

def closes (steps : List Step) : Nat :=
  steps.countP Step.isClose

/-- How a step fails after the accepted ones: a start tag when the root was closed, an end
tag when no element is open, text that is not blank when no element is open. -/
inductive Refused (before : List Step) : Step -> StructureFault -> Prop where
  | start (tag : Markup.Tag) (offset : Nat) : starts before = closes before ->
      0 < starts before -> Refused before (.start tag offset) .multipleRoots
  | close : starts before = closes before -> Refused before .close .unbalancedEnd
  | text (content : String) : starts before = closes before ->
      Text.allBlank content = false -> Refused before (.text content) .textOutsideRoot

inductive Unfinished (before : List Step) : StructureFault -> Prop where
  | unclosed : closes before < starts before -> Unfinished before .unclosed
  | noRoot : starts before = 0 -> Unfinished before .noRoot

theorem starts_cons (s : Step) (rest : List Step) :
    starts (s :: rest) = starts [s] + starts rest := by
  rw [starts, starts, starts, ← List.countP_append, List.singleton_append]

theorem closes_cons (s : Step) (rest : List Step) :
    closes (s :: rest) = closes [s] + closes rest := by
  rw [closes, closes, closes, ← List.countP_append, List.singleton_append]

def Begun (b : Builder) : Prop :=
  b.opened ≠ [] ∨ b.root ≠ none

section

variable {b next : Builder} {s : Step}

theorem length_opened_of_takes (h : Takes b s next) :
    next.opened.length + closes [s] = b.opened.length + starts [s] := by
  cases h with
  | root tag offset started => rfl
  | inner tag offset e rest top started => rfl
  | closeRoot e top started => rfl
  | closeInner e outer rest top started => rfl
  | blank content top started => rfl
  | text content e rest top started => rfl

theorem begun_of_takes (h : Takes b s next) : next.Begun <-> b.Begun ∨ 0 < starts [s] := by
  cases h with
  | root tag offset started => simp [Begun, starts, Step.isStart]
  | inner tag offset e rest top started => simp [Begun]
  | closeRoot e top started => simp [Begun]
  | closeInner e outer rest top started => simp [Begun]
  | blank content top started => simp [Begun, starts, Step.isStart]
  | text content e rest top started => simp [Begun]

end

theorem length_opened_run {b : Builder} (hnumbered : b.Numbered) (steps : List Step) :
    (b.run steps).2.opened.length + closes (b.taken steps) =
      b.opened.length + starts (b.taken steps) := by
  refine run_induction (P := fun b taken last =>
    last.opened.length + closes (taken.map Prod.snd) =
      b.opened.length + starts (taken.map Prod.snd)) ?_ ?_ hnumbered steps
  · intro b _
    rfl
  · intro b s next taken last _ htakes hrest
    have hstep := length_opened_of_takes htakes
    simp only [List.map_cons]
    rw [starts_cons s, closes_cons s]
    omega

theorem begun_run {b : Builder} (hnumbered : b.Numbered) (steps : List Step) :
    (b.run steps).2.Begun <-> b.Begun ∨ 0 < starts (b.taken steps) := by
  refine run_induction (P := fun b taken last =>
    last.Begun <-> b.Begun ∨ 0 < starts (taken.map Prod.snd)) ?_ ?_ hnumbered steps
  · intro b _
    exact (or_iff_left (Nat.lt_irrefl 0)).symm
  · intro b s next taken last _ htakes hrest
    simp only [List.map_cons]
    rw [hrest, begun_of_takes htakes, or_assoc, starts_cons s (taken.map Prod.snd),
      Nat.add_pos_iff_pos_or_pos]

section

variable {b : Builder}

theorem start_eq_error_iff {tag : Markup.Tag} {offset : Nat} {fault : StructureFault} :
    b.start tag offset = .error fault <->
      fault = .multipleRoots ∧ b.opened = [] ∧ b.root ≠ none := by
  obtain ⟨opened, top, started⟩ := b
  cases opened with
  | nil =>
      cases top with
      | none => simp [Builder.start]
      | some root => simp [Builder.start, eq_comm]
  | cons e rest => simp [Builder.start]

theorem close_eq_error_iff {fault : StructureFault} :
    b.close = .error fault <-> fault = .unbalancedEnd ∧ b.opened = [] := by
  obtain ⟨opened, top, started⟩ := b
  cases opened with
  | nil => simp [Builder.close, eq_comm]
  | cons e rest =>
      cases rest with
      | nil => simp [Builder.close]
      | cons outer rest => simp [Builder.close]

theorem text_eq_error_iff {content : String} {fault : StructureFault} :
    b.text content = .error fault <->
      fault = .textOutsideRoot ∧ b.opened = [] ∧ Text.allBlank content = false := by
  obtain ⟨opened, top, started⟩ := b
  cases opened with
  | nil =>
      simp only [Builder.text]
      cases Text.allBlank content with
      | false => simp [eq_comm]
      | true => simp
  | cons e rest => simp [Builder.text]

theorem finish_eq_error_iff {fault : StructureFault} :
    b.finish = .error fault <->
      fault = .unclosed ∧ b.opened ≠ [] ∨
        fault = .noRoot ∧ b.opened = [] ∧ b.root = none := by
  obtain ⟨opened, top, started⟩ := b
  cases opened with
  | nil =>
      cases top with
      | none => simp [Builder.finish, eq_comm]
      | some root => simp [Builder.finish]
  | cons e rest => simp [Builder.finish, eq_comm]

end

/-- The builder is as the accepted steps tell. -/
structure Told (b : Builder) (before : List Step) : Prop where
  opened : b.opened.length + closes before = starts before
  begun : b.Begun <-> 0 < starts before

theorem told_run_empty (steps : List Step) : (empty.run steps).2.Told (empty.taken steps) where
  opened := by
    rw [length_opened_run numbered_empty]
    exact Nat.zero_add _
  begun := by
    rw [begun_run numbered_empty]
    exact or_iff_right fun hbegun => hbegun.elim (fun h => h rfl) fun h => h rfl

section

variable {b : Builder} {before : List Step}

theorem Told.opened_eq_nil_iff (h : b.Told before) :
    b.opened = [] <-> starts before = closes before := by
  have hopened := h.opened
  rw [← List.length_eq_zero_iff]
  omega

theorem Told.root_eq_none_iff (h : b.Told before) (hnone : b.opened = []) :
    b.root = none <-> starts before = 0 := by
  have hbegun := h.begun
  rw [Begun, hnone, or_iff_right fun hne => hne rfl, Nat.pos_iff_ne_zero] at hbegun
  exact not_iff_not.mp hbegun

theorem Told.perform_eq_error_iff (h : b.Told before) {s : Step} {fault : StructureFault} :
    b.perform s = .error fault <-> Refused before s fault := by
  cases s with
  | start tag offset =>
      rw [perform, start_eq_error_iff]
      constructor
      · intro hrefused
        rcases hrefused with ⟨hfault, hnone, hroot⟩
        rw [hfault]
        refine .start tag offset (h.opened_eq_nil_iff.mp hnone) (Nat.pos_of_ne_zero ?_)
        exact mt (h.root_eq_none_iff hnone).mpr hroot
      · intro hrefused
        cases hrefused with
        | start _ _ hequal hpos =>
            have hnone := h.opened_eq_nil_iff.mpr hequal
            refine ⟨rfl, hnone, ?_⟩
            exact mt (h.root_eq_none_iff hnone).mp (Nat.ne_of_gt hpos)
  | close =>
      rw [perform, close_eq_error_iff, h.opened_eq_nil_iff]
      constructor
      · intro hrefused
        rw [hrefused.left]
        exact .close hrefused.right
      · intro hrefused
        cases hrefused with
        | close hequal => exact ⟨rfl, hequal⟩
  | text content =>
      rw [perform, text_eq_error_iff, h.opened_eq_nil_iff]
      constructor
      · intro hrefused
        rcases hrefused with ⟨hfault, hequal, hblank⟩
        rw [hfault]
        exact .text content hequal hblank
      · intro hrefused
        cases hrefused with
        | text _ hequal hblank => exact ⟨rfl, hequal, hblank⟩

theorem Told.finish_eq_error_iff (h : b.Told before) {fault : StructureFault} :
    b.finish = .error fault <-> Unfinished before fault := by
  have hopened := h.opened
  rw [Builder.finish_eq_error_iff]
  constructor
  · intro hunfinished
    rcases hunfinished with ⟨hfault, hsome⟩ | ⟨hfault, hnone, hroot⟩
    · have hpos := List.length_pos_iff.mpr hsome
      rw [hfault]
      exact .unclosed (by omega)
    · rw [hfault]
      exact .noRoot ((h.root_eq_none_iff hnone).mp hroot)
  · intro hunfinished
    cases hunfinished with
    | unclosed hless =>
        refine .inl ⟨rfl, ?_⟩
        rw [← List.length_pos_iff]
        omega
    | noRoot hzero =>
        have hnone : b.opened = [] := h.opened_eq_nil_iff.mpr (by omega)
        exact .inr ⟨rfl, hnone, (h.root_eq_none_iff hnone).mpr hzero⟩

end

/-!
# All calls
-/

theorem answer_of_call_eq_error_iff {b : Builder} {s : Step} {fault : StructureFault} :
    ((call s).run.run b).1 = .error fault <-> b.perform s = .error fault := by
  rw [run_call]
  cases b.perform s with
  | ok next => simp
  | error other => simp

theorem left_of_call_error {b next : Builder} {s : Step} {fault : StructureFault}
    (h : (call s).run.run b = (.error fault, next)) : next = b := by
  rw [run_call] at h
  cases hperform : b.perform s with
  | ok other =>
      rw [hperform] at h
      cases h
  | error other =>
      rw [hperform] at h
      cases h
      rfl

theorem accepted_attempts {b : Builder} {steps : List Step}
    (h : forall attempt, attempt ∈ ((attempts steps).run b).1 -> attempt.2 = .ok ()) :
    accepted ((attempts steps).run b).1 = steps := by
  have hall : ((attempts steps).run b).1.filter (fun attempt => attempt.2.isOk) =
      ((attempts steps).run b).1 := by
    rw [List.filter_eq_self]
    intro attempt hattempt
    rw [h attempt hattempt]
    rfl
  rw [accepted, hall, map_fst_attempts]

/-- Any calls on a new builder, which is kept when a call fails: all of them answer and
the document can be finished if and only if they are blank text, one element with balanced
steps inside it, and blank text again.  After any calls, a call that fails leaves the
builder as it was; a start tag fails exactly when the root was closed, an end tag exactly
when no element is open, and text exactly when it is not blank and no element is open.
Finishing fails exactly when an element is open or when none was ever started. -/
theorem calls_accept_exactly_one_element (steps : List Step) :
    let log := ((attempts steps).run empty).1
    let b := ((attempts steps).run empty).2
    ((forall attempt, attempt ∈ log -> attempt.2 = .ok ()) ∧ (exists root, b.finish = .ok root) <->
      OneElement steps) ∧
    (forall s fault next, (call s).run.run b = (.error fault, next) -> next = b) ∧
    (forall s fault, ((call s).run.run b).1 = .error fault <-> Refused (accepted log) s fault) ∧
    forall fault, b.finish = .error fault <-> Unfinished (accepted log) fault := by
  intro log b
  rcases run_attempts steps empty with ⟨hleft, haccepted⟩
  have htold : b.Told (accepted log) := by
    rw [show b = (empty.run steps).2 from hleft, show accepted log = _ from haccepted]
    exact told_run_empty steps
  refine ⟨?_, fun _ _ _ => left_of_call_error, ?_, fun _ => htold.finish_eq_error_iff⟩
  · constructor
    · intro h
      rcases h with ⟨hanswered, root, hfinish⟩
      rw [show b = (empty.run steps).2 from hleft] at hfinish
      have hone := oneElement_taken steps rfl rfl hfinish
      rw [← haccepted, accepted_attempts hanswered] at hone
      exact hone
    · intro h
      rcases exists_foldlM_of_oneElement h with ⟨root, count, hfold⟩
      have hrun := attempts_of_foldlM hfold
      refine ⟨?_, root, ?_⟩
      · intro attempt hattempt
        rw [show log = _ from congrArg Prod.fst hrun, List.mem_map] at hattempt
        rcases hattempt with ⟨s, _, heq⟩
        rw [← heq]
      · rw [show b = _ from congrArg Prod.snd hrun]
        rfl
  · intro s fault
    rw [answer_of_call_eq_error_iff]
    exact htold.perform_eq_error_iff

end Builder
end FlowConfig
