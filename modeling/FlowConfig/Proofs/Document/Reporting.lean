import FlowConfig.Document.Reading
import FlowConfig.Proofs.Markup.Transcript

/-!
# What is reported

A computation that reports keeps to a protocol: it tells its handler of some
warnings, then of the issue that it fails with, if it fails, and of nothing else.
The protocol is kept by every place where reading fails and by every sequence of
such places, since nothing comes after a failure.
-/

namespace FlowConfig

/-- A call on a handler. -/
inductive Notice where
  | warning (issue : Issue)
  | error (issue : Issue)
  | fatal (issue : Issue)
deriving DecidableEq, Repr

def Notice.issue : Notice -> Issue
  | .warning issue => issue
  | .error issue => issue
  | .fatal issue => issue

/-- The call that is due for an issue of its severity. -/
def Issue.notice (issue : Issue) : Notice :=
  match issue.severity with
  | .warning => .warning issue
  | .error => .error issue
  | .fatal => .fatal issue

namespace Handler

variable {State : Type} (handler : Handler State)

def receive (state : State) : Notice -> State
  | .warning issue => handler.warning state issue
  | .error issue => handler.error state issue
  | .fatal issue => handler.fatal state issue

/-- The state of a handler after some calls, one after the other. -/
def receiveAll (state : State) (notices : List Notice) : State :=
  notices.foldl handler.receive state

theorem receiveAll_append (state : State) (before after : List Notice) :
    handler.receiveAll state (before ++ after) =
      handler.receiveAll (handler.receiveAll state before) after :=
  List.foldl_append

theorem abort_eq_receive (state : State) {issue : Issue} (h : issue.severity ≠ .warning) :
    handler.abort state issue = handler.receive state issue.notice := by
  rw [abort, Issue.notice]
  cases hseverity : issue.severity with
  | warning => exact (h hseverity).elim
  | error => rfl
  | fatal => rfl

end Handler

/-- The call for the issue that ended reading, if one did. -/
def Document.endingNotices {A : Type} : Except Issue A -> List Notice
  | .ok _ => []
  | .error issue => [issue.notice]

/-!
# The protocol
-/

namespace Reporting

open Document (endingNotices)

variable {State A B Fault : Type} {handler : Handler State} {input : Bytes}
variable {x : Reporting State A} {f : A -> Reporting State B} {before after : List Notice}

theorem runFrom_bind (x : Reporting State A) (f : A -> Reporting State B) (state : State) :
    runFrom state (x >>= f) =
      match runFrom state x with
      | (last, .ok answer) => runFrom last (f answer)
      | (last, .error issue) => (last, .error issue) := by
  rw [runFrom, runFrom, ExceptT.run_bind, StateT.run_bind]
  cases x.run.run state with
  | mk outcome last =>
      cases outcome with
      | ok answer => rfl
      | error issue => rfl

/-- From any state, the handler is told as said, then of the issue that is the outcome, if
it is one. -/
def Reports (handler : Handler State) (x : Reporting State A) (before : List Notice)
    (outcome : Except Issue A) : Prop :=
  forall state,
    runFrom state x = (handler.receiveAll state (before ++ endingNotices outcome), outcome)

theorem reports_pure (answer : A) : Reports handler (pure answer) [] (.ok answer) :=
  fun _ => rfl

theorem reports_warn (issue : Issue) :
    Reports handler (warn handler issue) [.warning issue] (.ok ()) :=
  fun _ => rfl

theorem reports_abort {issue : Issue} (h : issue.severity ≠ .warning) :
    Reports handler (abort handler issue : Reporting State A) [] (.error issue) := by
  intro state
  exact Prod.ext (handler.abort_eq_receive state h) rfl

theorem reports_fatal (message : String) (offset : Nat) :
    Reports handler (fatal handler input message offset : Reporting State A) []
      (.error (Issue.locatedAt .fatal message input offset)) := by
  apply reports_abort
  intro hwarning
  cases hwarning

theorem reports_bind {answer : A} {outcome : Except Issue B}
    (hx : Reports handler x before (.ok answer)) (hf : Reports handler (f answer) after outcome) :
    Reports handler (x >>= f) (before ++ after) outcome := by
  intro state
  have hnone : before ++ endingNotices (.ok answer : Except Issue A) = before :=
    List.append_nil before
  rw [runFrom_bind, hx state, hnone]
  simp only
  rw [hf, List.append_assoc, handler.receiveAll_append state before]

theorem reports_bind_of_error {issue : Issue} (hx : Reports handler x before (.error issue)) :
    Reports handler (x >>= f) before (.error issue) := by
  intro state
  rw [runFrom_bind, hx state]
  rfl

theorem reports_bind_silent {outcome : Except Issue A} {further : A -> Except Issue B}
    (hx : Reports handler x [] outcome)
    (hf : forall answer, Reports handler (f answer) [] (further answer)) :
    Reports handler (x >>= f) [] (outcome >>= further) := by
  cases outcome with
  | error issue => exact reports_bind_of_error hx
  | ok answer => exact reports_bind hx (hf answer)

theorem reports_orFatal (message : Fault -> String) (offset : Nat) (result : Except Fault A) :
    Reports handler (orFatal handler input message offset result) []
      (result.mapError fun fault => Issue.locatedAt .fatal (message fault) input offset) := by
  cases result with
  | error fault => exact reports_fatal (message fault) offset
  | ok answer => exact reports_pure answer

end Reporting

/-!
# Start tags
-/

namespace Document

open Markup Reporting

variable {State : Type} (handler : Handler State) (input : Bytes) (offset : Nat)

def faultIssue (fault : Fault) : Issue :=
  Issue.locatedAt .fatal fault.message input (fault.offsetFrom offset)

def structureIssue (fault : StructureFault) : Issue :=
  Issue.locatedAt .fatal fault.message input offset

theorem mapError_bind {A B E E' : Type} (r : Except E A) (k : A -> Except E B) (g : E -> E') :
    (r >>= k).mapError g = r.mapError g >>= fun a => (k a).mapError g := by
  cases r with
  | error e => rfl
  | ok a => rfl

theorem mapError_map_bind {A B C E E' : Type} (r : Except E A) (h : A -> B) (g : E -> E')
    (k : B -> Except E' C) :
    (r.map h).mapError g >>= k = r.mapError g >>= fun a => k (h a) := by
  cases r with
  | error e => rfl
  | ok a => rfl

theorem reports_structure {A : Type} (result : Except StructureFault A) :
    Reports handler (orFatal handler input StructureFault.message offset result) []
      (result.mapError (structureIssue input offset)) :=
  reports_orFatal StructureFault.message offset result

theorem reports_decodeName (raw : Bytes) :
    Reports handler (orFatal handler input Fault.message offset (decodeName raw)) []
      ((decodeName raw).mapError (faultIssue input offset)) := by
  rw [decodeName]
  cases Utf8.decodeString raw with
  | ok name => exact reports_pure name
  | error malformed => exact reports_fatal _ offset

theorem reports_decodeText (raw : Bytes) :
    Reports handler (orFatal handler input Fault.message offset (decodeText raw)) []
      ((decodeText raw).mapError (faultIssue input offset)) := by
  rw [decodeText]
  cases Utf8.decode raw with
  | error malformed => exact reports_fatal _ offset
  | ok cs =>
      simp only
      cases unescape cs with
      | ok content => exact reports_pure _
      | error fault => exact reports_fatal _ offset

theorem reports_decodeCdata (raw : Bytes) :
    Reports handler (orFatal handler input Fault.message offset (decodeCdata raw)) []
      ((decodeCdata raw).mapError (faultIssue input offset)) := by
  rw [decodeCdata]
  cases Utf8.decodeString raw with
  | ok content => exact reports_pure content
  | error malformed => exact reports_fatal _ offset

theorem reports_readElementName (scope : Scope) (raw : Bytes) :
    Reports handler (readElementName handler input offset scope raw) []
      ((decodeElementName scope raw).mapError (faultIssue input offset)) := by
  rw [readElementName, decodeElementName]
  generalize splitName raw = parts
  obtain ⟨label, localPart⟩ := parts
  simp only [mapError_bind]
  refine reports_bind_silent (reports_decodeName handler input offset localPart) fun name => ?_
  cases scope.resolve label with
  | unbound => exact reports_pure (name, none)
  | bound uri =>
      simp only [mapError_bind]
      exact reports_bind_silent (reports_decodeName handler input offset uri) fun uri =>
        reports_pure (name, some uri)
  | unknownPrefix label => exact reports_fatal _ offset

theorem reports_readAttributeKey (scope : Scope) (element : String) (raw : Bytes) :
    Reports handler (readAttributeKey handler input offset scope element raw) []
      ((decodeAttributeKey scope element raw).mapError (faultIssue input offset)) := by
  rw [readAttributeKey, decodeAttributeKey]
  generalize splitName raw = parts
  obtain ⟨label, localPart⟩ := parts
  simp only [mapError_bind]
  refine reports_bind_silent (reports_decodeName handler input offset localPart) fun name => ?_
  cases scope.resolveAttribute label with
  | unbound => exact reports_pure name
  | bound uri =>
      simp only [mapError_bind]
      exact reports_bind_silent (reports_decodeName handler input offset uri) fun uri =>
        reports_pure (expandedName uri name)
  | unknownPrefix label => exact reports_fatal _ offset

/-- The attributes before the end of a tag, or the fault that stands there. -/
def endAttributes (fault : Option (Nat × AttributeFault)) (found : List (String × String)) :
    Except Fault (List (String × String)) :=
  match fault with
  | none => .ok found
  | some (position, fault) => .error (.attribute position fault)

theorem reports_readAttributes (scope : Scope) (element : String)
    (fault : Option (Nat × AttributeFault)) (before : List (String × String))
    (attributes : List RawAttribute) :
    Reports handler (readAttributes handler input offset scope element fault before attributes) []
      ((decodeAttributes scope element before attributes >>= endAttributes fault).mapError
        (faultIssue input offset)) := by
  induction attributes generalizing before with
  | nil =>
      cases fault with
      | none => exact reports_pure before.reverse
      | some fault => exact reports_fatal _ offset
  | cons a rest ih =>
      rw [readAttributes, decodeAttributes]
      by_cases hdeclares : (declaration? a.key).isSome
      · rw [if_pos hdeclares, if_pos hdeclares]
        exact ih before
      · rw [if_neg hdeclares, if_neg hdeclares, bind_assoc, mapError_bind]
        refine reports_bind_silent (reports_readAttributeKey handler input offset scope element
          a.key) fun key => ?_
        rw [bind_assoc, mapError_bind]
        refine reports_bind_silent (reports_decodeText handler input offset a.value)
          fun value => ?_
        split
        · exact reports_fatal _ offset
        · exact ih _

theorem decodeTag_eq (scope : Scope) (content : Bytes) :
    decodeTag scope content =
      decodeElementName scope (tagName content) >>= fun name =>
        decodeAttributes scope name.1 [] (scanAttributes true content).attributes >>=
          endAttributes (scanAttributes true content).fault >>= fun attributes =>
            .ok ⟨name.1, name.2, attributes⟩ := by
  rw [decodeTag]
  refine bind_congr fun found => ?_
  obtain ⟨name, uri⟩ := found
  rw [bind_assoc]
  refine bind_congr fun attributes => ?_
  cases (scanAttributes true content).fault with
  | none => rfl
  | some fault => rfl

theorem reports_openElement (scope : Scope) (b : Builder) (content : Bytes) :
    Reports handler (openElement handler input offset scope b content) []
      ((decodeTag scope content).mapError (faultIssue input offset) >>= fun tag =>
        (b.start tag offset).mapError (structureIssue input offset)) := by
  rw [openElement, decodeTag_eq, mapError_bind, bind_assoc]
  refine reports_bind_silent (reports_readElementName handler input offset scope _)
    fun name => ?_
  rw [mapError_bind, bind_assoc]
  refine reports_bind_silent (reports_readAttributes handler input offset scope name.1 _ [] _)
    fun attributes => ?_
  exact reports_structure handler input offset _

end Document
end FlowConfig
