import FlowConfig.Proofs.Document.Reading

/-!
# What a handler is told

Whoever listens while a document is read is told of each issue once, when it is met: of a
warning for every document type declaration that was read, and last of the issue that
ended reading, if one did.  What is told, and what reading answers, is the same for all
listeners.
-/

namespace FlowConfig
namespace Document

variable {State : Type} {input : Bytes}

theorem eventsRead_nil : eventsRead [] = [] := by
  rw [eventsRead, Markup.transcribe_nil]
  rfl

theorem eventsRead_of_parse {answer : Option Document} (h : parse input = .ok answer) :
    eventsRead input = (Markup.transcribe input).events := by
  by_cases hinput : input = []
  · rw [hinput, eventsRead_nil, Markup.transcribe_nil]
  · cases htree : (readTree Handler.silent () input).2 with
    | ok root =>
        rcases exists_builder_of_readTree htree with ⟨builder, hassemble, _, _⟩
        exact Builder.eventsRead_of_assemble hassemble
    | error issue =>
        rw [parse, snd_read_eq hinput, htree] at h
        cases h

theorem severity_of_parse_eq_error {issue : Issue} (h : parse input = .error issue) :
    issue.severity = .fatal ∨ issue.severity = .error := by
  by_cases hinput : input = []
  · rw [hinput] at h
    cases h
  · have houtcome := outcome_parse hinput
    generalize (readTree Handler.silent () input).2.toOption = tree at houtcome
    rw [h] at houtcome
    cases houtcome with
    | malformed hseverity => exact Or.inl hseverity
    | invalid _ hseverity => exact Or.inr hseverity

theorem aborts_of_parse_eq_error {issue : Issue} (h : parse input = .error issue) :
    issue.aborts = true := by
  rw [Issue.aborts]
  rcases severity_of_parse_eq_error h with hfatal | herror
  · rw [hfatal]
    rfl
  · rw [herror]
    rfl

theorem isSchemaViolation_iff {issue : Issue} (h : parse input = .error issue) :
    issue.isSchemaViolation = true <->
      exists root, (readTree Handler.silent () input).2 = .ok root := by
  have hinput : input ≠ [] := by
    rintro rfl
    cases h
  have houtcome := outcome_parse hinput
  rw [h] at houtcome
  rw [Issue.isSchemaViolation]
  cases htree : (readTree Handler.silent () input).2 with
  | error unread =>
      rw [htree] at houtcome
      cases houtcome with
      | malformed hfatal =>
          rw [hfatal]
          exact iff_of_false Bool.false_ne_true fun ⟨_, hok⟩ => nomatch hok
  | ok root =>
      rw [htree] at houtcome
      cases houtcome with
      | invalid _ herror =>
          rw [herror]
          exact iff_of_true rfl ⟨root, rfl⟩

/-- All calls on a handler, in their order. -/
theorem read_eq_receiveAll (handler : Handler State) (state : State) (input : Bytes) :
    read handler state input =
      (handler.receiveAll state (doctypeWarnings input (eventsRead input) ++
        endingNotices (parse input)), parse input) := by
  by_cases hinput : input = []
  · rw [hinput, eventsRead_nil]
    rfl
  · rw [← snd_read_eq_parse hinput handler state, read_eq hinput]

/-- Whatever the handler does, it is told of one warning for each document type declaration
that was read before reading stopped, in their order, and then, if and only if the answer
is an issue, of this very issue, as a fatal error or an error by its severity.  Reading
stops at the end of the events or at the one that the builder refuses, and the answer is
the same for all handlers. -/
theorem read_tells_each_issue_once (input : Bytes) :
    let ending := endingNotices (parse input)
    (forall (State : Type) (handler : Handler State) (state : State),
      read handler state input =
        (handler.receiveAll state (doctypeWarnings input (eventsRead input) ++ ending),
          parse input)) ∧
    eventsRead input <+: (Markup.transcribe input).events ∧
    (forall answer, parse input = .ok answer ->
      ending = [] ∧ eventsRead input = (Markup.transcribe input).events) ∧
    forall issue, parse input = .error issue ->
      issue.severity = .fatal ∧ ending = [.fatal issue] ∨
        issue.severity = .error ∧ ending = [.error issue] := by
  intro ending
  refine ⟨?_, Builder.empty.eventsRead_prefix _, ?_, ?_⟩
  · intro State handler state
    exact read_eq_receiveAll handler state input
  · intro answer hanswer
    refine ⟨?_, eventsRead_of_parse hanswer⟩
    rw [show ending = endingNotices (parse input) from rfl, hanswer]
    rfl
  · intro issue hissue
    have hending : ending = [issue.notice] := by
      rw [show ending = endingNotices (parse input) from rfl, hissue]
      rfl
    rw [hending, Issue.notice]
    rcases severity_of_parse_eq_error hissue with hfatal | herror
    · rw [hfatal]
      exact Or.inl ⟨rfl, rfl⟩
    · rw [herror]
      exact Or.inr ⟨rfl, rfl⟩

/-!
# What is kept of it
-/

theorem receiveAll_recording (issues : List Issue) (notices : List Notice) :
    Handler.recording.receiveAll issues notices =
      (notices.map Notice.issue).reverse ++ issues := by
  induction notices generalizing issues with
  | nil => rfl
  | cons notice rest ih =>
      show Handler.recording.receiveAll (Handler.recording.receive issues notice) rest = _
      rw [ih, List.map_cons, List.reverse_cons, List.append_assoc]
      cases notice with
      | warning issue => rfl
      | error issue => rfl
      | fatal issue => rfl

theorem issue_notice (issue : Issue) : issue.notice.issue = issue := by
  rw [Issue.notice]
  cases issue.severity with
  | warning => rfl
  | error => rfl
  | fatal => rfl

theorem max_warning (s : Severity) : s.max .warning = s := by
  cases s with
  | warning => rfl
  | error => rfl
  | fatal => rfl

theorem worst?_cons_of_warnings {issue : Issue} {rest : List Issue}
    (h : forall i, i ∈ rest -> i.severity = .warning) :
    Issue.worst? (issue :: rest) = some issue.severity := by
  rw [Issue.worst?, List.foldl_cons]
  induction rest with
  | nil => rfl
  | cons i rest ih =>
      rw [List.foldl_cons, h i List.mem_cons_self]
      simp only [max_warning]
      exact ih fun j hj => h j (List.mem_cons_of_mem i hj)

theorem severity_of_mem_doctypeWarnings {events : List (Markup.Located Markup.Event)}
    {issue : Issue} (h : issue ∈ (doctypeWarnings input events).map Notice.issue) :
    issue.severity = .warning := by
  rw [doctypeWarnings, List.map_map] at h
  rcases List.mem_map.mp h with ⟨located, _, rfl⟩
  rfl

theorem worst?_recorded {issue : Issue} (h : parse input = .error issue) :
    Issue.worst? (read Handler.recording [] input).1 = some issue.severity := by
  rw [read_eq_receiveAll, h, receiveAll_recording, List.append_nil, List.map_append,
    List.reverse_append]
  have hlast : (endingNotices (.error issue : Except Issue (Option Document))).map Notice.issue =
      [issue] := congrArg (fun i => [i]) (issue_notice issue)
  rw [hlast]
  apply worst?_cons_of_warnings
  intro i hi
  exact severity_of_mem_doctypeWarnings (List.mem_reverse.mp hi)

end Document
end FlowConfig
