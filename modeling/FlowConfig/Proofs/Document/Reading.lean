import FlowConfig.Proofs.Document.Transcription
import FlowConfig.Proofs.Schema.Conformance

/-!
# What reading answers

A text that is not well formed is refused with a fatal error, and one whose tree
the schema does not admit with an error.  Otherwise the document of the tree is
the answer.  Who listens to the issues makes no difference.
-/

namespace FlowConfig

theorem Markup.transcribe_nil : transcribe [] = ⟨[], none⟩ := by
  have hdrop : dropByteOrderMark [] = [] := rfl
  rw [transcribe, hdrop, transcribeFrom]
  rfl

namespace Document

open Markup Reporting

variable {State : Type} {input : Bytes}

/-- The events of a text that are read before reading stops. -/
def eventsRead (input : Bytes) : List (Located Event) :=
  Builder.empty.eventsRead (transcribe input).events

def validated (input : Bytes) (root : Element) : Except Issue (Option Document) :=
  match flowSchema.validate root with
  | .ok () => .ok (some (ofRoot root))
  | .error (e, v) => .error (schemaIssue input e v)

theorem reports_readValid (hinput : input ≠ []) (handler : Handler State) :
    Reports handler (readValid handler input) (doctypeWarnings input (eventsRead input))
      (treeOf input Builder.empty (transcribe input) >>= validated input) := by
  have hroot := reports_readRoot handler input
  rw [readValid, List.isEmpty_eq_false_iff.mpr hinput, eventsRead]
  cases htree : treeOf input Builder.empty (transcribe input) with
  | error issue =>
      rw [htree] at hroot
      exact reports_bind_of_error hroot
  | ok root =>
      rw [htree] at hroot
      rw [← List.append_nil (doctypeWarnings _ _)]
      refine reports_bind hroot ?_
      show Reports handler _ [] (validated input root)
      rw [validated]
      cases flowSchema.validate root with
      | ok done => exact reports_pure _
      | error violation =>
          apply reports_abort
          intro hwarning
          cases hwarning

theorem readTree_eq (handler : Handler State) (state : State) (input : Bytes) :
    readTree handler state input =
      (handler.receiveAll state (doctypeWarnings input (eventsRead input) ++
          endingNotices (treeOf input Builder.empty (transcribe input))),
        treeOf input Builder.empty (transcribe input)) :=
  reports_readRoot handler input state

theorem read_eq (hinput : input ≠ []) (handler : Handler State) (state : State) :
    read handler state input =
      (handler.receiveAll state (doctypeWarnings input (eventsRead input) ++
          endingNotices (treeOf input Builder.empty (transcribe input) >>= validated input)),
        treeOf input Builder.empty (transcribe input) >>= validated input) :=
  reports_readValid hinput handler state

theorem snd_readTree (handler : Handler State) (state : State) (input : Bytes) :
    (readTree handler state input).2 = treeOf input Builder.empty (transcribe input) :=
  congrArg Prod.snd (readTree_eq handler state input)

/-- A tree that was read is the one that was built, all events were fed to the builder,
and reading ended without a fault. -/
theorem exists_builder_of_readTree {handler : Handler State} {state : State} {root : Element}
    (h : (readTree handler state input).2 = .ok root) :
    exists builder, Builder.empty.assemble (transcribe input).events = .ok builder ∧
      (transcribe input).fault = none ∧ builder.finish = .ok root := by
  rw [snd_readTree, treeOf] at h
  split at h
  · cases h
  · next builder hassemble =>
      split at h
      · cases h
      · next hfault =>
          cases hfinish : builder.finish with
          | error fault =>
              rw [hfinish] at h
              cases h
          | ok built =>
              rw [hfinish] at h
              cases h
              exact ⟨builder, hassemble, hfault, hfinish⟩

theorem ne_nil_of_readTree {handler : Handler State} {state : State} {root : Element}
    (h : (readTree handler state input).2 = .ok root) : input ≠ [] := by
  rintro rfl
  rcases exists_builder_of_readTree h with ⟨builder, hassemble, _, hfinish⟩
  rw [transcribe_nil] at hassemble
  cases hassemble
  cases hfinish

theorem severity_of_readTree_eq_error {handler : Handler State} {state : State} {issue : Issue}
    (h : (readTree handler state input).2 = .error issue) : issue.severity = .fatal := by
  rw [snd_readTree, treeOf] at h
  split at h
  · cases h
    rfl
  · next builder hassemble =>
      split at h
      · cases h
        rfl
      · cases hfinish : builder.finish with
        | error fault =>
            rw [hfinish] at h
            cases h
            rfl
        | ok built =>
            rw [hfinish] at h
            cases h

/-- What reading answers, from the tree. -/
theorem snd_read_eq (hinput : input ≠ []) (handler : Handler State) (state : State) :
    (read handler state input).2 =
      match (readTree handler state input).2 with
      | .error issue => .error issue
      | .ok root =>
          match flowSchema.validate root with
          | .ok () => .ok (some (ofRoot root))
          | .error (e, v) => .error (schemaIssue input e v) := by
  rw [read_eq hinput, snd_readTree]
  cases treeOf input Builder.empty (transcribe input) with
  | error issue => rfl
  | ok root => rfl

theorem snd_read_eq_parse (hinput : input ≠ []) (handler : Handler State) (state : State) :
    (read handler state input).2 = parse input := by
  rw [parse, read_eq hinput, read_eq hinput]

theorem parse_of_readTree {root : Element}
    (h : (readTree Handler.silent () input).2 = .ok root) (hadmits : flowSchema.Admits root) :
    parse input = .ok (some (ofRoot root)) := by
  rw [parse, snd_read_eq (ne_nil_of_readTree h), h]
  simp only [Schema.validate_eq_ok_iff.mpr hadmits]

theorem readTree_of_parse {d : Document} (hinput : input ≠ [])
    (h : parse input = .ok (some d)) : (readTree Handler.silent () input).2 = .ok d.root := by
  rw [parse, snd_read_eq hinput] at h
  cases htree : (readTree Handler.silent () input).2 with
  | error issue =>
      rw [htree] at h
      cases h
  | ok root =>
      simp only [htree] at h
      split at h
      · cases h
        rfl
      · cases h

/-- What reading a text answers, by the tree that is found in it. -/
inductive Outcome : Option Element -> Except Issue (Option Document) -> Prop where
  | malformed {issue : Issue} : issue.severity = .fatal -> Outcome none (.error issue)
  | invalid {root : Element} {issue : Issue} : ¬ flowSchema.Admits root ->
      issue.severity = .error -> Outcome (some root) (.error issue)
  | valid {root : Element} : flowSchema.Admits root ->
      Outcome (some root) (.ok (some (ofRoot root)))

theorem outcome_parse (hinput : input ≠ []) :
    Outcome (readTree Handler.silent () input).2.toOption (parse input) := by
  rw [parse, snd_read_eq hinput]
  cases htree : (readTree Handler.silent () input).2 with
  | error issue => exact .malformed (severity_of_readTree_eq_error htree)
  | ok root =>
      dsimp only
      cases hvalid : flowSchema.validate root with
      | ok done => exact .valid (Schema.validate_eq_ok_iff.mp hvalid)
      | error violation =>
          refine .invalid ?_ rfl
          intro hadmits
          rw [Schema.validate_eq_ok_iff.mpr hadmits] at hvalid
          cases hvalid

theorem admits_of_parse {d : Document} (h : parse input = .ok (some d)) :
    flowSchema.Admits d.root := by
  have hinput : input ≠ [] := by
    rintro rfl
    cases h
  have houtcome := outcome_parse hinput
  rw [h] at houtcome
  generalize (readTree Handler.silent () input).2.toOption = tree at houtcome
  cases houtcome with
  | valid hadmits => exact hadmits

end Document
end FlowConfig
