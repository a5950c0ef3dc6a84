import FlowConfig.Flow.Loading
import FlowConfig.Proofs.Document.Construction
import FlowConfig.Proofs.Document.Offsets
import FlowConfig.Proofs.Document.Reading
import FlowConfig.Proofs.Schema.Offsets

/-!
# The way of writing does not matter

Two texts that differ only in the way they are written are both refused, or they
hold the same document up to byte offsets.  Then whatever is decided about the
document is decided alike.
-/

namespace FlowConfig
namespace Document

open Markup

/-!
# One document, two texts
-/

/-- The texts have the same tokens: as they are written, or after their tags
have been decoded.  As they are written, tags may still turn out to be wrong. -/
inductive SameForm (a b : Bytes) : Prop where
  | written {found other : List (Lexeme Bytes Bytes)} :
      lexemes a = .ok found -> lexemes b = .ok other ->
        tokens tagName found = tokens tagName other -> SameForm a b
  | decoded {events other : List Event} :
      (transcribe a).verdict = .ok events -> (transcribe b).verdict = .ok other ->
        eventTokens events = eventTokens other -> SameForm a b

variable {State : Type} {a b : Bytes}

theorem toOption_readTree_of_sameForm (h : SameForm a b) {Other : Type}
    (handler : Handler State) (state : State) (handler' : Handler Other) (state' : Other) :
    (readTree handler state a).2.toOption.map Element.withoutOffsets =
      (readTree handler' state' b).2.toOption.map Element.withoutOffsets := by
  cases h with
  | written hfound hother htokens =>
      rw [toOption_readTree_of_lexemes hfound, toOption_readTree_of_lexemes hother, htokens]
  | decoded hevents hother htokens =>
      rw [toOption_readTree, hevents, toOption_readTree, hother]
      exact congrArg Builder.empty.build htokens

/-!
# Equal answers
-/

/-- Both texts are refused, with issues of one severity. -/
structure RefusedAlike (a b : Bytes) (issue other : Issue) : Prop where
  first : forall {State : Type} (handler : Handler State) (state : State),
    (read handler state a).2 = .error issue
  second : forall {State : Type} (handler : Handler State) (state : State),
    (read handler state b).2 = .error other
  severity : issue.severity = other.severity
  isEmptyFlow : isEmptyFlow a = .error issue ∧ isEmptyFlow b = .error other
  classify : forall resolver checkBundles,
    classify resolver checkBundles a = .error (.rejected issue) ∧
      classify resolver checkBundles b = .error (.rejected other)

/-- Both texts are accepted.  The documents are equal up to byte offsets, and
whatever is asked about them has the same answer. -/
structure AcceptedAlike (a b : Bytes) (d e : Document) : Prop where
  first : forall {State : Type} (handler : Handler State) (state : State),
    (read handler state a).2 = .ok (some d)
  second : forall {State : Type} (handler : Handler State) (state : State),
    (read handler state b).2 = .ok (some e)
  withoutOffsets : d.withoutOffsets = e.withoutOffsets
  check : forall resolver, d.check resolver = e.check resolver
  checkAll : forall resolver, d.checkAll resolver = e.checkAll resolver
  model : Model.ofDocument d = Model.ofDocument e
  isEmptyFlow : isEmptyFlow a = isEmptyFlow b
  classify : forall resolver checkBundles,
    classify resolver checkBundles a = classify resolver checkBundles b

theorem refusedAlike_of_parse {issue other : Issue} (ha : a ≠ []) (hb : b ≠ [])
    (hissue : parse a = .error issue) (hother : parse b = .error other)
    (hseverity : issue.severity = other.severity) : RefusedAlike a b issue other where
  first := fun handler state => (snd_read_eq_parse ha handler state).trans hissue
  second := fun handler state => (snd_read_eq_parse hb handler state).trans hother
  severity := hseverity
  isEmptyFlow := by
    rw [FlowConfig.isEmptyFlow, hissue, FlowConfig.isEmptyFlow, hother]
    exact ⟨rfl, rfl⟩
  classify := by
    intro resolver checkBundles
    rw [FlowConfig.classify, hissue, FlowConfig.classify, hother]
    exact ⟨rfl, rfl⟩

theorem acceptedAlike_of_parse {d e : Document} (ha : a ≠ []) (hb : b ≠ [])
    (hd : parse a = .ok (some d)) (he : parse b = .ok (some e))
    (hsame : d.withoutOffsets = e.withoutOffsets) : AcceptedAlike a b d e := by
  have hcheck : forall resolver, d.check resolver = e.check resolver := by
    intro resolver
    rw [← check_withoutOffsets, hsame, check_withoutOffsets]
  have hmodel : Model.ofDocument d = Model.ofDocument e := by
    rw [← Model.ofDocument_withoutOffsets, hsame, Model.ofDocument_withoutOffsets]
  refine ⟨fun handler state => (snd_read_eq_parse ha handler state).trans hd,
    fun handler state => (snd_read_eq_parse hb handler state).trans he, hsame, hcheck, ?_, hmodel,
    ?_, ?_⟩
  · intro resolver
    rw [← checkAll_withoutOffsets, hsame, checkAll_withoutOffsets]
  · simp only [isEmptyFlow, hd, he, hmodel]
  · intro resolver checkBundles
    simp only [classify, hd, he, hmodel, verifyBundles, hcheck]

theorem admits_of_withoutOffsets_eq {root other : Element}
    (h : root.withoutOffsets = other.withoutOffsets) (hadmits : flowSchema.Admits root) :
    flowSchema.Admits other := by
  rw [← Schema.admits_withoutOffsets_iff, ← h]
  exact Schema.admits_withoutOffsets_iff.mpr hadmits

/-- Texts with the same tokens are both refused or both accepted.  Comments,
declarations, empty tags and the ways to write text make no difference to the
document but in its byte offsets, nor to the bundle check, the model, the
question whether the flow is empty and the decision to load it. -/
theorem reading_ignores_lexical_form (ha : a ≠ []) (hb : b ≠ []) (h : SameForm a b) :
    (exists issue other, RefusedAlike a b issue other) ∨
      exists d e, AcceptedAlike a b d e := by
  have htrees := toOption_readTree_of_sameForm h Handler.silent () Handler.silent ()
  have hfirst := outcome_parse ha
  have hsecond := outcome_parse hb
  generalize (readTree Handler.silent () a).2.toOption = tree at htrees hfirst
  generalize (readTree Handler.silent () b).2.toOption = other at htrees hsecond
  generalize hanswer : parse a = answer at hfirst
  generalize hanswer' : parse b = answer' at hsecond
  cases hfirst with
  | malformed hfatal =>
      cases hsecond with
      | malformed hfatal' =>
          exact .inl ⟨_, _, refusedAlike_of_parse ha hb hanswer hanswer'
            (hfatal.trans hfatal'.symm)⟩
      | invalid => cases htrees
      | valid => cases htrees
  | @invalid root issue hinvalid herror =>
      cases hsecond with
      | malformed => cases htrees
      | invalid _ herror' =>
          exact .inl ⟨_, _, refusedAlike_of_parse ha hb hanswer hanswer'
            (herror.trans herror'.symm)⟩
      | @valid root' hvalid' =>
          have hsame : root.withoutOffsets = root'.withoutOffsets := Option.some.inj htrees
          exact absurd (admits_of_withoutOffsets_eq hsame.symm hvalid') hinvalid
  | @valid root hvalid =>
      cases hsecond with
      | malformed => cases htrees
      | @invalid root' issue hinvalid' =>
          have hsame : root.withoutOffsets = root'.withoutOffsets := Option.some.inj htrees
          exact absurd (admits_of_withoutOffsets_eq hsame hvalid) hinvalid'
      | @valid root' =>
          have hsame : root.withoutOffsets = root'.withoutOffsets := Option.some.inj htrees
          exact .inr ⟨_, _, acceptedAlike_of_parse ha hb hanswer hanswer' (congrArg ofRoot hsame)⟩

def haveSameTokens (a b : Bytes) : Bool :=
  match lexemes a, lexemes b with
  | .ok found, .ok other => tokens tagName found == tokens tagName other
  | _, _ => false

theorem sameForm_of_haveSameTokens (h : haveSameTokens a b = true) : SameForm a b := by
  rw [haveSameTokens] at h
  split at h
  · next found other hfound hother => exact .written hfound hother (eq_of_beq h)
  · cases h

def plainText : Bytes :=
  Utf8.encode ("<flowController><rootGroup><id>a&lt;b</id><name></name></rootGroup>" ++
    "</flowController>").toList

def ornateText : Bytes :=
  Utf8.encode ("<?xml version='1.0'?><!DOCTYPE f><flowController><!-- c --><rootGroup><id>a" ++
    "<!-- c --><![CDATA[<]]>b</id><name/></rootGroup></flowController>").toList

theorem reading_ignores_lexical_form_ornateText :
    plainText ≠ [] ∧ ornateText ≠ [] ∧ SameForm plainText ornateText ∧
      exists d e, AcceptedAlike plainText ornateText d e := by
  have hplain : plainText ≠ [] := by decide +kernel
  have hornate : ornateText ≠ [] := by decide +kernel
  have hform : SameForm plainText ornateText :=
    sameForm_of_haveSameTokens (by decide +kernel)
  refine ⟨hplain, hornate, hform, ?_⟩
  have haccepted : (parse plainText).isOk = true := by decide +kernel
  rcases reading_ignores_lexical_form hplain hornate hform with ⟨issue, other, hrefused⟩ | h
  · have hrefusal : parse plainText = .error issue := hrefused.first Handler.silent ()
    rw [hrefusal] at haccepted
    cases haccepted
  · exact h

end Document
end FlowConfig
