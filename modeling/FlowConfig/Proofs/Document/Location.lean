import FlowConfig.Proofs.Document.Opening
import FlowConfig.Proofs.Document.Position
import FlowConfig.Proofs.Schema.Flow
import FlowConfig.Proofs.Schema.Order

/-!
# Where schema violations are located

A well-formed text that breaks the schema is refused for the first violation in
document order, at the opening bracket of the element that is at fault.  The schema
defines every type it names, so nothing is reported ahead of this order; and an element
keeps the offset at which its start tag was read.
-/

namespace FlowConfig

open Ascii Markup

/-!
# Types of a flow
-/

namespace FlowSchema

theorem closed : flowSchema.Closed := by
  have hall : forall t, t ∈ types.reverse -> forall d, d ∈ t.content.declarations ->
      (flowSchema.type? d.typeName).isSome = true := by
    decide +kernel
  intro typeName t htype declarations hcontent d hd
  rw [flowSchema, Schema.type?_withTypes, Schema.type?_new, Option.or_none] at htype
  apply Option.isSome_iff_exists.mp
  apply hall t (List.mem_of_find?_eq_some htype) d
  rw [hcontent]
  exact hd

end FlowSchema

/-!
# Elements and their start tags
-/

/-- The element was read from this start tag of the text, and has its offset. -/
structure Element.IsWrittenAs (e : Element) (input : Bytes) (tag : Located Bytes) : Prop where
  offset_eq : e.origin.offset = tag.offset
  stands : StandsAt input tag.offset tag.value
  decoded : exists scope, decodeTag scope tag.value = .ok ⟨e.name, e.uri, e.attributes⟩

namespace Document

variable {State : Type} {handler : Handler State} {state : State} {input : Bytes}
  {root : Element}

theorem dropByteOrderMark_of_unmarked (h : byteOrderMark.isPrefixOf input = false) :
    dropByteOrderMark input = input := by
  rw [dropByteOrderMark, h]
  rfl

theorem map_offset_eq {written : List (Located Bytes)} {es : List Element}
    (h : List.Forall₂ IsReadAs written (es.map Element.opening)) :
    written.map Located.offset = es.map fun e => e.origin.offset := by
  rw [← List.forall₂_eq_eq_eq, List.forall₂_map_left_iff, List.forall₂_map_right_iff]
  rw [List.forall₂_map_right_iff] at h
  exact h.imp fun _ _ hread => hread.offset_eq.symm

theorem isWrittenAs_of_isReadAs {written : List (Located Bytes)} {es : List Element}
    (hstands : forall tag, tag ∈ written -> StandsAt input tag.offset tag.value)
    (h : List.Forall₂ IsReadAs written (es.map Element.opening)) :
    List.Forall₂ (fun tag e => e.IsWrittenAs input tag) written es := by
  rw [List.forall₂_map_right_iff] at h
  have hboth := (List.forall₂_and_left _ _).mpr ⟨hstands, h⟩
  exact hboth.imp fun _ _ both => ⟨both.right.offset_eq, both.left, both.right.decoded⟩

theorem exists_of_mem_of_forall₂ {A B : Type} {R : A -> B -> Prop} {as : List A} {bs : List B}
    {b : B} (h : List.Forall₂ R as bs) (hb : b ∈ bs) : exists a, a ∈ as ∧ R a b := by
  induction h with
  | nil => cases hb
  | cons hhead _ ih =>
      rcases List.mem_cons.mp hb with rfl | hrest
      · exact ⟨_, List.mem_cons_self, hhead⟩
      · rcases ih hrest with ⟨a, ha, hab⟩
        exact ⟨a, List.mem_cons_of_mem _ ha, hab⟩

theorem mem_elements_of_firstViolation {s : Schema} {e : Element} {v : Violation}
    (h : s.FirstViolation root e v) : e ∈ root.elements := by
  cases h with
  | unexpectedRoot _ =>
      rw [Element.elements_eq]
      exact List.mem_cons_self
  | inside _ _ hfirst =>
      rcases hfirst with ⟨before, typeName, after, htypings, _, _⟩
      apply (s.map_fst_typings_sublist root s.rootType).subset
      rw [htypings, List.map_append]
      exact List.mem_append_right _ List.mem_cons_self

/-- A document has one first violation at most, so a report of it is told by the document. -/
theorem firstViolation_unique {s : Schema} {e d : Element} {v w : Violation}
    (hv : s.FirstViolation root e v) (hw : s.FirstViolation root d w) : e = d ∧ v = w := by
  cases hv with
  | unexpectedRoot hroot =>
      cases hw with
      | unexpectedRoot _ => exact ⟨rfl, rfl⟩
      | inside hname huri _ => exact absurd ⟨hname, huri⟩ hroot
  | inside hname huri hfirst =>
      cases hw with
      | unexpectedRoot hroot => exact absurd ⟨hname, huri⟩ hroot
      | inside _ _ hother => exact Schema.firstFault_unique hfirst hother

/-- In a well-formed text the elements stand in document order as their start tags do,
and all types that are given to them are defined.  If the text has no byte order mark in
front, each element has the offset of the bracket that opens its start tag; and if it
breaks the schema, the answer is an error with the message of the first violation in
document order, at the line and the column of this bracket of the element at fault. -/
theorem schema_rejection_is_located (h : (readTree handler state input).2 = .ok root) :
    (root.elements.map fun e => e.origin.offset).Pairwise (· < ·) ∧
      (forall e typeName, (e, typeName) ∈ flowSchema.typings root flowSchema.rootType ->
        exists t, flowSchema.type? typeName = some t) ∧
      (byteOrderMark.isPrefixOf input = false ->
        List.Forall₂ (fun tag e => e.IsWrittenAs input tag) (startTags input) root.elements ∧
          (flowSchema.validate root ≠ .ok () ->
            exists e v issue tag, flowSchema.FirstViolation root e v ∧
              tag ∈ startTags input ∧ e.IsWrittenAs input tag ∧
                (read handler state input).2 = .error issue ∧ issue.severity = .error ∧
                  issue.message = v.message ∧
                    issue.position = ⟨(input.take tag.offset).count lineFeed + 1,
                      (lastLine (input.take tag.offset)).length + 1⟩)) := by
  have hread := isReadAs_of_readTree h
  refine ⟨?_, ?_, ?_⟩
  · rw [← map_offset_eq hread, List.pairwise_map]
    exact pairwise_startTagsFrom 0 _
  · intro e typeName hmem
    exact Schema.exists_type_of_mem_typings FlowSchema.closed ⟨_, rfl⟩ hmem
  · intro hunmarked
    rw [dropByteOrderMark_of_unmarked hunmarked] at hread
    have hwritten := isWrittenAs_of_isReadAs (fun tag => standsAt_of_mem_startTags) hread
    refine ⟨hwritten, ?_⟩
    intro hrejected
    cases hvalidate : flowSchema.validate root with
    | ok done => exact absurd hvalidate hrejected
    | error fault =>
        obtain ⟨e, v⟩ := fault
        have hfirst := Schema.firstViolation_of_closed FlowSchema.closed hvalidate
        rcases exists_of_mem_of_forall₂ hwritten (mem_elements_of_firstViolation hfirst) with
          ⟨tag, htag, hiswritten⟩
        refine ⟨e, v, schemaIssue input e v, tag, hfirst, htag, hiswritten, ?_, rfl, rfl, ?_⟩
        · rw [snd_read_eq (ne_nil_of_readTree h), h]
          simp only [hvalidate]
        · rw [← foldl_advance_eq, ← hiswritten.offset_eq]
          rfl

def bareGroup : Bytes :=
  Utf8.encode "<!-- > -->\n<flowController>\n  <rootGroup/>\n</flowController>".toList

theorem schema_rejection_is_located_bareGroup :
    byteOrderMark.isPrefixOf bareGroup = false ∧
      exists root, (readTree Handler.silent () bareGroup).2 = .ok root ∧
        flowSchema.validate root ≠ .ok () ∧
        exists e v issue, flowSchema.FirstViolation root e v ∧
          parse bareGroup = .error issue ∧ issue.severity = .error ∧
            issue.message = v.message ∧ issue.position = ⟨3, 3⟩ := by
  have hunmarked : byteOrderMark.isPrefixOf bareGroup = false := by decide +kernel
  have hinput : bareGroup ≠ [] := by decide +kernel
  have hissue : (match parse bareGroup with
      | .ok _ => false
      | .error issue => decide (issue.severity = .error ∧ issue.position = ⟨3, 3⟩)) = true := by
    decide +kernel
  have houtcome := outcome_parse hinput
  generalize hparse : parse bareGroup = answer at hissue houtcome
  cases htree : (readTree Handler.silent () bareGroup).2 with
  | error issue =>
      rw [htree] at houtcome
      cases houtcome with
      | malformed hfatal =>
          have hsevere := (of_decide_eq_true hissue).left
          rw [hfatal] at hsevere
          cases hsevere
  | ok root =>
      rw [htree] at houtcome
      cases houtcome with
      | valid _ => cases hissue
      | invalid hnot herror =>
          rename_i issue
          have hrejected : flowSchema.validate root ≠ .ok () :=
            fun hok => hnot (Schema.validate_eq_ok_iff.mp hok)
          rcases (schema_rejection_is_located htree).right.right hunmarked with ⟨_, hlocated⟩
          rcases hlocated hrejected with
            ⟨e, v, found, tag, hfirst, _, _, hread, hseverity, hmessage, _⟩
          have hsilent : (read Handler.silent () bareGroup).2 = .error issue := hparse
          have hsame : found = issue := Except.error.inj (hread.symm.trans hsilent)
          rw [hsame] at hseverity hmessage
          exact ⟨hunmarked, root, rfl, hrejected, e, v, issue, hfirst, rfl, hseverity,
            hmessage, (of_decide_eq_true hissue).right⟩

end Document
end FlowConfig
