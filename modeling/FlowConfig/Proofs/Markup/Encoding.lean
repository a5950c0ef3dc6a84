import FlowConfig.Proofs.Markup.Cutting
import FlowConfig.Proofs.Markup.Parts
import FlowConfig.Proofs.Markup.Scanning

/-!
# The encoding of what is read

A text that is read to its end has been decoded wherever reading decodes.  If what
reading goes past is UTF-8 too, the text is from end to end: marks are ASCII, an end
tag repeats a name, and a prefix was declared.
-/

namespace FlowConfig
namespace Markup

open Utf8

variable {raw content : Bytes} {scope inner : Scope}

/-!
# Prefixes

A prefix is not decoded where it is used, but it was declared.
-/

/-- The prefixes that are bound are texts. -/
def Scope.HasTextLabels (scope : Scope) : Prop :=
  forall b, b ∈ scope -> forall label, b.label = some label -> IsText label

theorem snd_splitName_of_none (h : (splitName raw).1 = none) : (splitName raw).2 = raw := by
  rw [splitName] at h ⊢
  split at h
  · rfl
  · cases h

theorem eq_append_of_splitName {label : Bytes} (h : (splitName raw).1 = some label) :
    raw = label ++ Ascii.colon :: (splitName raw).2 := by
  rw [splitName] at h ⊢
  split at h
  · cases h
  · next b localPart hdrop =>
      cases h
      have hcolon : (b != Ascii.colon) = false := by
        have hhead := List.head?_dropWhile_not (fun b => b != Ascii.colon) raw
        rw [hdrop] at hhead
        exact hhead
      have hb : b = Ascii.colon := by simpa using hcolon
      have hwhole := List.takeWhile_append_dropWhile (p := fun b => b != Ascii.colon) (l := raw)
      rw [hdrop, hb] at hwhole
      exact hwhole.symm

theorem exists_binding_of_known {label : Bytes}
    (h : forall other, scope.resolve (some label) ≠ .unknownPrefix other) :
    exists b, b ∈ scope ∧ b.label = some label := by
  cases hfind : scope.find? (fun b => b.label == some label) with
  | none =>
      apply absurd _ (h label)
      simp only [Scope.resolve, hfind]
  | some b =>
      have hlabel := List.find?_some hfind
      exact ⟨b, List.mem_of_find?_eq_some hfind, eq_of_beq hlabel⟩

theorem isText_of_nameIsRead {resolve : Option Bytes -> Resolution}
    (hscope : scope.HasTextLabels) (h : NameIsRead resolve raw)
    (hresolve : forall label, resolve (some label) = scope.resolve (some label)) :
    IsText raw := by
  have hlocal : IsText (splitName raw).2 := h.parts _ List.mem_cons_self
  cases hlabel : (splitName raw).1 with
  | none =>
      rw [snd_splitName_of_none hlabel] at hlocal
      exact hlocal
  | some label =>
      have hknown := h.known
      rw [hlabel, hresolve] at hknown
      rcases exists_binding_of_known hknown with ⟨b, hb, hbound⟩
      rw [eq_append_of_splitName hlabel]
      exact isText_append_cons (by decide) (hscope b hb label hbound) hlocal

theorem isText_of_declaration? {key label : Bytes} (h : declaration? key = some (.named label))
    (hkey : IsText key) : IsText label := by
  rw [declaration?] at h
  split at h
  · next hbegins =>
      split at h
      · cases h
      · next b rest hdrop =>
          split at h
          · next hcolon =>
              cases h
              have hsplit : key = key.take 5 ++ Ascii.colon :: label := by
                rw [← eq_of_beq hcolon, ← hdrop, List.take_append_drop]
              rw [hsplit] at hkey
              exact (isText_of_append_cons (by decide) hkey).right
          · cases h
  · cases h

theorem hasTextLabels_declareOne {a : RawAttribute} (hscope : scope.HasTextLabels)
    (ha : a.isDeclaration = true -> IsText a.key) (h : scope.declareOne a = .ok inner) :
    inner.HasTextLabels := by
  have hcons : forall {b : Binding}, (forall label, b.label = some label -> IsText label) ->
      Scope.HasTextLabels (b :: scope) := by
    intro b hb other hother
    rcases List.mem_cons.mp hother with rfl | hother
    · exact hb
    · exact hscope other hother
  rw [Scope.declareOne] at h
  split at h
  · cases h
    exact hscope
  · cases h
    exact hcons fun label hlabel => by cases hlabel
  · next label hdeclaration =>
      have hlabel : IsText label := by
        apply isText_of_declaration? hdeclaration (ha _)
        rw [RawAttribute.isDeclaration, hdeclaration]
        rfl
      split at h
      · split at h
        · cases h
          exact hscope
        · cases h
      · split at h
        · cases h
        · split at h
          · cases h
          · split at h
            · cases h
            · cases h
              apply hcons
              intro other hother
              simp only at hother
              split at hother
              · cases hother
              · cases hother
                exact hlabel

theorem hasTextLabels_declareAll {attributes : List RawAttribute} (hscope : scope.HasTextLabels)
    (hall : forall a, a ∈ attributes -> a.isDeclaration = true -> IsText a.key)
    (h : scope.declareAll attributes = .ok inner) : inner.HasTextLabels := by
  induction attributes generalizing scope with
  | nil =>
      cases h
      exact hscope
  | cons a rest ih =>
      rw [Scope.declareAll] at h
      split at h
      · next next hone =>
          apply ih _ (fun other hother => hall other (List.mem_cons_of_mem a hother)) h
          exact hasTextLabels_declareOne hscope (hall a List.mem_cons_self) hone
      · cases h

/-!
# One piece
-/

/-- What reading remembers is text. -/
structure ReaderState.IsText (state : ReaderState) : Prop where
  names : forall o, o ∈ state.opened -> Utf8.IsText o.name
  outer : forall o, o ∈ state.opened -> o.outer.HasTextLabels
  scope : state.scope.HasTextLabels

theorem isText_initial : ReaderState.initial.IsText where
  names := fun _ h => by cases h
  outer := fun _ h => by cases h
  scope := by
    have hall : forall b, b ∈ Scope.initial ->
        Utf8.IsText (b.label.getD []) := by
      decide +kernel
    intro b hb label hlabel
    have htext := hall b hb
    rw [hlabel] at htext
    exact htext

theorem isText_declaration {a : RawAttribute} {attributes : List RawAttribute}
    (hparts : forall part, part ∈ attributes.flatMap declarationParts -> Utf8.IsText part)
    (ha : a ∈ attributes) (hdeclaration : a.isDeclaration = true) : a.IsText := by
  have hmem : forall part, part ∈ declarationParts a -> Utf8.IsText part :=
    fun part hpart => hparts part (List.mem_flatMap.mpr ⟨a, ha, hpart⟩)
  rw [declarationParts, if_pos hdeclaration] at hmem
  exact ⟨hmem a.key List.mem_cons_self,
    hmem a.value (List.mem_cons_of_mem a.key List.mem_cons_self)⟩

theorem hasTextLabels_enterScope (hscope : scope.HasTextLabels)
    (hfault : (scanAttributes true content).fault = none)
    (hparts : forall part, part ∈
      (scanAttributes true content).attributes.flatMap declarationParts -> Utf8.IsText part)
    (h : enterScope scope content = .ok inner) : inner.HasTextLabels := by
  have hscan : scanAttributes false content = scanAttributes true content :=
    scanFrom_of_distinct hfault
  rw [enterScope, Scope.enter, hscan] at h
  split at h
  · next declared hdeclared =>
      cases h
      apply hasTextLabels_declareAll hscope _ hdeclared
      intro a ha hdeclaration
      exact (isText_declaration hparts ha hdeclaration).left
  · cases h

theorem isText_tagName (hscope : scope.HasTextLabels) (h : TagIsRead scope content) :
    Utf8.IsText (tagName content) :=
  isText_of_nameIsRead hscope h.name fun _ => rfl

theorem isText_of_tagIsRead (hscope : scope.HasTextLabels) (h : TagIsRead scope content)
    (hparts : forall part, part ∈
      (scanAttributes true content).attributes.flatMap declarationParts -> Utf8.IsText part) :
    Utf8.IsText content := by
  have hall : forall a, a ∈ (scanAttributes true content).attributes -> a.IsText := by
    intro a ha
    rcases h.attributes a ha with hdeclaration | ⟨hkey, hvalue⟩
    · exact isText_declaration hparts ha hdeclaration
    · exact ⟨isText_of_nameIsRead hscope hkey fun _ => rfl, hvalue⟩
  have hgap : AttributeState.gap.IsQuotedInAscii := trivial
  have hrest : Utf8.IsText (content.drop (tagName content).length) :=
    completes_of_scanFrom hgap h.fault hall
  have hbegins : tagName content <+: content := List.takeWhile_prefix _
  rw [← List.prefix_iff_eq_append.mp hbegins]
  exact isText_append (isText_tagName hscope h) hrest

theorem isText_of_endName (h : Utf8.IsText (endName content)) : Utf8.IsText content := by
  rw [endName] at h
  split at h
  · exact h
  · have hwhole := List.takeWhile_append_dropWhile (p := Ascii.isSpace) (l := content.reverse)
    have hspaces : Utf8.IsText (content.reverse.takeWhile Ascii.isSpace).reverse := by
      apply isText_ascii
      intro b hb
      have hall := List.all_eq_true.mp (List.all_takeWhile (p := Ascii.isSpace)
        (l := content.reverse))
      exact toNat_lt_of_isSpace (hall b (List.mem_reverse.mp hb))
    rw [← content.reverse_reverse, ← hwhole, List.reverse_append]
    exact isText_append h hspaces

variable {state next : ReaderState} {piece : Piece} {event : Event}

theorem exists_tag_of_startTag (h : readEvent state (.startTag content) = .ok (event, next)) :
    exists inner tag, enterScope state.scope content = .ok inner ∧
      decodeTag inner content = .ok tag ∧
        next = ⟨⟨tagName content, state.scope⟩ :: state.opened, inner⟩ := by
  rw [readEvent] at h
  rcases exists_of_bind_eq_ok h with ⟨inner, hinner, h⟩
  rcases exists_of_bind_eq_ok h with ⟨tag, htag, h⟩
  cases h
  exact ⟨inner, tag, hinner, htag, rfl⟩

theorem exists_tag_of_emptyTag (h : readEvent state (.emptyTag content) = .ok (event, next)) :
    exists inner tag, enterScope state.scope content = .ok inner ∧
      decodeTag inner content = .ok tag ∧ next = state := by
  rw [readEvent] at h
  rcases exists_of_bind_eq_ok h with ⟨inner, hinner, h⟩
  rcases exists_of_bind_eq_ok h with ⟨tag, htag, h⟩
  cases h
  exact ⟨inner, tag, hinner, htag, rfl⟩

theorem exists_opened_of_endTag (h : readEvent state (.endTag content) = .ok (event, next)) :
    exists o opened, state.opened = o :: opened ∧ o.name = endName content ∧
      next = ⟨opened, o.outer⟩ := by
  rw [readEvent, readEnd] at h
  split at h
  · cases h
  · next o opened hopened =>
      split at h
      · next hname =>
          cases h
          exact ⟨o, opened, hopened, eq_of_beq hname, rfl⟩
      · cases h

theorem isText_of_textPiece (h : readEvent state (.text raw) = .ok (event, next)) :
    Utf8.IsText raw ∧ next = state := by
  rw [readEvent] at h
  rcases exists_of_bind_eq_ok h with ⟨content, hdecode, h⟩
  cases h
  exact ⟨isText_of_decodeText hdecode, rfl⟩

theorem isText_of_cdataPiece (h : readEvent state (.cdata raw) = .ok (event, next)) :
    Utf8.IsText raw ∧ next = state := by
  rw [readEvent] at h
  rcases exists_of_bind_eq_ok h with ⟨content, hdecode, h⟩
  cases h
  exact ⟨isText_of_decodeCdata hdecode, rfl⟩

theorem isText_of_readTag {tag : Tag} (hstate : state.IsText)
    (hinner : enterScope state.scope content = .ok inner)
    (htag : decodeTag inner content = .ok tag)
    (hparts : forall part, part ∈
      (scanAttributes true content).attributes.flatMap declarationParts -> Utf8.IsText part) :
    Utf8.IsText content ∧ Utf8.IsText (tagName content) ∧ inner.HasTextLabels := by
  have hread := tagIsRead_of_decodeTag htag
  have hlabels := hasTextLabels_enterScope hstate.scope hread.fault hparts hinner
  exact ⟨isText_of_tagIsRead hlabels hread hparts, isText_tagName hlabels hread, hlabels⟩

/-- A piece that is read is text, if what reading goes past in it is. -/
theorem isText_of_readEvent (hstate : state.IsText)
    (h : readEvent state piece = .ok (event, next))
    (hparts : forall part, part ∈ piece.undecodedParts -> Utf8.IsText part) :
    Utf8.IsText piece.content ∧ next.IsText := by
  cases piece with
  | text raw =>
      rcases isText_of_textPiece h with ⟨hraw, rfl⟩
      exact ⟨hraw, hstate⟩
  | cdata raw =>
      rcases isText_of_cdataPiece h with ⟨hraw, rfl⟩
      exact ⟨hraw, hstate⟩
  | startTag content =>
      rcases exists_tag_of_startTag h with ⟨inner, tag, hinner, htag, rfl⟩
      rcases isText_of_readTag hstate hinner htag hparts with ⟨hcontent, hname, hlabels⟩
      refine ⟨hcontent, ?_, ?_, hlabels⟩
      · intro o ho
        rcases List.mem_cons.mp ho with rfl | ho
        · exact hname
        · exact hstate.names o ho
      · intro o ho
        rcases List.mem_cons.mp ho with rfl | ho
        · exact hstate.scope
        · exact hstate.outer o ho
  | emptyTag content =>
      rcases exists_tag_of_emptyTag h with ⟨inner, tag, hinner, htag, rfl⟩
      exact ⟨(isText_of_readTag hstate hinner htag hparts).left, hstate⟩
  | endTag content =>
      rcases exists_opened_of_endTag h with ⟨o, opened, hopened, hname, rfl⟩
      have hmem : forall {other}, other ∈ o :: opened -> other ∈ state.opened :=
        fun hother => hopened ▸ hother
      have hend : Utf8.IsText (endName content) := hname ▸ hstate.names o (hmem List.mem_cons_self)
      refine ⟨isText_of_endName hend, ?_, ?_, hstate.outer o (hmem List.mem_cons_self)⟩
      · exact fun other hother => hstate.names other (hmem (List.mem_cons_of_mem o hother))
      · exact fun other hother => hstate.outer other (hmem (List.mem_cons_of_mem o hother))
  | instruction content =>
      cases h
      exact ⟨hparts content List.mem_cons_self, hstate⟩
  | comment content =>
      cases h
      exact ⟨hparts content List.mem_cons_self, hstate⟩
  | doctype content =>
      cases h
      exact ⟨hparts content List.mem_cons_self, hstate⟩

theorem isText_of_mem_decodedParts (h : readEvent state piece = .ok (event, next)) :
    forall part, part ∈ piece.decodedParts state.scope -> Utf8.IsText part := by
  intro part hpart
  cases piece with
  | text raw =>
      rw [List.mem_singleton.mp hpart]
      exact (isText_of_textPiece h).left
  | cdata raw =>
      rw [List.mem_singleton.mp hpart]
      exact (isText_of_cdataPiece h).left
  | startTag content =>
      rcases exists_tag_of_startTag h with ⟨inner, tag, hinner, htag, _⟩
      rw [Piece.decodedParts, hinner] at hpart
      exact isText_of_mem_tagParts (tagIsRead_of_decodeTag htag) part hpart
  | emptyTag content =>
      rcases exists_tag_of_emptyTag h with ⟨inner, tag, hinner, htag, _⟩
      rw [Piece.decodedParts, hinner] at hpart
      exact isText_of_mem_tagParts (tagIsRead_of_decodeTag htag) part hpart
  | endTag content => cases hpart
  | instruction content => cases hpart
  | comment content => cases hpart
  | doctype content => cases hpart

/-!
# The whole text
-/

variable {bytes : Bytes} {offset : Nat} {before : List (Located Event)}

theorem isText_of_mem_visitsFrom
    (hfault : (transcribeFrom offset state before bytes).fault = none) :
    forall visit, visit ∈ visitsFrom state bytes ->
      forall part, part ∈ visit.2.decodedParts visit.1.scope -> Utf8.IsText part := by
  fun_induction transcribeFrom offset state before bytes with
  | case1 offset state before =>
      rw [visitsFrom]
      intro visit hvisit
      cases hvisit
  | case2 offset state before b rest pieceFault hpiece => cases hfault
  | case3 offset state before b rest piece hpiece fault hevent => cases hfault
  | case4 offset state before b rest piece hpiece event next hevent ih =>
      rw [visitsFrom]
      simp only [hpiece, hevent]
      intro visit hvisit
      rcases List.mem_cons.mp hvisit with rfl | hvisit
      · exact isText_of_mem_decodedParts hevent
      · exact ih hfault visit hvisit

/-- Reading that ends without a fault has seen a text, if what it went past is. -/
theorem isText_of_transcribeFrom (hstate : state.IsText)
    (hfault : (transcribeFrom offset state before bytes).fault = none)
    (hparts : forall visit, visit ∈ visitsFrom state bytes ->
      forall part, part ∈ visit.2.undecodedParts -> Utf8.IsText part) :
    Utf8.IsText bytes := by
  fun_induction transcribeFrom offset state before bytes with
  | case1 offset state before => exact isText_nil
  | case2 offset state before b rest pieceFault hpiece => cases hfault
  | case3 offset state before b rest piece hpiece fault hevent => cases hfault
  | case4 offset state before b rest piece hpiece event next hevent ih =>
      rw [visitsFrom] at hparts
      simp only [hpiece, hevent] at hparts
      rcases isText_of_readEvent hstate hevent (hparts _ List.mem_cons_self) with
        ⟨hcontent, hnext⟩
      have hrest := ih hnext hfault fun visit hvisit =>
        hparts visit (List.mem_cons_of_mem _ hvisit)
      rcases exists_marks_of_readPiece hpiece with ⟨opening, closing, hbytes, hascii, _⟩
      rw [isAscii_append, Bool.and_eq_true] at hascii
      have hopening : Utf8.IsText opening := isText_ascii (toNat_lt_of_isAscii hascii.left)
      have hclosing : Utf8.IsText closing := isText_ascii (toNat_lt_of_isAscii hascii.right)
      rw [hbytes]
      exact isText_append (isText_append (isText_append hopening hcontent) hclosing) hrest

variable {input : Bytes}

theorem isText_of_dropByteOrderMark (h : Utf8.IsText (dropByteOrderMark input)) :
    Utf8.IsText input := by
  rw [dropByteOrderMark] at h
  split at h
  · next hbegins =>
      rcases List.isPrefixOf_iff_prefix.mp hbegins with ⟨rest, rfl⟩
      have hmark : Utf8.IsText byteOrderMark := by decide +kernel
      exact isText_append hmark h
  · exact h

theorem isText_of_mem_decodedParts_transcribe (hfault : (transcribe input).fault = none) :
    forall part, part ∈ decodedParts input -> Utf8.IsText part := by
  intro part hpart
  rcases List.mem_flatMap.mp hpart with ⟨visit, hvisit, hpart⟩
  exact isText_of_mem_visitsFrom hfault visit hvisit part hpart

theorem isText_of_transcribe (hfault : (transcribe input).fault = none)
    (hparts : forall part, part ∈ undecodedParts input -> Utf8.IsText part) :
    Utf8.IsText input := by
  apply isText_of_dropByteOrderMark
  apply isText_of_transcribeFrom isText_initial hfault
  intro visit hvisit part hpart
  exact hparts part (List.mem_flatMap.mpr ⟨visit, hvisit, hpart⟩)

end Markup
end FlowConfig
