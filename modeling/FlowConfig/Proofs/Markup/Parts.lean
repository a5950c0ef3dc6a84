import FlowConfig.Proofs.Markup.Transcript
import FlowConfig.Proofs.Text.WellFormed

/-!
# What reading decodes

Reading decodes text, CDATA sections, names, and the values of attributes.  It goes
past comments, instructions, document type declarations and the declarations of
namespaces without decoding them, except that a namespace is decoded where a name
is in it.
-/

namespace FlowConfig
namespace Markup

open Utf8

/-!
# Parts
-/

def Resolution.uris : Resolution -> List Bytes
  | .bound uri => [uri]
  | _ => []

/-- The local part of a name, and the namespace it is in. -/
def nameParts (resolve : Option Bytes -> Resolution) (raw : Bytes) : List Bytes :=
  (splitName raw).2 :: (resolve (splitName raw).1).uris

def RawAttribute.isDeclaration (a : RawAttribute) : Bool :=
  (declaration? a.key).isSome

def attributeParts (scope : Scope) (a : RawAttribute) : List Bytes :=
  if a.isDeclaration then [] else a.value :: nameParts scope.resolveAttribute a.key

def declarationParts (a : RawAttribute) : List Bytes :=
  if a.isDeclaration then [a.key, a.value] else []

def tagParts (scope : Scope) (content : Bytes) : List Bytes :=
  nameParts scope.resolve (tagName content) ++
    (scanAttributes true content).attributes.flatMap (attributeParts scope)

/-- What of a piece is decoded, in the scope around it. -/
def Piece.decodedParts (scope : Scope) : Piece -> List Bytes
  | .text raw => [raw]
  | .cdata raw => [raw]
  | .startTag content | .emptyTag content =>
      match enterScope scope content with
      | .ok inner => tagParts inner content
      | .error _ => []
  | _ => []

/-- What of a piece is gone past.  An end tag only repeats a name. -/
def Piece.undecodedParts : Piece -> List Bytes
  | .instruction content => [content]
  | .comment content => [content]
  | .doctype content => [content]
  | .startTag content | .emptyTag content =>
      (scanAttributes true content).attributes.flatMap declarationParts
  | _ => []

/-- The pieces that reading comes to, each with what is remembered before it. -/
def visitsFrom (state : ReaderState) (bytes : Bytes) : List (ReaderState × Piece) :=
  match bytes with
  | [] => []
  | b :: rest =>
      match readPiece b rest with
      | .error _ => []
      | .ok piece =>
          (state, piece) ::
            match readEvent state piece with
            | .error _ => []
            | .ok (_, next) => visitsFrom next (rest.drop (piece.size - 1))
termination_by bytes.length
decreasing_by simp only [List.length_drop, List.length_cons]; omega

def visits (input : Bytes) : List (ReaderState × Piece) :=
  visitsFrom ReaderState.initial (dropByteOrderMark input)

def decodedParts (input : Bytes) : List Bytes :=
  (visits input).flatMap fun visit => visit.2.decodedParts visit.1.scope

def undecodedParts (input : Bytes) : List Bytes :=
  (visits input).flatMap fun visit => visit.2.undecodedParts

/-!
# Decoding
-/

theorem exists_of_bind_eq_ok {E A B : Type} {x : Except E A} {f : A -> Except E B} {b : B}
    (h : (x >>= f) = .ok b) : exists a, x = .ok a ∧ f a = .ok b := by
  cases x with
  | error e => cases h
  | ok a => exact ⟨a, rfl, h⟩

variable {raw content : Bytes} {scope : Scope}

theorem isText_of_decodeString {s : String} (h : decodeString raw = .ok s) : IsText raw := by
  rw [decodeString] at h
  cases hdecode : decode raw with
  | error malformed =>
      rw [hdecode] at h
      cases h
  | ok cs => exact isText_of_decode hdecode

theorem isText_of_decodeName {name : String} (h : decodeName raw = .ok name) : IsText raw := by
  rw [decodeName] at h
  split at h
  · next hdecode => exact isText_of_decodeString hdecode
  · cases h

theorem isText_of_decodeCdata {s : String} (h : decodeCdata raw = .ok s) : IsText raw := by
  rw [decodeCdata] at h
  split at h
  · next hdecode => exact isText_of_decodeString hdecode
  · cases h

theorem isText_of_decodeText {s : String} (h : decodeText raw = .ok s) : IsText raw := by
  rw [decodeText] at h
  split at h
  · cases h
  · next hdecode => exact isText_of_decode hdecode

/-- A name is read when its parts are texts and its prefix is bound. -/
structure NameIsRead (resolve : Option Bytes -> Resolution) (raw : Bytes) : Prop where
  parts : forall part, part ∈ nameParts resolve raw -> IsText part
  known : forall label, resolve (splitName raw).1 ≠ .unknownPrefix label

theorem nameIsRead_of_uris {resolve : Option Bytes -> Resolution}
    (hlocal : IsText (splitName raw).2)
    (huri : forall uri, resolve (splitName raw).1 = .bound uri -> IsText uri)
    (hknown : forall label, resolve (splitName raw).1 ≠ .unknownPrefix label) :
    NameIsRead resolve raw := by
  refine ⟨?_, hknown⟩
  intro part hpart
  rcases List.mem_cons.mp hpart with rfl | hpart
  · exact hlocal
  · rw [Resolution.uris.eq_def] at hpart
    split at hpart
    · next uri hresolve =>
        rw [List.mem_singleton.mp hpart]
        exact huri uri hresolve
    · cases hpart

theorem nameIsRead_of_decodeElementName {answer : String × Option String}
    (h : decodeElementName scope raw = .ok answer) : NameIsRead scope.resolve raw := by
  simp only [decodeElementName] at h
  rcases exists_of_bind_eq_ok h with ⟨name, hname, h⟩
  refine nameIsRead_of_uris (isText_of_decodeName hname) ?_ ?_
  · intro uri hresolve
    rw [hresolve] at h
    rcases exists_of_bind_eq_ok h with ⟨_, huri, _⟩
    exact isText_of_decodeName huri
  · intro label hresolve
    rw [hresolve] at h
    cases h

theorem nameIsRead_of_decodeAttributeKey {element key : String}
    (h : decodeAttributeKey scope element raw = .ok key) :
    NameIsRead scope.resolveAttribute raw := by
  simp only [decodeAttributeKey] at h
  rcases exists_of_bind_eq_ok h with ⟨name, hname, h⟩
  refine nameIsRead_of_uris (isText_of_decodeName hname) ?_ ?_
  · intro uri hresolve
    rw [hresolve] at h
    rcases exists_of_bind_eq_ok h with ⟨_, huri, _⟩
    exact isText_of_decodeName huri
  · intro label hresolve
    rw [hresolve] at h
    cases h

/-- An attribute is read when it declares a namespace or its name and its value
are. -/
def AttributeIsRead (scope : Scope) (a : RawAttribute) : Prop :=
  a.isDeclaration = true ∨ (NameIsRead scope.resolveAttribute a.key ∧ IsText a.value)

theorem attributeIsRead_of_decodeAttributes {element : String}
    {before attributes : List (String × String)} {raws : List RawAttribute}
    (h : decodeAttributes scope element before raws = .ok attributes) :
    forall a, a ∈ raws -> AttributeIsRead scope a := by
  induction raws generalizing before with
  | nil =>
      intro a ha
      cases ha
  | cons first rest ih =>
      rw [decodeAttributes] at h
      split at h
      · next hdeclaration =>
          intro a ha
          rcases List.mem_cons.mp ha with rfl | ha
          · exact Or.inl hdeclaration
          · exact ih h a ha
      · rcases exists_of_bind_eq_ok h with ⟨key, hkey, h⟩
        rcases exists_of_bind_eq_ok h with ⟨value, hvalue, h⟩
        split at h
        · cases h
        · intro a ha
          rcases List.mem_cons.mp ha with rfl | ha
          · exact Or.inr ⟨nameIsRead_of_decodeAttributeKey hkey, isText_of_decodeText hvalue⟩
          · exact ih h a ha

/-- A tag is read when its name and its attributes are, and the pass over it ends
without a fault. -/
structure TagIsRead (scope : Scope) (content : Bytes) : Prop where
  name : NameIsRead scope.resolve (tagName content)
  attributes : forall a, a ∈ (scanAttributes true content).attributes -> AttributeIsRead scope a
  fault : (scanAttributes true content).fault = none

theorem tagIsRead_of_decodeTag {tag : Tag} (h : decodeTag scope content = .ok tag) :
    TagIsRead scope content := by
  rw [decodeTag] at h
  rcases exists_of_bind_eq_ok h with ⟨answer, hname, h⟩
  rcases exists_of_bind_eq_ok h with ⟨attributes, hattributes, h⟩
  refine ⟨nameIsRead_of_decodeElementName hname,
    attributeIsRead_of_decodeAttributes hattributes, ?_⟩
  cases hfault : (scanAttributes true content).fault with
  | none => rfl
  | some fault =>
      rw [hfault] at h
      cases h

theorem isText_of_mem_tagParts (h : TagIsRead scope content) :
    forall part, part ∈ tagParts scope content -> IsText part := by
  intro part hpart
  rcases List.mem_append.mp hpart with hpart | hpart
  · exact h.name.parts part hpart
  · rcases List.mem_flatMap.mp hpart with ⟨a, ha, hpart⟩
    rw [attributeParts] at hpart
    split at hpart
    · cases hpart
    · next hdeclaration =>
        rcases h.attributes a ha with hother | ⟨hkey, hvalue⟩
        · exact absurd hother hdeclaration
        · rcases List.mem_cons.mp hpart with rfl | hpart
          · exact hvalue
          · exact hkey.parts part hpart

end Markup
end FlowConfig
