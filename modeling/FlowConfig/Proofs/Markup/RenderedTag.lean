import FlowConfig.Proofs.Markup.Escaping
import FlowConfig.Proofs.Markup.Name
import FlowConfig.Proofs.Markup.Transcript

/-!
# Rendered tags

A tag is rendered in one plain way: its name, and each attribute behind a space,
with its value escaped in double quotes.  Such a tag ends where it should, and
decoding it gives the name and the attributes back.
-/

namespace FlowConfig
namespace Markup

open Ascii

def attributeBytes (a : Name × String) : Bytes :=
  space :: (a.1.bytes ++ equals :: doubleQuote :: (escapedBytes a.2 ++ [doubleQuote]))

/-- What stands between the brackets of a start tag. -/
def tagContent (name : Name) (attributes : List (Name × String)) : Bytes :=
  name.bytes ++ attributes.flatMap attributeBytes

/-!
# Where rendered tags end
-/

/-- The end of a tag is looked for behind these bytes, whatever follows. -/
def IsPassed (bytes : Bytes) : Prop :=
  forall (n : Nat) (rest : Bytes),
    tagLength? none n (bytes ++ rest) = tagLength? none (n + bytes.length) rest

theorem isPassed_append {bytes more : Bytes} (h : IsPassed bytes) (hmore : IsPassed more) :
    IsPassed (bytes ++ more) := by
  intro n rest
  rw [List.append_assoc, h, hmore, List.length_append, Nat.add_assoc]

theorem isPassed_plain {bytes : Bytes}
    (h : forall b, b ∈ bytes -> b ≠ greaterThan ∧ b ≠ doubleQuote ∧ b ≠ apostrophe) :
    IsPassed bytes := by
  induction bytes with
  | nil =>
      intro n rest
      rfl
  | cons b bytes ih =>
      intro n rest
      have hb := h b List.mem_cons_self
      have hmore := ih (fun c hc => h c (List.mem_cons_of_mem b hc)) (n + 1) rest
      rw [List.cons_append, tagLength?, List.length_cons]
      simp only [beq_eq_false_iff_ne.mpr hb.left, beq_eq_false_iff_ne.mpr hb.right.left,
        beq_eq_false_iff_ne.mpr hb.right.right, Bool.or_false, Bool.false_eq_true, if_false]
      rw [hmore, Nat.add_right_comm, Nat.add_assoc]

theorem tagLength?_quoted {bytes : Bytes} (h : doubleQuote ∉ bytes) (n : Nat) (rest : Bytes) :
    tagLength? (some doubleQuote) n (bytes ++ doubleQuote :: rest) =
      tagLength? none (n + bytes.length + 1) rest := by
  induction bytes generalizing n with
  | nil => rfl
  | cons b bytes ih =>
      have hb : (b == doubleQuote) = false :=
        beq_eq_false_iff_ne.mpr fun heq => h (heq ▸ List.mem_cons_self)
      rw [List.cons_append, tagLength?, hb]
      simp only [Bool.false_eq_true, if_false]
      rw [ih (fun hmem => h (List.mem_cons_of_mem b hmem)), List.length_cons]
      congr 1
      omega

theorem isPassed_attributeBytes (a : Name × String) : IsPassed (attributeBytes a) := by
  intro n rest
  have hvalue : doubleQuote ∉ escapedBytes a.2 := not_mem_escapedBytes (.inr (.inr rfl)) a.2
  have hkey : IsPassed (space :: (a.1.bytes ++ [equals])) := by
    apply isPassed_plain
    intro b hb
    rcases List.mem_cons.mp hb with rfl | hb
    · decide
    · rcases List.mem_append.mp hb with hb | hb
      · exact ⟨a.1.ne_of_mem_bytes hb (by decide), a.1.ne_of_mem_bytes hb (by decide),
          a.1.ne_of_mem_bytes hb (by decide)⟩
      · rw [List.mem_singleton.mp hb]
        decide
  have hsplit : attributeBytes a ++ rest = space :: (a.1.bytes ++ [equals]) ++
      doubleQuote :: (escapedBytes a.2 ++ doubleQuote :: rest) := by
    simp [attributeBytes]
  rw [hsplit, hkey]
  show tagLength? (some doubleQuote) _ (escapedBytes a.2 ++ doubleQuote :: rest) = _
  rw [tagLength?_quoted hvalue]
  congr 1
  simp only [attributeBytes, List.length_cons, List.length_append, List.length_nil]
  omega

theorem isPassed_tagContent (name : Name) (attributes : List (Name × String)) :
    IsPassed (tagContent name attributes) := by
  apply isPassed_append
  · apply isPassed_plain
    intro b hb
    exact ⟨name.ne_of_mem_bytes hb (by decide), name.ne_of_mem_bytes hb (by decide),
      name.ne_of_mem_bytes hb (by decide)⟩
  · induction attributes with
    | nil => exact isPassed_plain fun b hb => absurd hb List.not_mem_nil
    | cons a rest ih =>
        rw [List.flatMap_cons]
        exact isPassed_append (isPassed_attributeBytes a) ih

theorem tagLength?_tagContent (name : Name) (attributes : List (Name × String))
    (rest : Bytes) :
    tagLength? none 0 (tagContent name attributes ++ greaterThan :: rest) =
      some (tagContent name attributes).length := by
  rw [isPassed_tagContent, Nat.zero_add]
  rfl

/-!
# What is found in a tag
-/

theorem tagName_tagContent (name : Name) (attributes : List (Name × String)) :
    tagName (tagContent name attributes) = name.bytes := by
  have hname : forall b, b ∈ name.bytes -> (!isSpace b) = true := by
    intro b hb
    rw [name.isSpace_of_mem_bytes hb]
    rfl
  rw [tagName, tagContent, List.takeWhile_append_of_pos hname]
  cases attributes with
  | nil => exact List.append_nil _
  | cons a rest => exact List.append_nil _

/-- The attributes that are found, the first of them at position `index`. -/
def rawAttributes (index : Nat) : List (Name × String) -> List RawAttribute
  | [] => []
  | a :: rest =>
      ⟨index + 1, a.1.bytes, escapedBytes a.2⟩ ::
        rawAttributes (index + (attributeBytes a).length) rest

theorem scanFrom_key {distinct : Bool} {found : List RawAttribute} {bytes : Bytes}
    (h : forall b, b ∈ bytes -> isSpace b = false ∧ b ≠ equals) (index start : Nat)
    (before rest : Bytes) :
    scanFrom distinct index (.key start before) found (bytes ++ rest) =
      scanFrom distinct (index + bytes.length) (.key start (bytes.reverse ++ before)) found
        rest := by
  induction bytes generalizing index before with
  | nil => rfl
  | cons b bytes ih =>
      have hb := h b List.mem_cons_self
      rw [List.cons_append, scanFrom, attributeStep, beq_eq_false_iff_ne.mpr hb.right, hb.left]
      simp only [Bool.false_eq_true, if_false]
      rw [ih fun c hc => h c (List.mem_cons_of_mem b hc), List.length_cons, List.reverse_cons,
        List.append_assoc, Nat.add_right_comm, Nat.add_assoc]
      rfl

theorem scanFrom_value {distinct : Bool} {found : List RawAttribute} {bytes : Bytes}
    (h : doubleQuote ∉ bytes) (index start : Nat) (key before rest : Bytes) :
    scanFrom distinct index (.value start key doubleQuote before) found
        (bytes ++ doubleQuote :: rest) =
      scanFrom distinct (index + bytes.length + 1) .gap
        (⟨start, key, before.reverse ++ bytes⟩ :: found) rest := by
  induction bytes generalizing index before with
  | nil =>
      rw [List.append_nil]
      rfl
  | cons b bytes ih =>
      have hb : (b == doubleQuote) = false :=
        beq_eq_false_iff_ne.mpr fun heq => h (heq ▸ List.mem_cons_self)
      rw [List.cons_append, scanFrom, attributeStep, hb]
      simp only [Bool.false_eq_true, if_false]
      rw [ih (fun hmem => h (List.mem_cons_of_mem b hmem)), List.length_cons, List.reverse_cons,
        List.append_assoc]
      congr 1
      omega

def IsNew (found : List RawAttribute) (name : Name) : Prop :=
  forall r, r ∈ found -> r.key ≠ name.bytes

theorem acceptKey_of_isNew {found : List RawAttribute} {name : Name} (h : IsNew found name)
    (distinct : Bool) (start : Nat) :
    acceptKey distinct found start name.bytes = .ok (.beforeValue start name.bytes) := by
  have hnone : previousPosition? found name.bytes = none := by
    rw [previousPosition?, List.find?_eq_none.mpr]
    · rfl
    · intro r hr
      rw [beq_iff_eq]
      exact h r hr
  rw [acceptKey, hnone]
  exact ite_self _

theorem scanFrom_newKey {found : List RawAttribute} {name : Name} (h : IsNew found name)
    (distinct : Bool) (index : Nat) (rest : Bytes) :
    scanFrom distinct index .gap found (space :: (name.bytes ++ equals :: rest)) =
      scanFrom distinct (index + name.bytes.length + 2) (.beforeValue (index + 1) name.bytes)
        found rest := by
  have hkey : forall b, b ∈ name.bytes -> isSpace b = false ∧ b ≠ equals :=
    fun b hb => ⟨name.isSpace_of_mem_bytes hb, name.ne_of_mem_bytes hb (by decide)⟩
  have haccept := acceptKey_of_isNew h distinct (index + 1)
  rcases name.exists_bytes_eq_cons with ⟨first, more, hbytes⟩
  rw [hbytes] at hkey haccept ⊢
  have hfirst : scanFrom distinct index .gap found (space :: (first :: more ++ equals :: rest)) =
      scanFrom distinct (index + 1 + 1) (.key (index + 1) [first]) found
        (more ++ equals :: rest) := by
    rw [scanFrom]
    show scanFrom distinct (index + 1) .gap found (first :: (more ++ equals :: rest)) = _
    rw [scanFrom, attributeStep, (hkey first List.mem_cons_self).left]
    rfl
  rw [hfirst, scanFrom_key fun b hb => hkey b (List.mem_cons_of_mem first hb), scanFrom,
    attributeStep, beq_self_eq_true, if_pos rfl, List.reverse_append, List.reverse_reverse,
    List.reverse_singleton, List.singleton_append, haccept, List.length_cons]
  show scanFrom distinct _ (.beforeValue (index + 1) (first :: more)) found rest = _
  congr 1
  omega

theorem scanFrom_attributeBytes {found : List RawAttribute} {a : Name × String}
    (h : IsNew found a.1) (distinct : Bool) (index : Nat) (rest : Bytes) :
    scanFrom distinct index .gap found (attributeBytes a ++ rest) =
      scanFrom distinct (index + (attributeBytes a).length) .gap
        (⟨index + 1, a.1.bytes, escapedBytes a.2⟩ :: found) rest := by
  have hvalue : doubleQuote ∉ escapedBytes a.2 := not_mem_escapedBytes (.inr (.inr rfl)) a.2
  have hsplit : attributeBytes a ++ rest = space :: (a.1.bytes ++ equals ::
      (doubleQuote :: (escapedBytes a.2 ++ doubleQuote :: rest))) := by
    simp [attributeBytes]
  have hlength : (attributeBytes a).length =
      a.1.bytes.length + 3 + (escapedBytes a.2).length + 1 := by
    simp only [attributeBytes, List.length_cons, List.length_append, List.length_nil]
    omega
  rw [hsplit, scanFrom_newKey h]
  show scanFrom distinct _ (.value (index + 1) a.1.bytes doubleQuote []) found
    (escapedBytes a.2 ++ doubleQuote :: rest) = _
  rw [scanFrom_value hvalue, List.reverse_nil, List.nil_append, hlength]
  congr 1
  omega

theorem scanFrom_flatMap_attributeBytes {found : List RawAttribute}
    {attributes : List (Name × String)}
    (hnew : forall a, a ∈ attributes -> IsNew found a.1)
    (hdistinct : (attributes.map fun a => a.1.text).Nodup) (distinct : Bool) (index : Nat) :
    scanFrom distinct index .gap found (attributes.flatMap attributeBytes) =
      ⟨found.reverse ++ rawAttributes index attributes, none⟩ := by
  induction attributes generalizing found index with
  | nil =>
      rw [rawAttributes, List.append_nil]
      rfl
  | cons a rest ih =>
      rw [List.map_cons, List.nodup_cons] at hdistinct
      have hnext : forall b, b ∈ rest ->
          IsNew (⟨index + 1, a.1.bytes, escapedBytes a.2⟩ :: found) b.1 := by
        intro b hb r hr
        rcases List.mem_cons.mp hr with rfl | hr
        · intro heq
          exact hdistinct.left (List.mem_map.mpr ⟨b, hb, (Name.bytes_injective heq).symm⟩)
        · exact hnew b (List.mem_cons_of_mem a hb) r hr
      rw [List.flatMap_cons, scanFrom_attributeBytes (hnew a List.mem_cons_self),
        ih hnext hdistinct.right, List.reverse_cons, List.append_assoc]
      rfl

theorem scanAttributes_tagContent (distinct : Bool) (name : Name)
    {attributes : List (Name × String)}
    (hdistinct : (attributes.map fun a => a.1.text).Nodup) :
    scanAttributes distinct (tagContent name attributes) =
      ⟨rawAttributes name.bytes.length attributes, none⟩ := by
  have hnew : forall a, a ∈ attributes -> IsNew [] a.1 := by
    intro a _ r hr
    cases hr
  rw [scanAttributes, tagName_tagContent, tagContent]
  simp only [List.drop_left]
  exact scanFrom_flatMap_attributeBytes hnew hdistinct distinct name.bytes.length

/-!
# Decoding a rendered tag
-/

/-- Attributes whose names differ.  None of them declares a namespace. -/
structure Attributes where
  entries : List (Name × String)
  distinct : (entries.map fun a => a.1.text).Nodup
  unreserved : forall a, a ∈ entries -> a.1.text ≠ "xmlns"

theorem declaration?_bytes {name : Name} (h : name.text ≠ "xmlns") :
    declaration? name.bytes = none := by
  rw [declaration?]
  split
  · next hprefix =>
      rcases List.isPrefixOf_iff_prefix.mp hprefix with ⟨label, hlabel⟩
      have hdrop : name.bytes.drop 5 = label := by
        rw [← hlabel]
        exact List.drop_left' (by decide +kernel)
      rw [hdrop]
      cases label with
      | nil =>
          have hbytes : name.bytes = Utf8.encode "xmlns".toList := by
            rw [← hlabel, List.append_nil]
            decide +kernel
          exact absurd (String.toList_inj.mp (Utf8.encode_injective hbytes)) h
      | cons b label =>
          have hcolon : b ≠ colon := name.ne_of_mem_bytes
            (hlabel ▸ List.mem_append_right _ List.mem_cons_self) (by decide)
          exact if_neg fun heq => hcolon (beq_iff_eq.mp heq)
  · rfl

theorem declareAll_rawAttributes {attributes : List (Name × String)}
    (h : forall a, a ∈ attributes -> a.1.text ≠ "xmlns") (scope : Scope) (index : Nat) :
    scope.declareAll (rawAttributes index attributes) = .ok scope := by
  induction attributes generalizing index with
  | nil => rfl
  | cons a rest ih =>
      rw [rawAttributes, Scope.declareAll, Scope.declareOne,
        declaration?_bytes (h a List.mem_cons_self)]
      exact ih (fun b hb => h b (List.mem_cons_of_mem a hb)) _

theorem enterScope_tagContent (scope : Scope) (name : Name) (attributes : Attributes) :
    enterScope scope (tagContent name attributes.entries) = .ok scope := by
  rw [enterScope, Scope.enter, scanAttributes_tagContent false name attributes.distinct,
    declareAll_rawAttributes attributes.unreserved]

theorem decodeAttributes_rawAttributes (scope : Scope) (element : String)
    {before : List (String × String)} {attributes : List (Name × String)}
    (hreserved : forall a, a ∈ attributes -> a.1.text ≠ "xmlns")
    (hnew : forall a, a ∈ attributes -> forall b, b ∈ before -> b.1 ≠ a.1.text)
    (hdistinct : (attributes.map fun a => a.1.text).Nodup) (index : Nat) :
    decodeAttributes scope element before (rawAttributes index attributes) =
      .ok (before.reverse ++ attributes.map fun a => (a.1.text, a.2)) := by
  induction attributes generalizing before index with
  | nil =>
      rw [List.map_nil, List.append_nil]
      rfl
  | cons a rest ih =>
      rw [List.map_cons, List.nodup_cons] at hdistinct
      have hkey : decodeAttributeKey scope element a.1.bytes = .ok a.1.text := by
        simp only [decodeAttributeKey, a.1.splitName_bytes, a.1.decodeName_bytes, bind,
          Except.bind, Scope.resolveAttribute]
      have hany : (before.any fun entry => entry.1 == a.1.text) = false := by
        rw [List.any_eq_false]
        intro b hb
        rw [beq_iff_eq]
        exact hnew a List.mem_cons_self b hb
      have hnext : forall b, b ∈ rest -> forall c, c ∈ (a.1.text, a.2) :: before ->
          c.1 ≠ b.1.text := by
        intro b hb c hc
        rcases List.mem_cons.mp hc with rfl | hc
        · intro heq
          exact hdistinct.left (List.mem_map.mpr ⟨b, hb, heq.symm⟩)
        · exact hnew b (List.mem_cons_of_mem a hb) c hc
      rw [rawAttributes, decodeAttributes, declaration?_bytes (hreserved a List.mem_cons_self)]
      simp only [Option.isSome_none, Bool.false_eq_true, if_false, hkey,
        decodeText_escapedBytes, bind, Except.bind, hany]
      rw [ih (fun b hb => hreserved b (List.mem_cons_of_mem a hb)) hnext hdistinct.right,
        List.reverse_cons, List.append_assoc]
      rfl

def renderedTag (name : Name) (attributes : Attributes) : Tag :=
  ⟨name.text, none, attributes.entries.map fun a => (a.1.text, a.2)⟩

theorem decodeTag_tagContent (name : Name) (attributes : Attributes) :
    decodeTag Scope.initial (tagContent name attributes.entries) =
      .ok (renderedTag name attributes) := by
  have hname : decodeElementName Scope.initial name.bytes = .ok (name.text, none) := by
    simp only [decodeElementName, name.splitName_bytes, name.decodeName_bytes, bind,
      Except.bind]
    rfl
  have hattributes := decodeAttributes_rawAttributes Scope.initial name.text
    attributes.unreserved (fun a _ b hb => absurd hb List.not_mem_nil) attributes.distinct
    name.bytes.length
  rw [decodeTag, tagName_tagContent, hname,
    scanAttributes_tagContent true name attributes.distinct]
  simp only [bind, Except.bind, hattributes]
  rfl

end Markup
end FlowConfig
