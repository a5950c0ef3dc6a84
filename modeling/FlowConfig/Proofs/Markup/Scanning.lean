import FlowConfig.Markup.Scope
import FlowConfig.Proofs.Text.WellFormed

/-!
# Tags whose attributes are texts

The pass over a tag loses nothing but ASCII: where it ends without a fault, the
bytes it went over are a text as soon as the keys and values it found are.
-/

namespace FlowConfig
namespace Markup

open Ascii Utf8

/-!
# One byte
-/

variable {distinct : Bool} {found : List RawAttribute} {index : Nat}
  {state next : AttributeState} {a? : Option RawAttribute} {bytes rest : Bytes} {b : UInt8}

/-- How the pass goes on at a byte: the byte is kept, or it is one that separates. -/
inductive Moves (index : Nat) (b : UInt8) :
    AttributeState -> AttributeState -> Option RawAttribute -> Prop where
  | skip : isSpace b = true -> Moves index b .gap .gap none
  | beginKey : Moves index b .gap (.key index [b]) none
  | keepKey {start : Nat} {name : Bytes} :
      Moves index b (.key start name) (.key start (b :: name)) none
  | endKey {start : Nat} {name : Bytes} : isSpace b = true ->
      Moves index b (.key start name) (.afterKey start name.reverse) none
  | acceptKey {start : Nat} {name : Bytes} : (b == equals) = true ->
      Moves index b (.key start name) (.beforeValue start name.reverse) none
  | skipAfterKey {start : Nat} {name : Bytes} : isSpace b = true ->
      Moves index b (.afterKey start name) (.afterKey start name) none
  | acceptEnded {start : Nat} {name : Bytes} : (b == equals) = true ->
      Moves index b (.afterKey start name) (.beforeValue start name) none
  | skipBeforeValue {start : Nat} {name : Bytes} : isSpace b = true ->
      Moves index b (.beforeValue start name) (.beforeValue start name) none
  | beginValue {start : Nat} {name : Bytes} : (b == doubleQuote || b == apostrophe) = true ->
      Moves index b (.beforeValue start name) (.value start name b []) none
  | keepValue {start : Nat} {name raw : Bytes} {quote : UInt8} :
      Moves index b (.value start name quote raw) (.value start name quote (b :: raw)) none
  | endValue {start : Nat} {name raw : Bytes} {quote : UInt8} : (b == quote) = true ->
      Moves index b (.value start name quote raw) .gap (some ⟨start, name, raw.reverse⟩)

theorem acceptKey_eq_ok {start : Nat} {key : Bytes}
    (h : acceptKey distinct found start key = .ok state) : state = .beforeValue start key := by
  rw [acceptKey] at h
  split at h
  · split at h
    · cases h
    · exact (Except.ok.inj h).symm
  · exact (Except.ok.inj h).symm

theorem map_acceptKey_eq_ok {start : Nat} {key : Bytes}
    (h : (acceptKey distinct found start key).map (fun s => (s, none)) = .ok (next, a?)) :
    next = .beforeValue start key ∧ a? = none := by
  cases haccept : acceptKey distinct found start key with
  | error fault =>
      rw [haccept] at h
      cases h
  | ok s =>
      rw [haccept] at h
      cases h
      exact ⟨acceptKey_eq_ok haccept, rfl⟩

theorem moves_of_attributeStep
    (h : attributeStep distinct found index state b = .ok (next, a?)) :
    Moves index b state next a? := by
  cases state with
  | gap =>
      rw [attributeStep] at h
      split at h
      · next hspace =>
          cases h
          exact .skip hspace
      · cases h
        exact .beginKey
  | key start name =>
      rw [attributeStep] at h
      split at h
      · next hequals =>
          rcases map_acceptKey_eq_ok h with ⟨rfl, rfl⟩
          exact .acceptKey hequals
      · split at h
        · next hspace =>
            cases h
            exact .endKey hspace
        · cases h
          exact .keepKey
  | afterKey start name =>
      rw [attributeStep] at h
      split at h
      · next hequals =>
          rcases map_acceptKey_eq_ok h with ⟨rfl, rfl⟩
          exact .acceptEnded hequals
      · split at h
        · next hspace =>
            cases h
            exact .skipAfterKey hspace
        · cases h
  | beforeValue start name =>
      rw [attributeStep] at h
      split at h
      · next hquote =>
          cases h
          exact .beginValue hquote
      · split at h
        · next hspace =>
            cases h
            exact .skipBeforeValue hspace
        · cases h
  | value start name quote raw =>
      rw [attributeStep] at h
      split at h
      · next hclose =>
          cases h
          exact .endValue hclose
      · cases h
        exact .keepValue

/-!
# What is lost
-/

def RawAttribute.IsText (a : RawAttribute) : Prop :=
  Utf8.IsText a.key ∧ Utf8.IsText a.value

/-- What was begun is a text together with what is left to read. -/
def AttributeState.Completes (bytes : Bytes) : AttributeState -> Prop
  | .gap => Utf8.IsText bytes
  | .key _ name => Utf8.IsText (name.reverse ++ bytes)
  | .afterKey _ name => Utf8.IsText name ∧ Utf8.IsText bytes
  | .beforeValue _ name => Utf8.IsText name ∧ Utf8.IsText bytes
  | .value _ name _ raw => Utf8.IsText name ∧ Utf8.IsText (raw.reverse ++ bytes)

def AttributeState.IsQuotedInAscii : AttributeState -> Prop
  | .value _ _ quote _ => quote.toNat < 128
  | _ => True

theorem toNat_lt_of_isSpace (h : isSpace b = true) : b.toNat < 128 := by
  simp only [isSpace, Bool.or_eq_true, beq_iff_eq] at h
  rcases h with ((rfl | rfl) | rfl) | rfl
  · decide
  · decide
  · decide
  · decide

theorem toNat_lt_of_isQuote (h : (b == doubleQuote || b == apostrophe) = true) :
    b.toNat < 128 := by
  rw [Bool.or_eq_true, beq_iff_eq, beq_iff_eq] at h
  rcases h with rfl | rfl
  · decide
  · decide

theorem toNat_lt_of_beq {c : UInt8} (h : (b == c) = true) (hc : c.toNat < 128) :
    b.toNat < 128 := by
  rw [eq_of_beq h]
  exact hc

theorem isQuotedInAscii_of_moves (h : Moves index b state next a?)
    (hquoted : state.IsQuotedInAscii) : next.IsQuotedInAscii := by
  cases h with
  | beginValue hquote => exact toNat_lt_of_isQuote hquote
  | keepValue => exact hquoted
  | _ => trivial

theorem completes_of_moves (h : Moves index b state next a?) (hquoted : state.IsQuotedInAscii)
    (ha : forall a, a? = some a -> a.IsText) (hnext : next.Completes rest) :
    state.Completes (b :: rest) := by
  have hcons : b.toNat < 128 -> Utf8.IsText rest -> Utf8.IsText (b :: rest) :=
    fun hb => isText_append_cons hb isText_nil
  cases h with
  | skip hspace => exact hcons (toNat_lt_of_isSpace hspace) hnext
  | beginKey => exact hnext
  | keepKey => simpa [AttributeState.Completes] using hnext
  | endKey hspace =>
      exact isText_append_cons (toNat_lt_of_isSpace hspace) hnext.left hnext.right
  | acceptKey hequals =>
      exact isText_append_cons (toNat_lt_of_beq hequals (by decide)) hnext.left hnext.right
  | skipAfterKey hspace => exact ⟨hnext.left, hcons (toNat_lt_of_isSpace hspace) hnext.right⟩
  | acceptEnded hequals =>
      exact ⟨hnext.left, hcons (toNat_lt_of_beq hequals (by decide)) hnext.right⟩
  | skipBeforeValue hspace => exact ⟨hnext.left, hcons (toNat_lt_of_isSpace hspace) hnext.right⟩
  | beginValue hquote => exact ⟨hnext.left, hcons (toNat_lt_of_isQuote hquote) hnext.right⟩
  | keepValue => simpa [AttributeState.Completes] using hnext
  | endValue hclose =>
      rcases ha _ rfl with ⟨hkey, hvalue⟩
      exact ⟨hkey, isText_append_cons (toNat_lt_of_beq hclose hquoted) hvalue hnext⟩

/-!
# The whole pass
-/

theorem mem_scanFrom {a : RawAttribute} (h : a ∈ found) :
    a ∈ (scanFrom distinct index state found bytes).attributes := by
  fun_induction scanFrom distinct index state found bytes with
  | case1 index state found => exact List.mem_reverse.mpr h
  | case2 index state found b rest fault hstep => exact List.mem_reverse.mpr h
  | case3 index state found b rest next hstep ih => exact ih h
  | case4 index state found b rest next a' hstep ih => exact ih (List.mem_cons_of_mem a' h)

theorem completes_of_scanFrom (hquoted : state.IsQuotedInAscii)
    (hfault : (scanFrom distinct index state found bytes).fault = none)
    (hall : forall a, a ∈ (scanFrom distinct index state found bytes).attributes -> a.IsText) :
    state.Completes bytes := by
  fun_induction scanFrom distinct index state found bytes with
  | case1 index state found =>
      cases state with
      | gap => exact isText_nil
      | _ => cases hfault
  | case2 index state found b rest fault hstep => cases hfault
  | case3 index state found b rest next hstep ih =>
      have hmoves := moves_of_attributeStep hstep
      apply completes_of_moves hmoves hquoted
      · intro a ha
        cases ha
      · exact ih (isQuotedInAscii_of_moves hmoves hquoted) hfault hall
  | case4 index state found b rest next a hstep ih =>
      have hmoves := moves_of_attributeStep hstep
      apply completes_of_moves hmoves hquoted
      · intro other hother
        cases hother
        exact hall a (mem_scanFrom List.mem_cons_self)
      · exact ih (isQuotedInAscii_of_moves hmoves hquoted) hfault hall

theorem attributeStep_of_distinct
    (h : attributeStep true found index state b = .ok (next, a?)) :
    attributeStep false found index state b = .ok (next, a?) := by
  cases state with
  | key start name =>
      rw [attributeStep] at h ⊢
      split at h
      · next hequals =>
          rcases map_acceptKey_eq_ok h with ⟨rfl, rfl⟩
          rw [if_pos hequals]
          rfl
      · next hother =>
          rw [if_neg hother]
          exact h
  | afterKey start name =>
      rw [attributeStep] at h ⊢
      split at h
      · next hequals =>
          rcases map_acceptKey_eq_ok h with ⟨rfl, rfl⟩
          rw [if_pos hequals]
          rfl
      · next hother =>
          rw [if_neg hother]
          exact h
  | gap => exact h
  | beforeValue start name => exact h
  | value start name quote raw => exact h

theorem scanFrom_of_distinct
    (hfault : (scanFrom true index state found bytes).fault = none) :
    scanFrom false index state found bytes = scanFrom true index state found bytes := by
  induction bytes generalizing index state found with
  | nil => rfl
  | cons b rest ih =>
      rw [scanFrom] at hfault ⊢
      rw [scanFrom]
      cases hstep : attributeStep true found index state b with
      | error fault =>
          rw [hstep] at hfault
          cases hfault
      | ok answer =>
          obtain ⟨next, a?⟩ := answer
          rw [hstep] at hfault
          rw [attributeStep_of_distinct hstep]
          cases a? with
          | none => exact ih hfault
          | some a => exact ih hfault

end Markup
end FlowConfig
