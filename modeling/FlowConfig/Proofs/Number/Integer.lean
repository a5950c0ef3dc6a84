import FlowConfig.Number.Binary64
import FlowConfig.Schema.SimpleType
import Mathlib.Data.Nat.Digits.Defs
import Mathlib.Tactic.Ring

/-!
# Decimal integers

A text of decimal digits with an optional sign denotes an integer, of any size.  The
texts of the integer type are exactly those.  From such a text a machine integer is read
exactly when the integer fits into 64 bits, whatever sign and leading zeros are written.
-/

namespace FlowConfig
namespace Text

open Binary64 (digitValue)

/-!
# Values
-/

/-- The number that a row of decimal digits stands for, by the place of each digit. -/
def decimalValue (cs : List Char) : Nat :=
  Nat.ofDigits 10 (cs.map digitValue).reverse

/-- Decimal digits, at least one. -/
def IsDecimalDigits (cs : List Char) : Prop :=
  cs ≠ [] ∧ forall c, c ∈ cs -> isAsciiDigit c = true

/-- The integer that a text denotes. -/
inductive DenotesInteger : List Char -> Int -> Prop where
  | unsigned {cs : List Char} : IsDecimalDigits cs -> DenotesInteger cs (decimalValue cs)
  | plus {cs : List Char} :
      IsDecimalDigits cs -> DenotesInteger ('+' :: cs) (decimalValue cs)
  | minus {cs : List Char} :
      IsDecimalDigits cs -> DenotesInteger ('-' :: cs) (-(decimalValue cs : Int))

def FitsInt64 (n : Int) : Prop :=
  -9223372036854775808 ≤ n ∧ n ≤ 9223372036854775807

instance (n : Int) : Decidable (FitsInt64 n) :=
  inferInstanceAs (Decidable (_ ∧ _))

@[simp] theorem decimalValue_nil : decimalValue [] = 0 := rfl

theorem decimalValue_cons (c : Char) (rest : List Char) :
    decimalValue (c :: rest) = digitValue c * 10 ^ rest.length + decimalValue rest := by
  unfold decimalValue
  rw [List.map_cons, List.reverse_cons, Nat.ofDigits_append, Nat.ofDigits_singleton,
    List.length_reverse, List.length_map, Nat.mul_comm, Nat.add_comm]

theorem not_isDecimalDigits_of_sign {c : Char} {cs : List Char} (h : c = '+' ∨ c = '-') :
    ¬ IsDecimalDigits (c :: cs) := by
  intro hdigits
  have hc := hdigits.right c List.mem_cons_self
  rcases h with hplus | hminus
  · rw [hplus] at hc
    cases hc
  · rw [hminus] at hc
    cases hc

/-!
# Reading digits
-/

theorem digit?_of_isAsciiDigit {c : Char} (h : isAsciiDigit c = true) :
    digit? 10 c = some (digitValue c) := by
  have hlt : digitValue c < 10 := by
    rw [isAsciiDigit, Bool.and_eq_true, decide_eq_true_iff, decide_eq_true_iff] at h
    have hle : c.toNat ≤ '9'.toNat := h.right
    have hnine : '9'.toNat = 57 := rfl
    have hzero : '0'.toNat = 48 := rfl
    unfold digitValue
    omega
  rw [digit?, if_pos h]
  exact Option.filter_some_pos (decide_eq_true hlt)

/-- Reading checks the bound after every digit; only the whole value matters. -/
theorem readDigits_eq {bound value : Nat} {cs : List Char}
    (hdigits : forall c, c ∈ cs -> isAsciiDigit c = true) (hvalue : value < bound) :
    readDigits 10 bound value cs =
      if value * 10 ^ cs.length + decimalValue cs < bound
      then .ok (value * 10 ^ cs.length + decimalValue cs) else .error .tooLarge := by
  induction cs generalizing value with
  | nil =>
      rw [readDigits, List.length_nil, Nat.pow_zero, Nat.mul_one, decimalValue_nil,
        Nat.add_zero, if_pos hvalue]
  | cons c rest ih =>
      have hplaces : value * 10 ^ (c :: rest).length + decimalValue (c :: rest) =
          (value * 10 + digitValue c) * 10 ^ rest.length + decimalValue rest := by
        rw [decimalValue_cons, List.length_cons, pow_succ]
        ring
      rw [readDigits, digit?_of_isAsciiDigit (hdigits c List.mem_cons_self), hplaces]
      by_cases hlt : value * 10 + digitValue c < bound
      · rw [← ih (fun d hd => hdigits d (List.mem_cons_of_mem c hd)) hlt]
        exact if_pos hlt
      · -- Further digits only make the value larger.
        have hle : value * 10 + digitValue c ≤
            (value * 10 + digitValue c) * 10 ^ rest.length :=
          Nat.le_mul_of_pos_right _ (Nat.pow_pos (by decide))
        have hge : ¬ (value * 10 + digitValue c) * 10 ^ rest.length + decimalValue rest < bound :=
          fun hsum => hlt (Nat.lt_of_le_of_lt (Nat.le_trans hle (Nat.le_add_right _ _)) hsum)
        rw [if_neg hge]
        exact if_neg hlt

theorem readNumeral_eq {bound : Nat} {cs : List Char} (h : IsDecimalDigits cs)
    (hbound : 0 < bound) :
    readNumeral 10 bound cs =
      if decimalValue cs < bound then .ok (decimalValue cs) else .error .tooLarge := by
  cases cs with
  | nil => exact absurd rfl h.left
  | cons c rest =>
      rw [readNumeral, readDigits_eq h.right hbound, Nat.zero_mul, Nat.zero_add]
      intro hnil
      cases hnil

/-!
# Machine integers
-/

theorem match_readNumeral {bound : Nat} {cs : List Char} (f : Nat -> Int)
    (h : IsDecimalDigits cs) (hbound : 0 < bound) :
    (match readNumeral 10 bound cs with
      | .ok n => some (f n)
      | .error _ => none) =
      if decimalValue cs < bound then some (f (decimalValue cs)) else none := by
  rw [readNumeral_eq h hbound]
  by_cases hlt : decimalValue cs < bound
  · rw [if_pos hlt, if_pos hlt]
  · rw [if_neg hlt, if_neg hlt]

theorem readInt64_of_denotesInteger {cs : List Char} {n : Int} (h : DenotesInteger cs n) :
    readInt64 cs = if FitsInt64 n then some n else none := by
  have hsize : int64Bound = 9223372036854775808 := rfl
  cases h with
  | unsigned hdigits =>
      rw [readInt64]
      · refine (match_readNumeral (fun n => (n : Int)) hdigits (by decide)).trans ?_
        exact if_congr (by unfold FitsInt64; omega) rfl rfl
      · intro rest hminus
        rw [hminus] at hdigits
        exact not_isDecimalDigits_of_sign (Or.inr rfl) hdigits
      · intro rest hplus
        rw [hplus] at hdigits
        exact not_isDecimalDigits_of_sign (Or.inl rfl) hdigits
  | plus hdigits =>
      refine (match_readNumeral (fun n => (n : Int)) hdigits (by decide)).trans ?_
      exact if_congr (by unfold FitsInt64; omega) rfl rfl
  | minus hdigits =>
      refine (match_readNumeral (fun n => -(n : Int)) hdigits (by decide)).trans ?_
      exact if_congr (by unfold FitsInt64; omega) rfl rfl

end Text

namespace SimpleType

open Text

theorem isInteger_eq_true_iff_digits (cs : List Char) :
    isInteger cs = true <-> IsDecimalDigits (dropSign cs) := by
  simp [isInteger, IsDecimalDigits]

/-- The integer type has exactly the texts that denote an integer. -/
theorem isInteger_iff (cs : List Char) :
    isInteger cs = true <-> exists n, DenotesInteger cs n := by
  rw [isInteger_eq_true_iff_digits]
  constructor
  · intro hdigits
    unfold dropSign at hdigits
    split at hdigits
    · exact ⟨_, .plus hdigits⟩
    · exact ⟨_, .minus hdigits⟩
    · exact ⟨_, .unsigned hdigits⟩
  · intro hdenotes
    rcases hdenotes with ⟨n, hdenotes⟩
    cases hdenotes with
    | plus hdigits => exact hdigits
    | minus hdigits => exact hdigits
    | unsigned hdigits =>
        unfold dropSign
        split
        · exact absurd hdigits (not_isDecimalDigits_of_sign (Or.inl rfl))
        · exact absurd hdigits (not_isDecimalDigits_of_sign (Or.inr rfl))
        · exact hdigits

end SimpleType
end FlowConfig
