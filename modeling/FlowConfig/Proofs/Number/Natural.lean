import FlowConfig.Proofs.Number.Integer

/-!
# Decimal naturals

A text of decimal digits, with or without a plus sign, denotes a natural number of any
size.  A machine word is read from exactly the texts that denote one, and the decimal
form of a number denotes it.
-/

namespace FlowConfig
namespace Text

open Binary64 (digitValue)

inductive DenotesNatural : List Char -> Nat -> Prop where
  | unsigned {cs : List Char} : IsDecimalDigits cs -> DenotesNatural cs (decimalValue cs)
  | plus {cs : List Char} :
      IsDecimalDigits cs -> DenotesNatural ('+' :: cs) (decimalValue cs)

theorem denotesNatural_plus_iff {cs : List Char} {n : Nat} :
    DenotesNatural ('+' :: cs) n <-> IsDecimalDigits cs ∧ decimalValue cs = n := by
  constructor
  · intro h
    cases h with
    | plus hdigits => exact ⟨hdigits, rfl⟩
    | unsigned hdigits => exact absurd hdigits (not_isDecimalDigits_of_sign (Or.inl rfl))
  · rintro ⟨hdigits, rfl⟩
    exact .plus hdigits

theorem denotesNatural_iff_of_ne {cs : List Char} {n : Nat}
    (h : forall rest, cs ≠ '+' :: rest) :
    DenotesNatural cs n <-> IsDecimalDigits cs ∧ decimalValue cs = n := by
  constructor
  · intro hdenotes
    cases hdenotes with
    | plus _ => exact absurd rfl (h _)
    | unsigned hdigits => exact ⟨hdigits, rfl⟩
  · rintro ⟨hdigits, rfl⟩
    exact .unsigned hdigits

/-!
# Reading
-/

theorem isAsciiDigit_of_digit? {c : Char} {d : Nat} (h : digit? 10 c = some d) :
    isAsciiDigit c = true := by
  cases hc : isAsciiDigit c with
  | true => rfl
  | false =>
      -- The letters stand for ten and more.
      rw [digit?, Option.filter_eq_some_iff] at h
      rcases h with ⟨hvalue, hlt⟩
      have hlt := of_decide_eq_true hlt
      rw [hc, if_neg Bool.false_ne_true] at hvalue
      split at hvalue
      · have hvalue := Option.some.inj hvalue
        omega
      · split at hvalue
        · have hvalue := Option.some.inj hvalue
          omega
        · cases hvalue

theorem isAsciiDigit_of_readDigits {bound value n : Nat} {cs : List Char}
    (h : readDigits 10 bound value cs = .ok n) :
    forall c, c ∈ cs -> isAsciiDigit c = true := by
  induction cs generalizing value with
  | nil => exact fun c hc => absurd hc List.not_mem_nil
  | cons c rest ih =>
      rw [readDigits] at h
      split at h
      · cases h
      · next d hd =>
          split at h
          · exact List.forall_mem_cons.mpr ⟨isAsciiDigit_of_digit? hd, ih h⟩
          · cases h

theorem readNumeral_eq_ok_iff {bound n : Nat} {cs : List Char} (hbound : 0 < bound) :
    readNumeral 10 bound cs = .ok n <->
      IsDecimalDigits cs ∧ decimalValue cs = n ∧ n < bound := by
  constructor
  · intro h
    have hdigits : IsDecimalDigits cs := by
      cases cs with
      | nil => cases h
      | cons c rest =>
          exact ⟨List.cons_ne_nil c rest, isAsciiDigit_of_readDigits h⟩
    rw [readNumeral_eq hdigits hbound] at h
    split at h
    · next hlt =>
        cases h
        exact ⟨hdigits, rfl, hlt⟩
    · cases h
  · rintro ⟨hdigits, rfl, hlt⟩
    rw [readNumeral_eq hdigits hbound, if_pos hlt]

theorem match_readNumeral_uint32 {cs : List Char} {n : UInt32} :
    (match readNumeral 10 UInt32.size cs with
      | .ok m => some (UInt32.ofNat m)
      | .error _ => none) = some n <->
      IsDecimalDigits cs ∧ decimalValue cs = n.toNat := by
  constructor
  · intro h
    split at h
    · next m hm =>
        rcases (readNumeral_eq_ok_iff (by decide)).mp hm with ⟨hdigits, hvalue, hlt⟩
        cases h
        rw [UInt32.toNat_ofNat_of_lt' hlt]
        exact ⟨hdigits, hvalue⟩
    · cases h
  · rintro ⟨hdigits, hvalue⟩
    rw [(readNumeral_eq_ok_iff (by decide)).mpr ⟨hdigits, hvalue, n.toNat_lt⟩]
    simp

theorem readUInt32_eq_some_iff {cs : List Char} {n : UInt32} :
    readUInt32 cs = some n <-> DenotesNatural cs n.toNat := by
  by_cases hplus : exists rest, cs = '+' :: rest
  · rcases hplus with ⟨rest, rfl⟩
    rw [denotesNatural_plus_iff]
    exact match_readNumeral_uint32
  · have hne : forall rest, cs ≠ '+' :: rest := fun rest heq => hplus ⟨rest, heq⟩
    rw [denotesNatural_iff_of_ne hne, readUInt32]
    · exact match_readNumeral_uint32
    · exact hne

theorem readUInt32_eq_none_iff {cs : List Char} :
    readUInt32 cs = none <-> ¬ exists n, DenotesNatural cs n ∧ n < UInt32.size := by
  rw [← Option.not_isSome_iff_eq_none, Option.isSome_iff_exists, not_iff_not]
  constructor
  · rintro ⟨n, hn⟩
    exact ⟨n.toNat, readUInt32_eq_some_iff.mp hn, n.toNat_lt⟩
  · rintro ⟨n, hdenotes, hlt⟩
    refine ⟨UInt32.ofNat n, readUInt32_eq_some_iff.mpr ?_⟩
    rw [UInt32.toNat_ofNat_of_lt' hlt]
    exact hdenotes

/-!
# Writing
-/

theorem ofDigitChars_eq (cs : List Char) (value : Nat) :
    Nat.ofDigitChars 10 cs value = value * 10 ^ cs.length + decimalValue cs := by
  induction cs generalizing value with
  | nil => simp [Nat.ofDigitChars]
  | cons c rest ih =>
      rw [Nat.ofDigitChars_cons, ih, decimalValue_cons, List.length_cons, pow_succ, digitValue]
      ring

theorem decimalValue_toDigits (n : Nat) : decimalValue (Nat.toDigits 10 n) = n := by
  have hvalue := ofDigitChars_eq (Nat.toDigits 10 n) 0
  rw [Nat.ofDigitChars_ten_toDigits, Nat.zero_mul, Nat.zero_add] at hvalue
  exact hvalue.symm

theorem isDecimalDigits_toDigits (n : Nat) : IsDecimalDigits (Nat.toDigits 10 n) := by
  constructor
  · exact Nat.toDigits_ne_nil
  · intro c hc
    have hdigit := Nat.isDigit_of_mem_toDigits (by decide) (by decide) hc
    rw [Char.isDigit, Bool.and_eq_true, decide_eq_true_iff, decide_eq_true_iff] at hdigit
    rw [isAsciiDigit, Bool.and_eq_true, decide_eq_true_iff, decide_eq_true_iff]
    exact hdigit

theorem denotesNatural_toDigits (n : Nat) : DenotesNatural (Nat.toDigits 10 n) n := by
  have h := DenotesNatural.unsigned (isDecimalDigits_toDigits n)
  rw [decimalValue_toDigits] at h
  exact h

theorem DenotesNatural.not_mem {cs : List Char} {n : Nat} (h : DenotesNatural cs n)
    {c : Char} (hdigit : isAsciiDigit c = false) (hplus : c ≠ '+') : c ∉ cs := by
  have hfree : forall {ds : List Char}, IsDecimalDigits ds -> c ∉ ds := by
    intro ds hds hc
    have htrue := hds.right c hc
    rw [hdigit] at htrue
    cases htrue
  cases h with
  | unsigned hdigits => exact hfree hdigits
  | plus hdigits => exact List.not_mem_cons_of_ne_of_not_mem hplus (hfree hdigits)

end Text
end FlowConfig
