import FlowConfig.Number.Binary64
import FlowConfig.Proofs.Text.Parts
import FlowConfig.Schema.SimpleType
import Mathlib.Data.List.TakeWhile

/-!
# Decimal numerals

Every text that is accepted as a decimal can be read as a double.  A numeral far
out of range gives zero or infinity, and none gives a NaN.
-/

namespace FlowConfig

/-!
# The digits of a numeral
-/

namespace SimpleType

theorem exists_digits_of_isDecimal {cs : List Char} (h : isDecimal cs = true) :
    exists whole fraction, (forall c, c ∈ whole ++ fraction -> Text.isAsciiDigit c = true) ∧
      whole ++ fraction ≠ [] ∧
        (dropSign cs = whole ∧ fraction = [] ∨ dropSign cs = whole ++ '.' :: fraction) := by
  have hparts : forall whole fraction : List Char,
      (!(whole.isEmpty && fraction.isEmpty) && whole.all Text.isAsciiDigit &&
        fraction.all Text.isAsciiDigit) = true ->
      (forall c, c ∈ whole ++ fraction -> Text.isAsciiDigit c = true) ∧
        whole ++ fraction ≠ [] := by
    intro whole fraction hall
    simp only [Bool.and_eq_true, Bool.not_eq_true', List.all_eq_true] at hall
    rcases hall with ⟨⟨hdigit, hwhole⟩, hfraction⟩
    constructor
    · intro c hc
      rcases List.mem_append.mp hc with hc | hc
      · exact hwhole c hc
      · exact hfraction c hc
    · intro hnil
      rcases List.append_eq_nil_iff.mp hnil with ⟨rfl, rfl⟩
      cases hdigit
  rw [isDecimal] at h
  cases hsplit : Text.splitOnce '.' (dropSign cs) with
  | none =>
      simp only [hsplit, Option.getD_none] at h
      rcases hparts _ _ h with ⟨hdigits, hne⟩
      exact ⟨dropSign cs, [], hdigits, hne, Or.inl ⟨rfl, rfl⟩⟩
  | some parts =>
      obtain ⟨whole, fraction⟩ := parts
      simp only [hsplit, Option.getD_some] at h
      rcases hparts _ _ h with ⟨hdigits, hne⟩
      exact ⟨whole, fraction, hdigits, hne, Or.inr (Text.splitOnce_eq_some_iff.mp hsplit).left⟩

end SimpleType

namespace Binary64

theorem snd_splitSign (cs : List Char) : (splitSign cs).2 = SimpleType.dropSign cs := by
  simp only [splitSign]
  split
  · rfl
  · rfl
  · next hminus hplus => rw [SimpleType.dropSign.eq_3 cs hplus hminus]

/-!
# Numbers that are no NaN
-/

theorem isNaN_of_le_infinity {x : Binary64} (h : x.bits.toNat ≤ infinity.bits.toNat) :
    x.isNaN = false := by
  rw [isNaN, decide_eq_false_iff_not, UInt64.lt_iff_toNat_lt, UInt64.toNat_and, Nat.not_lt]
  exact Nat.le_trans Nat.and_le_left h

theorem isNaN_withSign (negative : Bool) (x : Binary64) :
    (withSign negative x).isNaN = x.isNaN := by
  cases negative with
  | false => rfl
  | true =>
      have hsign : (0x8000000000000000 : UInt64).toNat &&& (0x7FFFFFFFFFFFFFFF : UInt64).toNat =
          0 := by decide
      simp only [isNaN, withSign, if_true, UInt64.lt_iff_toNat_lt, UInt64.toNat_and,
        UInt64.toNat_or]
      rw [Nat.and_or_distrib_right, hsign, Nat.or_zero]

theorem isNaN_ofNat_of_lt_infinity {n : Nat} (h : n < infinity.bits.toNat) :
    isNaN ⟨UInt64.ofNat n⟩ = false := by
  apply isNaN_of_le_infinity
  rw [UInt64.toNat_ofNat_of_lt' (Nat.lt_trans h (UInt64.toNat_lt _))]
  exact Nat.le_of_lt h

theorem leadingBit_lt_infinity : leadingBit < infinity.bits.toNat := by
  decide

theorem isNaN_ofQuotient (num den : Nat) : (ofQuotient num den).isNaN = false := by
  rw [ofQuotient]
  obtain ⟨n, d⟩ := scaled num den (max (leadingExponent num den - 52) (-1074))
  simp only
  split
  · next hlt => exact isNaN_ofNat_of_lt_infinity (Nat.lt_trans hlt leadingBit_lt_infinity)
  · split
    · next hlt => exact isNaN_ofNat_of_lt_infinity hlt
    · exact isNaN_of_le_infinity (Nat.le_refl _)

theorem isNaN_ofDecimal (digits : Nat) (exponent : Int) :
    (ofDecimal digits exponent).isNaN = false := by
  simp only [ofDecimal]
  split
  · rfl
  · split
    · exact isNaN_ofQuotient _ _
    · exact isNaN_ofQuotient _ _

theorem isNaN_ofDigits (digits : List Char) (exponent : Int) :
    (ofDigits digits exponent).isNaN = false := by
  rw [ofDigits]
  split
  · rfl
  · split
    · rfl
    · split
      · rfl
      · exact isNaN_ofDecimal _ _

/-!
# Reading
-/

variable {cs whole fraction : List Char}

theorem readUnsigned_of_whole (hdigits : forall c, c ∈ whole -> Text.isAsciiDigit c = true)
    (hne : whole ≠ []) : readUnsigned whole = some (ofDigits whole 0) := by
  rw [readUnsigned, List.takeWhile_eq_self_iff.mpr hdigits,
    List.dropWhile_eq_nil_iff.mpr hdigits]
  simp [hne, readExponent]

theorem readUnsigned_of_point
    (hdigits : forall c, c ∈ whole ++ fraction -> Text.isAsciiDigit c = true)
    (hne : whole ++ fraction ≠ []) :
    readUnsigned (whole ++ '.' :: fraction) =
      some (ofDigits (whole ++ fraction) (-fraction.length)) := by
  have hwhole : forall c, c ∈ whole -> Text.isAsciiDigit c = true :=
    fun c hc => hdigits c (List.mem_append_left fraction hc)
  have hfraction : forall c, c ∈ fraction -> Text.isAsciiDigit c = true :=
    fun c hc => hdigits c (List.mem_append_right whole hc)
  have hpoint : Text.isAsciiDigit '.' = false := rfl
  rw [readUnsigned, List.takeWhile_append_of_pos hwhole, List.dropWhile_append_of_pos hwhole,
    List.takeWhile_cons_of_neg (by rw [hpoint]; exact Bool.false_ne_true),
    List.dropWhile_cons_of_neg (by rw [hpoint]; exact Bool.false_ne_true)]
  simp only [List.takeWhile_eq_self_iff.mpr hfraction, List.dropWhile_eq_nil_iff.mpr hfraction,
    List.append_nil]
  rw [if_neg]
  · simp [readExponent]
  · rw [Bool.and_eq_true, List.isEmpty_iff, List.isEmpty_iff, ← List.append_eq_nil_iff]
    exact hne

theorem lowerAscii_ne_n {c : Char} (h : Text.isAsciiDigit c = true ∨ c = '.') :
    lowerAscii c ≠ 'n' := by
  rcases h with hdigit | rfl
  · rw [Text.isAsciiDigit, Bool.and_eq_true, decide_eq_true_iff, decide_eq_true_iff] at hdigit
    have hlower : lowerAscii c = c := by
      rw [lowerAscii, if_neg]
      intro hupper
      rw [Bool.and_eq_true, decide_eq_true_iff, decide_eq_true_iff] at hupper
      exact absurd (Char.le_trans hupper.left hdigit.right) (by decide)
    rw [hlower]
    rintro rfl
    exact absurd hdigit.right (by decide)
  · decide

theorem read_of_digits (h : forall c, c ∈ SimpleType.dropSign cs ->
    Text.isAsciiDigit c = true ∨ c = '.') :
    read cs = (readUnsigned (SimpleType.dropSign cs)).map (withSign (splitSign cs).1) := by
  have hword : forall {word : String}, 'n' ∈ word.toList ->
      String.ofList ((SimpleType.dropSign cs).map lowerAscii) ≠ word := by
    intro word hmem heq
    rw [← heq, String.toList_ofList] at hmem
    rcases List.mem_map.mp hmem with ⟨c, hc, hlower⟩
    exact lowerAscii_ne_n (h c hc) hlower
  rw [read]
  simp only [snd_splitSign]
  rw [if_neg, if_neg (hword (by decide))]
  rintro (hinf | hinfinity)
  · exact hword (by decide) hinf
  · exact hword (by decide) hinfinity

theorem exists_read_of_isDecimal (h : SimpleType.isDecimal cs = true) :
    exists x, read cs = some x ∧ x.isNaN = false := by
  rcases SimpleType.exists_digits_of_isDecimal h with ⟨whole, fraction, hdigits, hne, hform⟩
  rcases hform with ⟨hwhole, rfl⟩ | hpoint
  · rw [List.append_nil] at hdigits hne
    rw [read_of_digits, hwhole, readUnsigned_of_whole hdigits hne]
    · exact ⟨_, rfl, (isNaN_withSign _ _).trans (isNaN_ofDigits _ _)⟩
    · intro c hc
      rw [hwhole] at hc
      exact Or.inl (hdigits c hc)
  · rw [read_of_digits, hpoint, readUnsigned_of_point hdigits hne]
    · exact ⟨_, rfl, (isNaN_withSign _ _).trans (isNaN_ofDigits _ _)⟩
    · intro c hc
      rw [hpoint] at hc
      rcases List.mem_append.mp hc with hc | hc
      · exact Or.inl (hdigits c (List.mem_append_left _ hc))
      · rcases List.mem_cons.mp hc with hc | hc
        · exact Or.inr hc
        · exact Or.inl (hdigits c (List.mem_append_right _ hc))

end Binary64
end FlowConfig
