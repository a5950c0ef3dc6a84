import FlowConfig.Proofs.Number.Decimal
import FlowConfig.Proofs.Number.Integer
import FlowConfig.Proofs.Text.Parts
import Mathlib.Computability.RegularExpressions
import Mathlib.Tactic.IntervalCases

/-!
# Value spaces of simple types

The texts of a simple type are a regular language, and a value is accepted exactly when
what is left of it without the blanks around it is in this language.
-/

namespace FlowConfig
namespace SimpleType

open RegularExpression Text

/-!
# Patterns
-/

def anyOf (chars : List Char) : RegularExpression Char :=
  chars.foldr (fun c p => char c + p) 0

def word (cs : List Char) : RegularExpression Char :=
  cs.foldr (fun c p => char c * p) 1

def digitPattern : RegularExpression Char :=
  anyOf ['0', '1', '2', '3', '4', '5', '6', '7', '8', '9']

def digitsPattern : RegularExpression Char :=
  digitPattern * digitPattern.star

def pointPattern : RegularExpression Char :=
  digitsPattern * (1 + char '.' * digitPattern.star) + char '.' * digitsPattern

def signed (p : RegularExpression Char) : RegularExpression Char :=
  (1 + anyOf ['+', '-']) * p

/-- The texts of a type. -/
def valueSpace : SimpleType -> Language Char
  | .string => Set.univ
  | .integer => (signed digitsPattern).matches'
  | .decimal => (signed pointPattern).matches'
  | .boolean =>
      (word ['t', 'r', 'u', 'e'] + word ['f', 'a', 'l', 's', 'e'] + word ['1'] +
        word ['0']).matches'

/-!
# The languages of the patterns
-/

variable {cs chars : List Char} {p : RegularExpression Char}

theorem mem_char_mul {c : Char} :
    cs ∈ (char c * p).matches' <-> exists rest, cs = c :: rest ∧ rest ∈ p.matches' := by
  rw [matches'_mul, matches'_char, Language.mem_mul]
  constructor
  · rintro ⟨_, rfl, rest, hrest, rfl⟩
    exact ⟨rest, rfl, hrest⟩
  · rintro ⟨rest, rfl, hrest⟩
    exact ⟨[c], rfl, rest, hrest, rfl⟩

theorem mem_anyOf : cs ∈ (anyOf chars).matches' <-> exists c, c ∈ chars ∧ cs = [c] := by
  induction chars with
  | nil =>
      rw [anyOf, List.foldr_nil, matches'_zero]
      simp [Language.notMem_zero]
  | cons c rest ih =>
      rw [anyOf, List.foldr_cons, matches'_add, matches'_char, Language.mem_add]
      rw [anyOf] at ih
      rw [ih]
      constructor
      · rintro (rfl | ⟨d, hd, rfl⟩)
        · exact ⟨c, List.mem_cons_self, rfl⟩
        · exact ⟨d, List.mem_cons_of_mem c hd, rfl⟩
      · rintro ⟨d, hd, rfl⟩
        rcases List.mem_cons.mp hd with rfl | hrest
        · exact Or.inl rfl
        · exact Or.inr ⟨d, hrest, rfl⟩

theorem mem_word {w : List Char} : cs ∈ (word w).matches' <-> cs = w := by
  induction w generalizing cs with
  | nil => exact Language.mem_one cs
  | cons c rest ih =>
      rw [word, List.foldr_cons, mem_char_mul]
      constructor
      · rintro ⟨tail, rfl, htail⟩
        rw [ih.mp htail]
      · rintro rfl
        exact ⟨rest, rfl, ih.mpr rfl⟩

theorem isAsciiDigit_iff {c : Char} :
    isAsciiDigit c = true <-> c ∈ ['0', '1', '2', '3', '4', '5', '6', '7', '8', '9'] := by
  constructor
  · intro h
    rw [isAsciiDigit, Bool.and_eq_true, decide_eq_true_iff, decide_eq_true_iff] at h
    have hlow : 48 ≤ c.toNat := h.left
    have hhigh : c.toNat ≤ 57 := h.right
    rw [← Char.ofNat_toNat c]
    generalize c.toNat = n at hlow hhigh
    interval_cases n <;> decide
  · intro h
    simp only [List.mem_cons, List.not_mem_nil, or_false] at h
    rcases h with rfl | rfl | rfl | rfl | rfl | rfl | rfl | rfl | rfl | rfl <;> rfl

theorem mem_digitPattern :
    cs ∈ digitPattern.matches' <-> exists c, isAsciiDigit c = true ∧ cs = [c] := by
  simp only [digitPattern, mem_anyOf, isAsciiDigit_iff]

theorem mem_star_digitPattern :
    cs ∈ digitPattern.star.matches' <-> forall c, c ∈ cs -> isAsciiDigit c = true := by
  rw [matches'_star, Language.mem_kstar]
  constructor
  · rintro ⟨parts, rfl, hparts⟩ c hc
    rcases List.mem_flatten.mp hc with ⟨part, hpart, hmem⟩
    rcases mem_digitPattern.mp (hparts part hpart) with ⟨d, hd, rfl⟩
    rw [List.mem_singleton.mp hmem]
    exact hd
  · intro h
    refine ⟨cs.map fun c => [c], (List.flatMap_singleton' cs).symm, ?_⟩
    intro part hpart
    rcases List.mem_map.mp hpart with ⟨c, hc, rfl⟩
    exact mem_digitPattern.mpr ⟨c, h c hc, rfl⟩

theorem mem_digitsPattern : cs ∈ digitsPattern.matches' <-> IsDecimalDigits cs := by
  rw [digitsPattern, matches'_mul, Language.mem_mul]
  constructor
  · rintro ⟨first, hfirst, rest, hrest, rfl⟩
    rcases mem_digitPattern.mp hfirst with ⟨c, hc, rfl⟩
    exact ⟨List.cons_ne_nil c rest,
      List.forall_mem_cons.mpr ⟨hc, mem_star_digitPattern.mp hrest⟩⟩
  · rintro ⟨hne, hdigits⟩
    cases cs with
    | nil => exact absurd rfl hne
    | cons c rest =>
        rcases List.forall_mem_cons.mp hdigits with ⟨hc, hrest⟩
        exact ⟨[c], mem_digitPattern.mpr ⟨c, hc, rfl⟩, rest,
          mem_star_digitPattern.mpr hrest, rfl⟩

/-- Digits with at most one point among them. -/
def IsPointed (cs : List Char) : Prop :=
  exists whole fraction, (forall c, c ∈ whole ++ fraction -> isAsciiDigit c = true) ∧
    whole ++ fraction ≠ [] ∧ (cs = whole ∧ fraction = [] ∨ cs = whole ++ '.' :: fraction)

theorem mem_pointPattern : cs ∈ pointPattern.matches' <-> IsPointed cs := by
  rw [pointPattern, matches'_add, Language.mem_add, mem_char_mul, matches'_mul, Language.mem_mul]
  simp only [mem_digitsPattern, matches'_add, matches'_epsilon, Language.mem_add,
    Language.mem_one, mem_char_mul, mem_star_digitPattern]
  constructor
  · rintro (⟨whole, hwhole, rest, hrest, rfl⟩ | ⟨fraction, rfl, hfraction⟩)
    · have hne := List.append_ne_nil_of_left_ne_nil hwhole.left
      rcases hrest with rfl | ⟨fraction, rfl, hfraction⟩
      · refine ⟨whole, [], ?_, hne [], Or.inl ⟨List.append_nil whole, rfl⟩⟩
        rw [List.append_nil]
        exact hwhole.right
      · exact ⟨whole, fraction, List.forall_mem_append.mpr ⟨hwhole.right, hfraction⟩,
          hne fraction, Or.inr rfl⟩
    · exact ⟨[], fraction, hfraction.right, hfraction.left, Or.inr rfl⟩
  · rintro ⟨whole, fraction, hdigits, hne, hform⟩
    rcases List.forall_mem_append.mp hdigits with ⟨hwhole, hfraction⟩
    rcases hform with ⟨rfl, rfl⟩ | rfl
    · rw [List.append_nil] at hne
      exact Or.inl ⟨cs, ⟨hne, hwhole⟩, [], Or.inl rfl, List.append_nil cs⟩
    · by_cases hnil : whole = []
      · rw [hnil, List.nil_append] at hne ⊢
        exact Or.inr ⟨fraction, rfl, hne, hfraction⟩
      · exact Or.inl ⟨whole, ⟨hnil, hwhole⟩, '.' :: fraction,
          Or.inr ⟨fraction, rfl, hfraction⟩, rfl⟩

/-!
# Signs
-/

def Unsigned (p : RegularExpression Char) : Prop :=
  forall sign rest, sign ∈ ['+', '-'] -> sign :: rest ∉ p.matches'

theorem dropSign_cons {sign : Char} (h : sign ∈ ['+', '-']) (rest : List Char) :
    dropSign (sign :: rest) = rest := by
  rcases List.mem_pair.mp h with rfl | rfl <;> rfl

theorem mem_signed_iff (h : Unsigned p) :
    cs ∈ (signed p).matches' <-> dropSign cs ∈ p.matches' := by
  rw [signed, matches'_mul, Language.mem_mul]
  simp only [matches'_add, matches'_epsilon, Language.mem_add, Language.mem_one, mem_anyOf]
  constructor
  · rintro ⟨front, rfl | ⟨sign, hsign, rfl⟩, rest, hrest, rfl⟩
    · -- A text of the pattern has no sign of its own that could be dropped.
      have hself : dropSign rest = rest := by
        unfold dropSign
        split
        · exact absurd hrest (h _ _ (by decide))
        · exact absurd hrest (h _ _ (by decide))
        · rfl
      rw [List.nil_append, hself]
      exact hrest
    · rw [List.singleton_append, dropSign_cons hsign]
      exact hrest
  · intro hcs
    unfold dropSign at hcs
    split at hcs
    · next rest => exact ⟨['+'], Or.inr ⟨'+', by decide, rfl⟩, rest, hcs, rfl⟩
    · next rest => exact ⟨['-'], Or.inr ⟨'-', by decide, rfl⟩, rest, hcs, rfl⟩
    · exact ⟨[], Or.inl rfl, cs, hcs, rfl⟩

theorem isAsciiDigit_sign {sign : Char} (h : sign ∈ ['+', '-']) :
    isAsciiDigit sign = false := by
  rcases List.mem_pair.mp h with rfl | rfl <;> rfl

theorem unsigned_pointPattern : Unsigned pointPattern := by
  intro sign rest hsign hmem
  rcases mem_pointPattern.mp hmem with ⟨whole, fraction, hdigits, hne, hform⟩
  have hnot : sign ∉ whole := by
    intro hwhole
    have htrue := hdigits sign (List.mem_append_left _ hwhole)
    rw [isAsciiDigit_sign hsign] at htrue
    cases htrue
  cases whole with
  | nil =>
      rcases hform with ⟨hnil, _⟩ | hpoint
      · cases hnil
      · cases hpoint
        exact absurd hsign (by decide)
  | cons c more =>
      apply hnot
      rcases hform with ⟨hwhole, _⟩ | hpoint
      · rw [← hwhole]
        exact List.mem_cons_self
      · rw [(List.cons.inj hpoint).left]
        exact List.mem_cons_self

theorem mem_pointPattern_of_mem_digitsPattern (h : cs ∈ digitsPattern.matches') :
    cs ∈ pointPattern.matches' := by
  rcases mem_digitsPattern.mp h with ⟨hne, hdigits⟩
  refine mem_pointPattern.mpr ⟨cs, [], ?_, ?_, Or.inl ⟨rfl, rfl⟩⟩
  · rw [List.append_nil]
    exact hdigits
  · rw [List.append_nil]
    exact hne

theorem unsigned_digitsPattern : Unsigned digitsPattern :=
  fun sign rest hsign hmem =>
    unsigned_pointPattern sign rest hsign (mem_pointPattern_of_mem_digitsPattern hmem)

/-!
# Acceptance
-/

theorem isInteger_iff_mem : isInteger cs = true <-> cs ∈ valueSpace .integer := by
  rw [valueSpace, mem_signed_iff unsigned_digitsPattern, mem_digitsPattern,
    isInteger_eq_true_iff_digits]

theorem isDecimal_of_isPointed (h : IsPointed (dropSign cs)) : isDecimal cs = true := by
  rcases h with ⟨whole, fraction, hdigits, hne, hform⟩
  rcases List.forall_mem_append.mp hdigits with ⟨hwhole, hfraction⟩
  have hpoint : '.' ∉ whole := fun hmem => absurd (hwhole '.' hmem) (by decide)
  have hsplit : (splitOnce '.' (dropSign cs)).getD (dropSign cs, []) = (whole, fraction) := by
    rcases hform with ⟨hcs, rfl⟩ | hcs
    · rw [hcs, splitOnce_eq_none_iff.mpr hpoint]
      rfl
    · rw [hcs, splitOnce_append hpoint]
      rfl
  have hempty : (whole.isEmpty && fraction.isEmpty) = false := by
    rw [Bool.eq_false_iff, ne_eq, Bool.and_eq_true, List.isEmpty_iff, List.isEmpty_iff,
      ← List.append_eq_nil_iff]
    exact hne
  simp only [isDecimal, hsplit, hempty, List.all_eq_true.mpr hwhole,
    List.all_eq_true.mpr hfraction]
  rfl

theorem isDecimal_iff_mem : isDecimal cs = true <-> cs ∈ valueSpace .decimal := by
  rw [valueSpace, mem_signed_iff unsigned_pointPattern, mem_pointPattern]
  exact ⟨exists_digits_of_isDecimal, isDecimal_of_isPointed⟩

theorem isBoolean_iff_mem : isBoolean cs = true <-> cs ∈ valueSpace .boolean := by
  simp only [isBoolean, valueSpace, matches'_add, Language.mem_add, mem_word, Bool.or_eq_true,
    beq_iff_eq]

theorem accepts_iff_mem (kind : SimpleType) (text : String) :
    kind.accepts text = true <-> trimChars text.toList ∈ kind.valueSpace := by
  cases kind with
  | string => exact ⟨fun _ => Set.mem_univ _, fun _ => rfl⟩
  | integer => exact isInteger_iff_mem
  | decimal => exact isDecimal_iff_mem
  | boolean => exact isBoolean_iff_mem

theorem valueSpace_integer_subset {cs : List Char} (h : cs ∈ valueSpace .integer) :
    cs ∈ valueSpace .decimal := by
  rw [valueSpace, mem_signed_iff unsigned_digitsPattern] at h
  rw [valueSpace, mem_signed_iff unsigned_pointPattern]
  exact mem_pointPattern_of_mem_digitsPattern h

/-- Every type accepts the texts of its value space and no others, when the blanks around
them are removed.  Integers are decimals, and blanks around a value make no difference. -/
theorem accepts_exactly_value_space (kind : SimpleType) (text : String) :
    (exists core, IsCoreOf text.toList core ∧
      (kind.accepts text = true <-> core ∈ kind.valueSpace)) ∧
    (integer.accepts text = true -> decimal.accepts text = true) ∧
    forall before after : String, allBlank before = true -> allBlank after = true ->
      kind.accepts (before ++ text ++ after) = kind.accepts text := by
  refine ⟨⟨trimChars text.toList, isCoreOf_trimChars _, accepts_iff_mem kind text⟩, ?_, ?_⟩
  · intro h
    exact (accepts_iff_mem _ _).mpr (valueSpace_integer_subset ((accepts_iff_mem _ _).mp h))
  · intro before after hbefore hafter
    rw [Bool.eq_iff_iff, accepts_iff_mem, accepts_iff_mem, String.toList_append,
      String.toList_append, trimChars_surround _ (List.all_eq_true.mp hbefore)
        (List.all_eq_true.mp hafter)]

end SimpleType
end FlowConfig
