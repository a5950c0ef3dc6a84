import FlowConfig.Proofs.Number.Natural
import FlowConfig.Proofs.Text.Parts
import FlowConfig.Version

/-!
# The texts of encoding versions

A version is written as two numerals around a point, with blanks around the whole text
but none within it.  Any other text is refused, and the fault names the whole text if it
has no point and else the part that is no numeral.  What a version is displayed as reads
back as that version.
-/

namespace FlowConfig
namespace Version

open Text

def IsPart (cs : List Char) : Prop :=
  exists n, DenotesNatural cs n ∧ n < 4294967296

/-- What a text is read as, given what is left of it without the blanks around it: a
version, or the first fault of its parts. -/
inductive Reads (text : String) (core : List Char) : Except VersionFault Version -> Prop where
  | version {major minor : List Char} {v : Version} : core = major ++ '.' :: minor ->
      DenotesNatural major v.major.toNat -> DenotesNatural minor v.minor.toNat ->
      Reads text core (.ok v)
  | noPoint : '.' ∉ core -> Reads text core (.error (.format text))
  | badMajor {major minor : List Char} : core = major ++ '.' :: minor -> '.' ∉ major ->
      ¬ IsPart major -> Reads text core (.error (.component (String.ofList major)))
  | badMinor {major minor : List Char} : core = major ++ '.' :: minor -> '.' ∉ major ->
      IsPart major -> ¬ IsPart minor ->
      Reads text core (.error (.component (String.ofList minor)))

/-!
# Reading
-/

theorem isPart_of_readUInt32 {cs : List Char} {n : UInt32} (h : readUInt32 cs = some n) :
    IsPart cs :=
  ⟨n.toNat, readUInt32_eq_some_iff.mp h, n.toNat_lt⟩

theorem reads_parse (text : String) : Reads text (trimChars text.toList) (parse text) := by
  rw [parse]
  cases hsplit : splitOnce '.' (trimChars text.toList) with
  | none => exact .noPoint (splitOnce_eq_none_iff.mp hsplit)
  | some parts =>
      obtain ⟨major, minor⟩ := parts
      rcases splitOnce_eq_some_iff.mp hsplit with ⟨hcore, hfirst⟩
      -- The parts are read from left to right, so a bad first one hides the second.
      cases hmajor : readUInt32 major with
      | none =>
          simp only [hmajor]
          exact .badMajor hcore hfirst (readUInt32_eq_none_iff.mp hmajor)
      | some m =>
          cases hminor : readUInt32 minor with
          | none =>
              simp only [hmajor, hminor]
              exact .badMinor hcore hfirst (isPart_of_readUInt32 hmajor)
                (readUInt32_eq_none_iff.mp hminor)
          | some n =>
              simp only [hmajor, hminor]
              exact .version hcore (readUInt32_eq_some_iff.mp hmajor)
                (readUInt32_eq_some_iff.mp hminor)

theorem parse_eq_of_reads {text : String} {outcome : Except VersionFault Version}
    (h : Reads text (trimChars text.toList) outcome) : parse text = outcome := by
  rw [parse]
  cases h with
  | version hcore hmajor hminor =>
      have hfirst : '.' ∉ _ := hmajor.not_mem rfl (by decide)
      rw [splitOnce_eq_some_iff.mpr ⟨hcore, hfirst⟩]
      simp only [readUInt32_eq_some_iff.mpr hmajor, readUInt32_eq_some_iff.mpr hminor]
  | noPoint hnone => rw [splitOnce_eq_none_iff.mpr hnone]
  | badMajor hcore hfirst hmajor =>
      rw [splitOnce_eq_some_iff.mpr ⟨hcore, hfirst⟩]
      simp only [readUInt32_eq_none_iff.mpr hmajor]
  | badMinor hcore hfirst hmajor hminor =>
      rw [splitOnce_eq_some_iff.mpr ⟨hcore, hfirst⟩]
      cases hm : readUInt32 _ with
      | none => exact absurd hmajor (readUInt32_eq_none_iff.mp hm)
      | some m => simp only [hm, readUInt32_eq_none_iff.mpr hminor]

theorem ofAttribute?_eq_some_iff {value : Option String} {v : Version} :
    ofAttribute? value = some v <-> exists text, value = some text ∧ parse text = .ok v := by
  cases value with
  | none => simp [ofAttribute?]
  | some text =>
      rw [ofAttribute?]
      by_cases hblank : allBlank text = true
      · have hcore : trimChars text.toList = [] :=
          (trimChars_eq_nil_iff _).mpr (List.all_eq_true.mp hblank)
        have hformat : parse text = .error (.format text) :=
          parse_eq_of_reads (.noPoint (by rw [hcore]; exact List.not_mem_nil))
        simp [hblank, hformat]
      · rw [if_neg hblank]
        constructor
        · intro h
          split at h
          · next w hparse =>
              cases h
              exact ⟨text, rfl, hparse⟩
          · cases h
        · rintro ⟨w, hw, hparse⟩
          cases hw
          rw [hparse]

/-!
# Writing
-/

theorem toList_display (v : Version) :
    v.display.toList =
      Nat.toDigits 10 v.major.toNat ++ '.' :: Nat.toDigits 10 v.minor.toNat := by
  rw [display, Nat.toString_eq_ofList_toDigits, Nat.toString_eq_ofList_toDigits]
  simp

theorem parse_display (v : Version) : parse v.display = .ok v := by
  have hdigits := fun n : Nat => (isDecimalDigits_toDigits n).right
  have hfree : forall c, c ∈ v.display.toList -> isBlank c = false := by
    intro c hc
    rw [toList_display] at hc
    rcases List.mem_append.mp hc with hmajor | hrest
    · exact isBlank_of_isAsciiDigit (hdigits _ c hmajor)
    · rcases List.mem_cons.mp hrest with rfl | hminor
      · rfl
      · exact isBlank_of_isAsciiDigit (hdigits _ c hminor)
  apply parse_eq_of_reads
  rw [trimChars_eq_of_isCoreOf (isCoreOf_self hfree)]
  exact .version (toList_display v) (denotesNatural_toDigits _) (denotesNatural_toDigits _)

/-- Reading a version accepts its grammar and nothing else: what comes of a text is the one
reading that holds of it when the blanks around it are removed.  An attribute has a version
exactly where its value reads as one, and every version reads back from its display. -/
theorem parse_follows_grammar (text : String) :
    (exists core, IsCoreOf text.toList core ∧
      forall outcome, parse text = outcome <-> Reads text core outcome) ∧
    (forall v value, ofAttribute? value = some v <->
      exists s, value = some s ∧ parse s = .ok v) ∧
    forall v : Version, parse v.display = .ok v := by
  refine ⟨⟨trimChars text.toList, isCoreOf_trimChars _, ?_⟩, ?_, parse_display⟩
  · intro outcome
    constructor
    · rintro rfl
      exact reads_parse text
    · exact parse_eq_of_reads
  · exact fun v value => ofAttribute?_eq_some_iff

example : parse " +1.007 " = .ok ⟨1, 7⟩ := by decide +kernel

example : parse "1.2.3" = .error (.component "2.3") := by decide +kernel

end Version
end FlowConfig
