import FlowConfig.Text.Numeral
import Mathlib.Data.List.TakeWhile

/-!
# Parts of a text

What is left of a text without the blanks around it, and what stands on both sides of
the first mark in it.  Each is told here from the whole text, without the scan that
finds it.
-/

namespace FlowConfig
namespace Text

/-!
# Surrounding blanks
-/

variable {cs core before after : List Char}

def AllBlank (cs : List Char) : Prop :=
  forall c, c ∈ cs -> isBlank c = true

/-- The text without the blanks around it: nothing but blanks was in front of it and
behind it, and it has none at either end. -/
structure IsCoreOf (cs core : List Char) : Prop where
  exists_around : exists before after,
    cs = before ++ core ++ after ∧ AllBlank before ∧ AllBlank after
  first : forall c, core.head? = some c -> isBlank c = false
  last : forall c, core.getLast? = some c -> isBlank c = false

theorem isBlank_of_isAsciiDigit {c : Char} (h : isAsciiDigit c = true) :
    isBlank c = false := by
  rw [isAsciiDigit, Bool.and_eq_true, decide_eq_true_iff, decide_eq_true_iff] at h
  have hzero : 48 ≤ c.toNat := h.left
  have hnine : c.toNat ≤ 57 := h.right
  simp [isBlank]
  omega

theorem isCoreOf_self (h : forall c, c ∈ cs -> isBlank c = false) : IsCoreOf cs cs where
  exists_around := ⟨[], [], by simp, List.forall_mem_nil _, List.forall_mem_nil _⟩
  first := fun c hc => h c (List.mem_of_head? hc)
  last := fun c hc => h c (List.mem_of_getLast? hc)

theorem exists_append_dropBlanks (cs : List Char) :
    exists before, cs = before ++ dropBlanks cs ∧ AllBlank before :=
  ⟨cs.takeWhile isBlank, List.takeWhile_append_dropWhile.symm,
    fun _ => List.mem_takeWhile_imp⟩

theorem isBlank_of_head?_dropBlanks {c : Char} (h : (dropBlanks cs).head? = some c) :
    isBlank c = false := by
  rcases List.head?_eq_some_iff.mp h with ⟨rest, hrest⟩
  exact isBlank_of_head_dropBlanks hrest

theorem dropBlanks_append (h : AllBlank before) (cs : List Char) :
    dropBlanks (before ++ cs) = dropBlanks cs :=
  List.dropWhile_append_of_pos h

theorem dropBlanks_eq_self (h : forall c, cs.head? = some c -> isBlank c = false) :
    dropBlanks cs = cs := by
  cases cs with
  | nil => rfl
  | cons c rest => simp [dropBlanks, h c rfl]

theorem isCoreOf_trimChars (cs : List Char) : IsCoreOf cs (trimChars cs) := by
  rcases exists_append_dropBlanks cs with ⟨before, hcs, hbefore⟩
  rcases exists_append_dropBlanks (dropBlanks cs).reverse with ⟨ending, hrest, hending⟩
  -- The second pass runs from the end, so what it drops stands behind the core.
  have hdrop : dropBlanks cs = trimChars cs ++ ending.reverse := by
    rw [← List.reverse_reverse (dropBlanks cs), hrest, List.reverse_append]
    rfl
  constructor
  · refine ⟨before, ending.reverse, ?_, hbefore, ?_⟩
    · rw [List.append_assoc, ← hdrop]
      exact hcs
    · exact fun c hc => hending c (List.mem_reverse.mp hc)
  · intro c hc
    have hhead : (dropBlanks cs).head? = some c := by
      rw [hdrop, List.head?_append, hc]
      rfl
    exact isBlank_of_head?_dropBlanks hhead
  · intro c hc
    rw [trimChars, List.getLast?_reverse] at hc
    exact isBlank_of_head?_dropBlanks hc

theorem IsCoreOf.surround (h : IsCoreOf cs core) (hbefore : AllBlank before)
    (hafter : AllBlank after) : IsCoreOf (before ++ cs ++ after) core := by
  rcases h.exists_around with ⟨first, last, rfl, hfirst, hlast⟩
  constructor
  · refine ⟨before ++ first, last ++ after, ?_, ?_, ?_⟩
    · simp only [List.append_assoc]
    · exact List.forall_mem_append.mpr ⟨hbefore, hfirst⟩
    · exact List.forall_mem_append.mpr ⟨hlast, hafter⟩
  · exact h.first
  · exact h.last

theorem trimChars_eq_of_isCoreOf (h : IsCoreOf cs core) : trimChars cs = core := by
  rcases h.exists_around with ⟨before, after, rfl, hbefore, hafter⟩
  rw [trimChars, List.append_assoc, dropBlanks_append hbefore]
  cases core with
  | nil =>
      rw [List.nil_append, (dropBlanks_eq_nil_iff after).mpr hafter]
      rfl
  | cons c rest =>
      have hhead : dropBlanks (c :: rest ++ after) = c :: rest ++ after :=
        dropBlanks_eq_self h.first
      have hlast : dropBlanks (c :: rest).reverse = (c :: rest).reverse :=
        dropBlanks_eq_self fun d hd => h.last d (List.head?_reverse ▸ hd)
      have hending : AllBlank after.reverse := fun d hd => hafter d (List.mem_reverse.mp hd)
      rw [hhead, List.reverse_append, dropBlanks_append hending, hlast, List.reverse_reverse]

theorem trimChars_surround (cs : List Char) (hbefore : AllBlank before)
    (hafter : AllBlank after) : trimChars (before ++ cs ++ after) = trimChars cs :=
  trimChars_eq_of_isCoreOf ((isCoreOf_trimChars cs).surround hbefore hafter)

/-!
# The first mark
-/

variable {mark : Char}

theorem splitOnce_eq_none_iff : splitOnce mark cs = none <-> mark ∉ cs := by
  induction cs with
  | nil => simp [splitOnce]
  | cons c rest ih =>
      by_cases h : c = mark
      · simp [splitOnce, h]
      · simp [splitOnce, h, ih, Ne.symm h]

theorem splitOnce_append (h : mark ∉ before) (after : List Char) :
    splitOnce mark (before ++ mark :: after) = some (before, after) := by
  induction before with
  | nil => rw [List.nil_append, splitOnce, if_pos rfl]
  | cons c rest ih =>
      rcases List.ne_and_not_mem_of_not_mem_cons h with ⟨hne, hrest⟩
      rw [List.cons_append, splitOnce, if_neg (Ne.symm hne), ih hrest, Option.map_some]

/-- The two parts are those around the first mark. -/
theorem splitOnce_eq_some_iff :
    splitOnce mark cs = some (before, after) <->
      cs = before ++ mark :: after ∧ mark ∉ before := by
  constructor
  · intro h
    induction cs generalizing before with
    | nil => cases h
    | cons c rest ih =>
        rw [splitOnce] at h
        split at h
        · next heq =>
            cases h
            rw [heq]
            exact ⟨rfl, List.not_mem_nil⟩
        · next hne =>
            rcases Option.map_eq_some_iff.mp h with ⟨⟨first, last⟩, hrest, heq⟩
            cases heq
            rcases ih hrest with ⟨happend, hfirst⟩
            rw [happend]
            exact ⟨rfl, List.not_mem_cons_of_ne_of_not_mem (Ne.symm hne) hfirst⟩
  · rintro ⟨rfl, h⟩
    exact splitOnce_append h after

end Text
end FlowConfig
