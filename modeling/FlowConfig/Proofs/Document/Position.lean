import FlowConfig.Issue
import Mathlib.Data.List.Induction

/-!
# Lines and columns

A position tells how many full lines stand in front of an offset, and how many bytes lie
between them and the offset.  A text and a position determine the offset and a text and
an offset the position, and positions grow with the offset up to the end of the text.
-/

namespace FlowConfig

open Ascii

/-!
# Counting
-/

def lastLine (bytes : Bytes) : Bytes :=
  (bytes.reverse.takeWhile fun b => b != lineFeed).reverse

theorem lastLine_concat (bytes : Bytes) (b : UInt8) :
    lastLine (bytes ++ [b]) = if b == lineFeed then [] else lastLine bytes ++ [b] := by
  rw [lastLine, List.reverse_append, List.reverse_singleton, List.singleton_append,
    List.takeWhile_cons]
  cases hb : b == lineFeed with
  | true => simp [bne, hb]
  | false => simp [bne, hb, lastLine]

/-- A position counts the line feeds in front of it, and the bytes behind the last of
them. -/
theorem foldl_advance_eq (before : Bytes) :
    before.foldl Position.advance Position.start =
      ⟨before.count lineFeed + 1, (lastLine before).length + 1⟩ := by
  induction before using List.reverseRecOn with
  | nil => rfl
  | append_singleton init b ih =>
      rw [List.foldl_append, ih, List.foldl_cons, List.foldl_nil, Position.advance,
        lastLine_concat, List.count_append, List.count_singleton]
      cases b == lineFeed with
      | true => rfl
      | false =>
          simp only [Bool.false_eq_true, if_false, List.length_append, List.length_singleton,
            Nat.add_zero]

/-!
# Full lines
-/

def IsFullLine (line : Bytes) : Prop :=
  exists body, line = body ++ [lineFeed] ∧ lineFeed ∉ body

/-- A position and the offset it is at: the text begins with the full lines in front, then
there are the bytes between them and the offset, no line feed among them, and the offset is
the length of both together. -/
inductive Position.IsAt (input : Bytes) : Position -> Nat -> Prop where
  | intro {lines : List Bytes} {between rest : Bytes} :
      input = lines.flatten ++ between ++ rest ->
      (forall line, line ∈ lines -> IsFullLine line) -> lineFeed ∉ between ->
      IsAt input ⟨lines.length + 1, between.length + 1⟩ (lines.flatten.length + between.length)

/-- What is behind the last line feed of a text follows on full lines. -/
theorem exists_lines (before : Bytes) :
    exists lines : List Bytes, before = lines.flatten ++ lastLine before ∧
      (forall line, line ∈ lines -> IsFullLine line) ∧ lineFeed ∉ lastLine before := by
  induction before using List.reverseRecOn with
  | nil => exact ⟨[], rfl, List.forall_mem_nil _, List.not_mem_nil⟩
  | append_singleton init b ih =>
      rcases ih with ⟨lines, hinit, hlines, hlast⟩
      rw [lastLine_concat]
      -- A line feed completes the line that is open, and any other byte extends it.
      cases hb : b == lineFeed with
      | true =>
          refine ⟨lines ++ [lastLine init ++ [b]], ?_, ?_, List.not_mem_nil⟩
          · rw [if_pos rfl, List.append_nil, List.flatten_append, List.flatten_singleton,
              ← List.append_assoc, ← hinit]
          · refine List.forall_mem_append.mpr ⟨hlines, ?_⟩
            rw [List.forall_mem_singleton, beq_iff_eq.mp hb]
            exact ⟨lastLine init, rfl, hlast⟩
      | false =>
          refine ⟨lines, ?_, hlines, ?_⟩
          · rw [if_neg Bool.false_ne_true, ← List.append_assoc, ← hinit]
          · rw [if_neg Bool.false_ne_true, List.mem_append, List.mem_singleton, not_or]
            exact ⟨hlast, fun heq => by simp [← heq] at hb⟩

variable {lines : List Bytes} {between : Bytes}

theorem count_flatten_lines (h : forall line, line ∈ lines -> IsFullLine line) :
    lines.flatten.count lineFeed = lines.length := by
  induction lines with
  | nil => rfl
  | cons line rest ih =>
      rcases List.forall_mem_cons.mp h with ⟨⟨body, hline, hbody⟩, hrest⟩
      rw [List.flatten_cons, List.count_append, ih hrest, hline, List.count_append,
        List.count_eq_zero.mpr hbody, List.count_singleton_self, List.length_cons]
      omega

theorem lastLine_flatten_lines (h : forall line, line ∈ lines -> IsFullLine line) :
    lastLine lines.flatten = [] := by
  cases lines using List.reverseRecOn with
  | nil => rfl
  | append_singleton init line =>
      rcases h line (List.mem_append_right _ (List.mem_singleton_self line)) with
        ⟨body, hline, _⟩
      rw [List.flatten_append, List.flatten_singleton, hline, ← List.append_assoc,
        lastLine_concat]
      rfl

theorem lastLine_append (before : Bytes) (h : lineFeed ∉ between) :
    lastLine (before ++ between) = lastLine before ++ between := by
  induction between using List.reverseRecOn with
  | nil => rw [List.append_nil, List.append_nil]
  | append_singleton init b ih =>
      rw [List.mem_append, List.mem_singleton, not_or] at h
      have hb : (b == lineFeed) = false := beq_eq_false_iff_ne.mpr (Ne.symm h.right)
      rw [← List.append_assoc, lastLine_concat, hb, if_neg Bool.false_ne_true, ih h.left,
        List.append_assoc]

/-- An offset within the text is at the position it is located at, and at no other one. -/
theorem isAt_iff {input : Bytes} {offset : Nat} {p : Position} :
    p.IsAt input offset <-> offset ≤ input.length ∧ locate input offset = p := by
  constructor
  · intro h
    cases h with
    | intro hinput hlines hbetween =>
        rename_i lines between rest
        rw [← List.length_append]
        constructor
        · rw [hinput]
          exact (List.prefix_append _ _).length_le
        · rw [locate, hinput, List.take_left, foldl_advance_eq, List.count_append,
            count_flatten_lines hlines, List.count_eq_zero.mpr hbetween,
            lastLine_append _ hbetween, lastLine_flatten_lines hlines]
          rfl
  · rintro ⟨hle, rfl⟩
    rcases exists_lines (input.take offset) with ⟨lines, hbefore, hlines, hlast⟩
    have hinput : input = lines.flatten ++ lastLine (input.take offset) ++ input.drop offset := by
      rw [← hbefore, List.take_append_drop]
    have hcount : (input.take offset).count lineFeed = lines.length := by
      rw [hbefore, List.count_append, count_flatten_lines hlines, List.count_eq_zero.mpr hlast]
      rfl
    have hoffset : lines.flatten.length + (lastLine (input.take offset)).length = offset := by
      rw [← List.length_append, ← hbefore, List.length_take]
      exact Nat.min_eq_left hle
    have hat := Position.IsAt.intro hinput hlines hlast
    rw [hoffset, ← hcount, ← foldl_advance_eq] at hat
    exact hat

/-!
# The order of positions
-/

namespace Position

def Precedes (p q : Position) : Prop :=
  p.line < q.line ∨ p.line = q.line ∧ p.column < q.column

variable {p q r : Position}

theorem Precedes.trans (hpq : p.Precedes q) (hqr : q.Precedes r) : p.Precedes r := by
  unfold Precedes at *
  omega

theorem Precedes.asymm (h : p.Precedes q) : ¬ q.Precedes p := by
  unfold Precedes at *
  omega

theorem precedes_advance (p : Position) (b : UInt8) : p.Precedes (p.advance b) := by
  unfold advance Precedes
  split
  · exact Or.inl (Nat.lt_succ_self _)
  · exact Or.inr ⟨rfl, Nat.lt_succ_self _⟩

theorem precedes_foldl_advance (p : Position) {bytes : Bytes} (h : bytes ≠ []) :
    p.Precedes (bytes.foldl advance p) := by
  induction bytes generalizing p with
  | nil => exact absurd rfl h
  | cons b rest ih =>
      rw [List.foldl_cons]
      by_cases hrest : rest = []
      · rw [hrest]
        exact precedes_advance p b
      · exact (precedes_advance p b).trans (ih _ hrest)

end Position

variable {input : Bytes} {a b : Nat}

theorem locate_of_length_le {offset : Nat} (h : input.length ≤ offset) :
    locate input offset = locate input input.length := by
  rw [locate, locate, List.take_of_length_le h, List.take_length]

theorem locate_precedes_of_lt (h : a < b) (ha : a < input.length) :
    (locate input a).Precedes (locate input b) := by
  have hsplit : input.take b = input.take a ++ (input.drop a).take (b - a) := by
    rw [← List.take_add, Nat.add_sub_cancel' (Nat.le_of_lt h)]
  have hne : (input.drop a).take (b - a) ≠ [] := by
    apply List.ne_nil_of_length_pos
    rw [List.length_take, List.length_drop]
    omega
  rw [locate, locate, hsplit, List.foldl_append]
  exact Position.precedes_foldl_advance _ hne

theorem locate_precedes_iff :
    (locate input a).Precedes (locate input b) <-> a < b ∧ a < input.length := by
  constructor
  · intro h
    by_contra hnot
    have hcases : b < a ∧ b < input.length ∨ a = b ∨ input.length ≤ a ∧ input.length ≤ b := by
      omega
    rcases hcases with ⟨hba, hb⟩ | rfl | ⟨ha, hb⟩
    · exact h.asymm (locate_precedes_of_lt hba hb)
    · exact h.asymm h
    · rw [locate_of_length_le ha, locate_of_length_le hb] at h
      exact h.asymm h
  · rintro ⟨h, ha⟩
    exact locate_precedes_of_lt h ha

theorem offset_eq_of_isAt {p : Position} (ha : p.IsAt input a) (hb : p.IsAt input b) :
    a = b := by
  rcases isAt_iff.mp ha with ⟨hale, hpa⟩
  rcases isAt_iff.mp hb with ⟨hble, hpb⟩
  by_contra hne
  rcases Nat.lt_or_gt_of_ne hne with hlt | hgt
  · have h := locate_precedes_of_lt hlt (Nat.lt_of_lt_of_le hlt hble)
    rw [hpa, hpb] at h
    exact h.asymm h
  · have h := locate_precedes_of_lt hgt (Nat.lt_of_lt_of_le hgt hale)
    rw [hpa, hpb] at h
    exact h.asymm h

/-- Every offset of a text is at the position it is located at and at no other one, and a
position is at one offset at most.  Positions grow with the offset, and all offsets behind
the end are located there. -/
theorem locate_is_exact (input : Bytes) :
    (forall offset p, p.IsAt input offset <-> offset ≤ input.length ∧ locate input offset = p) ∧
    (forall (p : Position) a b, p.IsAt input a -> p.IsAt input b -> a = b) ∧
    (forall a b, (locate input a).Precedes (locate input b) <-> a < b ∧ a < input.length) ∧
    forall offset, input.length ≤ offset -> locate input offset = locate input input.length :=
  ⟨fun _ _ => isAt_iff, fun _ _ _ => offset_eq_of_isAt, fun _ _ => locate_precedes_iff,
    fun _ => locate_of_length_le⟩

example : locate (Bytes.ofString "<a>\n  <b/>\n</a>") 6 = ⟨2, 3⟩ := by decide +kernel

end FlowConfig
