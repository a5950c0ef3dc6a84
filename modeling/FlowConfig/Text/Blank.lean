/-!
# Blank characters

The Unicode property White_Space, and trimming by it.  Names, class names and
typed values of a flow are compared with surrounding blanks removed; a text is
blank when it holds nothing else.
-/

namespace FlowConfig
namespace Text

def isBlank (c : Char) : Bool :=
  let n := c.toNat
  (9 ≤ n && n ≤ 13) || n == 0x20 || n == 0x85 || n == 0xA0 || n == 0x1680
    || (0x2000 ≤ n && n ≤ 0x200A) || n == 0x2028 || n == 0x2029 || n == 0x202F
    || n == 0x205F || n == 0x3000

/-!
# Trimming
-/

def dropBlanks (cs : List Char) : List Char :=
  cs.dropWhile isBlank

def trimChars (cs : List Char) : List Char :=
  (dropBlanks (dropBlanks cs).reverse).reverse

def trim (s : String) : String :=
  String.ofList (trimChars s.toList)

def allBlank (s : String) : Bool :=
  s.toList.all isBlank

@[simp] theorem trimChars_nil : trimChars [] = [] := rfl

theorem dropBlanks_eq_nil_iff (cs : List Char) :
    dropBlanks cs = [] <-> forall c, c ∈ cs -> isBlank c = true := by
  induction cs with
  | nil => simp [dropBlanks]
  | cons c rest ih =>
      cases hc : isBlank c with
      | true =>
          have hdrop : dropBlanks (c :: rest) = dropBlanks rest := by
            simp [dropBlanks, hc]
          rw [hdrop, ih]
          simp [hc]
      | false => simp [dropBlanks, hc]

theorem isBlank_of_head_dropBlanks {cs rest : List Char} {c : Char}
    (h : dropBlanks cs = c :: rest) :
    isBlank c = false := by
  induction cs with
  | nil => simp [dropBlanks] at h
  | cons d ds ih =>
      cases hd : isBlank d with
      | true => exact ih (by simpa [dropBlanks, hd] using h)
      | false =>
          simp [dropBlanks, hd] at h
          rw [← h.left]
          exact hd

theorem trimChars_eq_nil_iff (cs : List Char) :
    trimChars cs = [] <-> forall c, c ∈ cs -> isBlank c = true := by
  rw [← dropBlanks_eq_nil_iff]
  constructor
  · intro h
    have hrest : dropBlanks (dropBlanks cs).reverse = [] := by
      simpa [trimChars] using h
    rw [dropBlanks_eq_nil_iff] at hrest
    cases hdrop : dropBlanks cs with
    | nil => rfl
    | cons c rest =>
        have hblank : isBlank c = true := hrest c (by simp [hdrop])
        rw [isBlank_of_head_dropBlanks hdrop] at hblank
        cases hblank
  · intro h
    rw [trimChars, h]
    rfl

end Text
end FlowConfig
