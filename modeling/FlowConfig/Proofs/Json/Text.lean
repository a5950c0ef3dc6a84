import FlowConfig.Proofs.Json.Written
import FlowConfig.Proofs.Text.Utf8

/-!
# Reading strings

A string is read from every text in which it can be written, and a string that is skipped
is skipped as a whole.
-/

namespace FlowConfig
namespace Json

/-!
# Escapes
-/

theorem hexDigit?_of_hexDigit {b : UInt8} {n : Nat} (h : HexDigit b n) : hexDigit? b = some n := by
  have hnumeral : forall n, n < 10 -> hexDigit? (.ofNat (48 + n)) = some n := by decide
  have hsmall : forall n, n < 16 -> 10 ≤ n -> hexDigit? (.ofNat (87 + n)) = some n := by decide
  have hcapital : forall n, n < 16 -> 10 ≤ n -> hexDigit? (.ofNat (55 + n)) = some n := by decide
  cases h with
  | numeral hlt => exact hnumeral n hlt
  | small hle hlt => exact hsmall n hlt hle
  | capital hle hlt => exact hcapital n hlt hle

theorem readHex_of_hexNumber {digits : Bytes} {n : Nat} (h : HexNumber digits n) (rest : Bytes) :
    readHex (digits ++ rest) = .ok (n, rest) := by
  cases h with
  | digits ha hb hc hd =>
      simp only [List.cons_append, List.nil_append, readHex, hexDigit?_of_hexDigit ha,
        hexDigit?_of_hexDigit hb, hexDigit?_of_hexDigit hc, hexDigit?_of_hexDigit hd]

theorem shortEscape?_of_mem {letter : UInt8} {c : Char} (h : (letter, c) ∈ shortEscapes) :
    shortEscape? letter = some c := by
  have hall : forall e, e ∈ shortEscapes -> shortEscape? e.1 = some e.2 := by decide
  exact hall _ h

theorem shortEscape?_letterU : shortEscape? letterU = none := by
  decide

theorem not_surrogate (c : Char) : c.toNat < 0xD800 ∨ 0xDFFF < c.toNat := by
  rcases c.valid with h | h
  · exact .inl h
  · exact .inr h.left

theorem toNat_lt (c : Char) : c.toNat < 0x110000 := by
  rcases c.valid with h | h
  · exact Nat.lt_trans h (by decide)
  · exact h.right

theorem readEscapedNumber_of_number {c : Char} {digits : Bytes} (h : HexNumber digits c.toNat)
    (rest : Bytes) : readEscapedNumber (digits ++ rest) = .ok (c, rest) := by
  have hlow : isLowSurrogate c.toNat = false := by
    have hnot := not_surrogate c
    simp only [isLowSurrogate, Bool.and_eq_false_iff, decide_eq_false_iff_not]
    omega
  have hhigh : isHighSurrogate c.toNat = false := by
    have hnot := not_surrogate c
    simp only [isHighSurrogate, Bool.and_eq_false_iff, decide_eq_false_iff_not]
    omega
  rw [readEscapedNumber, readHex_of_hexNumber h]
  simp only [hlow, hhigh, Bool.false_eq_true, if_false, Char.ofNat_toNat]

theorem readEscapedNumber_of_surrogates {c : Char} {high low : Bytes} (hc : 0x10000 ≤ c.toNat)
    (hhigh : HexNumber high (0xD800 + (c.toNat - 0x10000) / 1024))
    (hlow : HexNumber low (0xDC00 + (c.toNat - 0x10000) % 1024)) (rest : Bytes) :
    readEscapedNumber (high ++ (Ascii.backslash :: letterU :: low ++ rest)) = .ok (c, rest) := by
  have hlt := toNat_lt c
  have hnotlow : isLowSurrogate (0xD800 + (c.toNat - 0x10000) / 1024) = false := by
    simp only [isLowSurrogate, Bool.and_eq_false_iff, decide_eq_false_iff_not]
    omega
  have hishigh : isHighSurrogate (0xD800 + (c.toNat - 0x10000) / 1024) = true := by
    simp only [isHighSurrogate, Bool.and_eq_true, decide_eq_true_eq]
    omega
  have hislow : isLowSurrogate (0xDC00 + (c.toNat - 0x10000) % 1024) = true := by
    simp only [isLowSurrogate, Bool.and_eq_true, decide_eq_true_eq]
    omega
  have hsecond : readLowSurrogate (Ascii.backslash :: letterU :: low ++ rest) =
      .ok (0xDC00 + (c.toNat - 0x10000) % 1024, rest) := by
    simp only [List.cons_append, readLowSurrogate, if_true, readHex_of_hexNumber hlow, hislow]
  have hvalue : (0xD800 + (c.toNat - 0x10000) / 1024 - 0xD800) * 1024 +
      (0xDC00 + (c.toNat - 0x10000) % 1024 - 0xDC00) + 0x10000 = c.toNat := by
    omega
  rw [readEscapedNumber, readHex_of_hexNumber hhigh]
  simp only [hnotlow, hishigh, Bool.false_eq_true, if_false, if_true, hsecond, hvalue,
    Char.ofNat_toNat]

theorem readEscape_of_short {letter : UInt8} {c : Char} (h : (letter, c) ∈ shortEscapes)
    (rest : Bytes) : readEscape (letter :: rest) = .ok (c, rest) := by
  simp only [readEscape, shortEscape?_of_mem h]

theorem skipEscape_of_short {letter : UInt8} {c : Char} (h : (letter, c) ∈ shortEscapes)
    (rest : Bytes) : skipEscape (letter :: rest) = .ok rest := by
  simp only [skipEscape, shortEscape?_of_mem h]

theorem readEscape_letterU (input : Bytes) :
    readEscape (letterU :: input) = readEscapedNumber input := by
  simp only [readEscape, shortEscape?_letterU, if_true]

theorem skipEscape_of_hexNumber {digits : Bytes} {n : Nat} (h : HexNumber digits n)
    (rest : Bytes) : skipEscape (letterU :: digits ++ rest) = .ok rest := by
  simp only [List.cons_append, skipEscape, shortEscape?_letterU, if_true, readHex_of_hexNumber h,
    Except.map]

/-!
# Bytes that stand for themselves
-/

def IsPlain (b : UInt8) : Prop :=
  b ≠ Ascii.doubleQuote ∧ b ≠ Ascii.backslash ∧ ¬ b < Ascii.space

theorem isPlain_of_mem_encodeChar {c : Char} (hspace : 32 ≤ c.toNat) (hquote : c ≠ '"')
    (hbackslash : c ≠ '\\') {b : UInt8} (h : b ∈ String.utf8EncodeChar c) : IsPlain b := by
  by_cases hascii : c.toNat < 128
  · rw [Utf8.encodeChar_ascii hascii, List.mem_singleton] at h
    have hb : b.toNat = c.toNat := by
      rw [h, Utf8.toNat_ofNat_of_lt (by omega)]
    have hne : forall d : Char, c ≠ d -> b.toNat ≠ d.toNat := by
      intro d hd heq
      exact hd (Char.toNat_inj.mp (hb.symm.trans heq))
    refine ⟨?_, ?_, ?_⟩
    · exact fun heq => hne '"' hquote (congrArg UInt8.toNat heq)
    · exact fun heq => hne '\\' hbackslash (congrArg UInt8.toNat heq)
    · rw [UInt8.lt_iff_toNat_lt, hb]
      exact Nat.not_lt_of_le hspace
  · have hle := Utf8.le_of_mem_encodeChar (Nat.le_of_not_lt hascii) h
    have hne : forall d : UInt8, d.toNat < 128 -> b ≠ d := by
      intro d hd heq
      rw [heq] at hle
      omega
    refine ⟨hne _ (by decide), hne _ (by decide), ?_⟩
    rw [UInt8.lt_iff_toNat_lt]
    exact Nat.not_lt_of_le (Nat.le_trans (by decide) hle)

section

variable {b : UInt8} {bytes : Bytes}

theorem textBytesFrom_cons (h : IsPlain b) (before rest : Bytes) :
    textBytesFrom before (b :: rest) = textBytesFrom (b :: before) rest := by
  rw [textBytesFrom, if_neg h.left, if_neg h.right.left, if_neg h.right.right]

theorem skipText_cons (h : IsPlain b) (rest : Bytes) : skipText (b :: rest) = skipText rest := by
  rw [skipText, if_neg h.left, if_neg h.right.left, if_neg h.right.right]

theorem textBytesFrom_append (h : forall b, b ∈ bytes -> IsPlain b) (before rest : Bytes) :
    textBytesFrom before (bytes ++ rest) = textBytesFrom (bytes.reverse ++ before) rest := by
  induction bytes generalizing before with
  | nil => rfl
  | cons b more ih =>
      rw [List.cons_append, textBytesFrom_cons (h b List.mem_cons_self),
        ih fun d hd => h d (List.mem_cons_of_mem b hd), List.reverse_cons, List.append_assoc,
        List.singleton_append]

theorem skipText_append (h : forall b, b ∈ bytes -> IsPlain b) (rest : Bytes) :
    skipText (bytes ++ rest) = skipText rest := by
  induction bytes with
  | nil => rfl
  | cons b more ih =>
      rw [List.cons_append, skipText_cons (h b List.mem_cons_self),
        ih fun d hd => h d (List.mem_cons_of_mem b hd)]

end

theorem textBytesFrom_escape {input rest : Bytes} {c : Char}
    (h : readEscape input = .ok (c, rest)) (before : Bytes) :
    textBytesFrom before (Ascii.backslash :: input) =
      textBytesFrom ((String.utf8EncodeChar c).reverse ++ before) rest := by
  rw [textBytesFrom, if_neg (by decide), if_pos rfl]
  split
  · next heq => cases h.symm.trans heq
  · next heq =>
      cases h.symm.trans heq
      rfl

theorem skipText_escape {input rest : Bytes} (h : skipEscape input = .ok rest) :
    skipText (Ascii.backslash :: input) = skipText rest := by
  rw [skipText, if_neg (by decide), if_pos rfl]
  split
  · next heq => cases h.symm.trans heq
  · next heq =>
      cases h.symm.trans heq
      rfl

/-!
# Whole strings
-/

theorem textBytesFrom_of_writtenChar {c : Char} {first : Bytes} (h : WrittenChar c first)
    (before rest : Bytes) :
    textBytesFrom before (first ++ rest) =
      textBytesFrom ((String.utf8EncodeChar c).reverse ++ before) rest := by
  cases h with
  | plain hspace hquote hbackslash =>
      exact textBytesFrom_append
        (fun _ hb => isPlain_of_mem_encodeChar hspace hquote hbackslash hb) before rest
  | short hshort => exact textBytesFrom_escape (readEscape_of_short hshort rest) before
  | number hdigits =>
      apply textBytesFrom_escape
      exact (readEscape_letterU _).trans (readEscapedNumber_of_number hdigits rest)
  | @surrogates _ high low hc hhigh hlow =>
      rw [List.cons_append, List.cons_append, List.append_assoc]
      apply textBytesFrom_escape
      exact (readEscape_letterU _).trans (readEscapedNumber_of_surrogates hc hhigh hlow rest)

theorem skipText_of_writtenChar {c : Char} {first : Bytes} (h : WrittenChar c first)
    (rest : Bytes) : skipText (first ++ rest) = skipText rest := by
  cases h with
  | plain hspace hquote hbackslash =>
      exact skipText_append
        (fun _ hb => isPlain_of_mem_encodeChar hspace hquote hbackslash hb) rest
  | short hshort => exact skipText_escape (skipEscape_of_short hshort rest)
  | number hdigits => exact skipText_escape (skipEscape_of_hexNumber hdigits rest)
  | @surrogates _ high low hc hhigh hlow =>
      have hsecond : skipText (Ascii.backslash :: letterU :: low ++ rest) = skipText rest :=
        skipText_escape (skipEscape_of_hexNumber hlow rest)
      rw [← hsecond, List.cons_append, List.cons_append, List.append_assoc]
      exact skipText_escape (skipEscape_of_hexNumber hhigh _)

theorem textBytesFrom_of_writtenChars {cs : List Char} {content : Bytes}
    (h : WrittenChars cs content) (before rest : Bytes) :
    textBytesFrom before (content ++ Ascii.doubleQuote :: rest) =
      .ok (before.reverse ++ Utf8.encode cs, rest) := by
  induction h generalizing before with
  | nil =>
      rw [List.nil_append, textBytesFrom, if_pos rfl, Utf8.encode_nil, List.append_nil]
  | cons hfirst _ ih =>
      rw [List.append_assoc, textBytesFrom_of_writtenChar hfirst, ih, Utf8.encode_cons,
        List.reverse_append, List.reverse_reverse, List.append_assoc]

theorem skipText_of_writtenChars {cs : List Char} {content : Bytes}
    (h : WrittenChars cs content) (rest : Bytes) :
    skipText (content ++ Ascii.doubleQuote :: rest) = .ok rest := by
  induction h with
  | nil => rw [List.nil_append, skipText, if_pos rfl]
  | cons hfirst _ ih => rw [List.append_assoc, skipText_of_writtenChar hfirst, ih]

theorem readText_of_writtenText {s : String} {text : Bytes} (h : WrittenText s text) :
    exists content, text = Ascii.doubleQuote :: content ∧ forall rest,
      readText (content ++ rest) = .ok (s, rest) ∧ skipText (content ++ rest) = .ok rest := by
  cases h with
  | @quoted content hchars =>
      refine ⟨content ++ [Ascii.doubleQuote], rfl, ?_⟩
      intro rest
      rw [List.append_assoc, List.singleton_append]
      refine ⟨?_, skipText_of_writtenChars hchars rest⟩
      rw [readText, textBytesFrom_of_writtenChars hchars]
      simp only [List.reverse_nil, List.nil_append, Utf8.decodeString_encode]

def needsNoEscape (c : Char) : Bool :=
  32 ≤ c.toNat ∧ c ≠ '"' ∧ c ≠ '\\'

theorem writtenChars_encode {cs : List Char} (h : cs.all needsNoEscape = true) :
    WrittenChars cs (Utf8.encode cs) := by
  induction cs with
  | nil => exact .nil
  | cons c rest ih =>
      rcases Bool.and_eq_true_iff.mp (List.all_cons ▸ h) with ⟨hfirst, hrest⟩
      rcases of_decide_eq_true hfirst with ⟨hspace, hquote, hbackslash⟩
      rw [Utf8.encode_cons]
      exact .cons (.plain hspace hquote hbackslash) (ih hrest)

theorem writtenText_encode {s : String} (h : s.toList.all needsNoEscape = true) :
    WrittenText s (Ascii.doubleQuote :: Utf8.encode s.toList ++ [Ascii.doubleQuote]) :=
  .quoted (writtenChars_encode h)

end Json
end FlowConfig
