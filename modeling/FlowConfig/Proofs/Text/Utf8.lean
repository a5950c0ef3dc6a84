import FlowConfig.Text.Utf8

/-!
# Encoding and decoding

Every text is read back from its encoding.  The encoding of a character that is
not ASCII has no ASCII bytes, so bytes that carry meaning in markup are found in
an encoded text only where the text has the characters.
-/

namespace FlowConfig
namespace Utf8

/-!
# One character
-/

theorem toNat_ofNat_of_lt {n : Nat} (h : n < 256) : (UInt8.ofNat n).toNat = n :=
  UInt8.toNat_ofNat_of_lt' h

theorem lead?_two : forall n, n < 256 -> 0xC2 ≤ n -> n < 0xE0 ->
    lead? (UInt8.ofNat n) = some ⟨1, 0x80, 0xBF⟩ := by
  decide +kernel

theorem lead?_three : forall n, n < 256 -> 0xE0 ≤ n -> n < 0xF0 ->
    lead? (UInt8.ofNat n) =
      some ⟨2, if n = 0xE0 then 0xA0 else 0x80, if n = 0xED then 0x9F else 0xBF⟩ := by
  decide +kernel

theorem lead?_four : forall n, n < 256 -> 0xF0 ≤ n -> n ≤ 0xF4 ->
    lead? (UInt8.ofNat n) =
      some ⟨3, if n = 0xF0 then 0x90 else 0x80, if n = 0xF4 then 0x8F else 0xBF⟩ := by
  decide +kernel

theorem isTail_ofNat {n : Nat} (h : 128 ≤ n) (h' : n < 192) : isTail (UInt8.ofNat n) = true := by
  have hn := toNat_ofNat_of_lt (Nat.lt_trans h' (by decide : 192 < 256))
  simp only [isTail, Bool.and_eq_true, decide_eq_true_eq, UInt8.le_iff_toNat_le, hn]
  exact ⟨h, Nat.le_of_lt_succ h'⟩

theorem low6_ofNat {n : Nat} (h : n < 256) : low6 (UInt8.ofNat n) = n % 64 := by
  rw [low6, toNat_ofNat_of_lt h]

theorem le_ofNat_iff {n : Nat} (h : n < 256) (b : UInt8) :
    b ≤ UInt8.ofNat n <-> b.toNat ≤ n := by
  rw [UInt8.le_iff_toNat_le, toNat_ofNat_of_lt h]

theorem ofNat_le_iff {n : Nat} (h : n < 256) (b : UInt8) :
    UInt8.ofNat n ≤ b <-> n ≤ b.toNat := by
  rw [UInt8.le_iff_toNat_le, toNat_ofNat_of_lt h]

theorem readSequence_two {a b : Nat} (ha : 0xC2 ≤ a) (ha' : a < 0xE0) (hb : 128 ≤ b)
    (hb' : b < 192) (rest : Bytes) :
    readSequence (.ofNat a) (.ofNat b :: rest) =
      .char (Char.ofNat (a % 32 * 64 + b % 64)) 1 := by
  have hrange : (0x80 ≤ UInt8.ofNat b && UInt8.ofNat b ≤ 0xBF) = true := by
    rw [Bool.and_eq_true, decide_eq_true_iff, decide_eq_true_iff, le_ofNat_iff (by omega),
      ofNat_le_iff (by omega)]
    exact ⟨hb, Nat.le_of_lt_succ hb'⟩
  rw [readSequence, lead?_two a (by omega) ha ha']
  simp only [hrange, if_true]
  rw [toNat_ofNat_of_lt (by omega), low6_ofNat (by omega)]
  rfl

theorem readSequence_three {a b c : Nat} (ha : 0xE0 ≤ a) (ha' : a < 0xF0) (hb : 128 ≤ b)
    (hb' : b < 192) (hlow : a = 0xE0 -> 0xA0 ≤ b) (hhigh : a = 0xED -> b ≤ 0x9F)
    (hc : 128 ≤ c) (hc' : c < 192) (rest : Bytes) :
    readSequence (.ofNat a) (.ofNat b :: .ofNat c :: rest) =
      .char (Char.ofNat ((a % 16 * 64 + b % 64) * 64 + c % 64)) 2 := by
  have hrange : ((if a = 0xE0 then 0xA0 else 0x80) ≤ UInt8.ofNat b &&
      UInt8.ofNat b ≤ if a = 0xED then 0x9F else 0xBF) = true := by
    rw [Bool.and_eq_true, decide_eq_true_iff, decide_eq_true_iff, le_ofNat_iff (by omega),
      ofNat_le_iff (by omega)]
    constructor
    · split
      · next h => exact hlow h
      · exact hb
    · split
      · next h => exact hhigh h
      · exact Nat.le_of_lt_succ hb'
  rw [readSequence, lead?_three a (by omega) ha ha']
  simp only [hrange, if_true, isTail_ofNat hc hc']
  rw [toNat_ofNat_of_lt (by omega), low6_ofNat (by omega), low6_ofNat (by omega)]
  rfl

theorem readSequence_four {a b c d : Nat} (ha : 0xF0 ≤ a) (ha' : a ≤ 0xF4) (hb : 128 ≤ b)
    (hb' : b < 192) (hlow : a = 0xF0 -> 0x90 ≤ b) (hhigh : a = 0xF4 -> b ≤ 0x8F)
    (hc : 128 ≤ c) (hc' : c < 192) (hd : 128 ≤ d) (hd' : d < 192) (rest : Bytes) :
    readSequence (.ofNat a) (.ofNat b :: .ofNat c :: .ofNat d :: rest) =
      .char (Char.ofNat (((a % 8 * 64 + b % 64) * 64 + c % 64) * 64 + d % 64)) 3 := by
  have hrange : ((if a = 0xF0 then 0x90 else 0x80) ≤ UInt8.ofNat b &&
      UInt8.ofNat b ≤ if a = 0xF4 then 0x8F else 0xBF) = true := by
    rw [Bool.and_eq_true, decide_eq_true_iff, decide_eq_true_iff, le_ofNat_iff (by omega),
      ofNat_le_iff (by omega)]
    constructor
    · split
      · next h => exact hlow h
      · exact hb
    · split
      · next h => exact hhigh h
      · exact Nat.le_of_lt_succ hb'
  rw [readSequence, lead?_four a (by omega) ha ha']
  simp only [hrange, if_true, isTail_ofNat hc hc', isTail_ofNat hd hd']
  rw [toNat_ofNat_of_lt (by omega), low6_ofNat (by omega), low6_ofNat (by omega),
    low6_ofNat (by omega)]
  rfl

theorem readChar_of_not_ascii {n : Nat} (h : 128 ≤ n) (h' : n < 256) (rest : Bytes) :
    readChar (.ofNat n) rest = readSequence (.ofNat n) rest := by
  rw [readChar, if_neg]
  rw [UInt8.lt_iff_toNat_lt, toNat_ofNat_of_lt h']
  exact Nat.not_lt_of_le h

theorem encodeChar_ascii {c : Char} (h : c.toNat < 128) :
    String.utf8EncodeChar c = [UInt8.ofNat c.toNat] :=
  if_pos (Nat.le_of_lt_succ h)

theorem exists_readChar (c : Char) : exists a tails,
    String.utf8EncodeChar c = a :: tails ∧
      forall rest, readChar a (tails ++ rest) = .char c tails.length := by
  have hchar : Char.ofNat c.val.toNat = c := Char.ofNat_toNat c
  have hsurrogate : c.val.toNat < 0xD800 ∨ 0xDFFF < c.val.toNat := by
    rcases c.valid with h | h
    · exact .inl h
    · exact .inr h.left
  have hbound : c.val.toNat < 0x110000 := by
    rcases c.valid with h | h
    · exact Nat.lt_trans h (by decide)
    · exact h.right
  rw [String.utf8EncodeChar]
  generalize c.val.toNat = v at hchar hsurrogate hbound
  split
  · refine ⟨_, _, rfl, ?_⟩
    intro rest
    have hlt : UInt8.ofNat v < 0x80 := by
      rw [UInt8.lt_iff_toNat_lt, toNat_ofNat_of_lt (by omega)]
      exact Nat.lt_succ_of_le ‹v ≤ 127›
    rw [readChar, if_pos hlt, toNat_ofNat_of_lt (by omega), hchar]
    rfl
  · split
    · refine ⟨_, _, rfl, ?_⟩
      intro rest
      have hvalue : (v / 64 % 32 + 192) % 32 * 64 + (v % 64 + 128) % 64 = v := by omega
      rw [readChar_of_not_ascii (by omega) (by omega), List.singleton_append,
        readSequence_two (by omega) (by omega) (by omega) (by omega), hvalue, hchar]
      rfl
    · split
      · refine ⟨_, _, rfl, ?_⟩
        intro rest
        have hvalue : ((v / 4096 % 16 + 224) % 16 * 64 + (v / 64 % 64 + 128) % 64) * 64 +
            (v % 64 + 128) % 64 = v := by omega
        rw [readChar_of_not_ascii (by omega) (by omega), List.cons_append, List.singleton_append,
          readSequence_three (by omega) (by omega) (by omega) (by omega) (by omega) (by omega)
            (by omega) (by omega), hvalue, hchar]
        rfl
      · refine ⟨_, _, rfl, ?_⟩
        intro rest
        have hvalue : (((v / 262144 % 8 + 240) % 8 * 64 + (v / 4096 % 64 + 128) % 64) * 64 +
            (v / 64 % 64 + 128) % 64) * 64 + (v % 64 + 128) % 64 = v := by omega
        rw [readChar_of_not_ascii (by omega) (by omega), List.cons_append, List.cons_append,
          List.singleton_append,
          readSequence_four (by omega) (by omega) (by omega) (by omega) (by omega) (by omega)
            (by omega) (by omega) (by omega) (by omega), hvalue, hchar]
        rfl

/-!
# Whole texts
-/

@[simp] theorem encode_nil : encode [] = [] := rfl

@[simp] theorem encode_cons (c : Char) (cs : List Char) :
    encode (c :: cs) = String.utf8EncodeChar c ++ encode cs := rfl

theorem decodeFrom_encode (index : Nat) (before cs : List Char) :
    decodeFrom index before (encode cs) = .ok (before.reverse ++ cs) := by
  induction cs generalizing index before with
  | nil => rw [encode_nil, decodeFrom, List.append_nil]
  | cons c rest ih =>
      rcases exists_readChar c with ⟨a, tails, hbytes, hread⟩
      rw [encode_cons, hbytes, List.cons_append, decodeFrom, hread]
      simp only [List.drop_left, ih, List.reverse_cons, List.append_assoc, List.singleton_append]

theorem decode_encode (cs : List Char) : decode (encode cs) = .ok cs :=
  decodeFrom_encode 0 [] cs

theorem encode_injective {cs ds : List Char} (h : encode cs = encode ds) : cs = ds := by
  have hdecode := congrArg decode h
  rw [decode_encode, decode_encode] at hdecode
  exact Except.ok.inj hdecode

theorem decodeString_encode (s : String) : decodeString (encode s.toList) = .ok s := by
  rw [decodeString, decode_encode]
  exact congrArg Except.ok String.ofList_toList

/-!
# ASCII bytes
-/

theorem le_of_mem_encodeChar {c : Char} (hc : 128 ≤ c.toNat) {b : UInt8}
    (h : b ∈ String.utf8EncodeChar c) : 128 ≤ b.toNat := by
  have hbyte : forall n, 128 ≤ n -> n < 256 -> b = UInt8.ofNat n -> 128 ≤ b.toNat := by
    intro n hn hlt heq
    rw [heq, toNat_ofNat_of_lt hlt]
    exact hn
  have hone : ¬ c.val.toNat ≤ 127 := Nat.not_le_of_lt hc
  rw [String.utf8EncodeChar] at h
  generalize c.val.toNat = v at hone h
  rw [if_neg hone] at h
  split at h
  · simp only [List.mem_cons, List.not_mem_nil, or_false] at h
    rcases h with h | h
    · exact hbyte _ (by omega) (by omega) h
    · exact hbyte _ (by omega) (by omega) h
  · split at h
    · simp only [List.mem_cons, List.not_mem_nil, or_false] at h
      rcases h with h | h | h
      · exact hbyte _ (by omega) (by omega) h
      · exact hbyte _ (by omega) (by omega) h
      · exact hbyte _ (by omega) (by omega) h
    · simp only [List.mem_cons, List.not_mem_nil, or_false] at h
      rcases h with h | h | h | h
      · exact hbyte _ (by omega) (by omega) h
      · exact hbyte _ (by omega) (by omega) h
      · exact hbyte _ (by omega) (by omega) h
      · exact hbyte _ (by omega) (by omega) h

theorem exists_mem_of_mem_encode {cs : List Char} {b : UInt8} (h : b ∈ encode cs)
    (hb : b.toNat < 128) : exists c, c ∈ cs ∧ c.toNat = b.toNat := by
  rcases List.mem_flatMap.mp h with ⟨c, hc, hbyte⟩
  refine ⟨c, hc, ?_⟩
  by_cases hascii : c.toNat < 128
  · rw [encodeChar_ascii hascii, List.mem_singleton] at hbyte
    rw [hbyte, toNat_ofNat_of_lt (by omega)]
  · exact absurd hb (Nat.not_lt_of_le (le_of_mem_encodeChar (Nat.le_of_not_lt hascii) hbyte))

end Utf8
end FlowConfig
