import FlowConfig.Proofs.Text.Utf8

/-!
# Well-formed texts

Bytes are a text when they encode some characters.  The decoder accepts exactly
the texts: a character that it reads has the bytes it was read from for its
encoding.
-/

namespace FlowConfig
namespace Utf8

/-!
# One character
-/

theorem toNat_val_ofNat {n : Nat} (h : n.isValidChar) : (Char.ofNat n).val.toNat = n := by
  rw [Char.ofNat, dif_pos h]
  rfl

theorem encodeChar_two {v : Nat} (h : 0x80 ≤ v) (h' : v < 0x800) :
    String.utf8EncodeChar (Char.ofNat v) =
      [.ofNat (v / 64 % 32 + 192), .ofNat (v % 64 + 128)] := by
  rw [String.utf8EncodeChar, toNat_val_ofNat (Or.inl (by omega))]
  rw [if_neg (by omega), if_pos (by omega)]

theorem encodeChar_three {v : Nat} (h : 0x800 ≤ v) (h' : v < 0x10000)
    (hsurrogate : v < 0xD800 ∨ 0xDFFF < v) :
    String.utf8EncodeChar (Char.ofNat v) =
      [.ofNat (v / 4096 % 16 + 224), .ofNat (v / 64 % 64 + 128), .ofNat (v % 64 + 128)] := by
  have hvalid : v.isValidChar := by
    rcases hsurrogate with hlow | hhigh
    · exact Or.inl hlow
    · exact Or.inr ⟨hhigh, by omega⟩
  rw [String.utf8EncodeChar, toNat_val_ofNat hvalid]
  rw [if_neg (by omega), if_neg (by omega), if_pos (by omega)]

theorem encodeChar_four {v : Nat} (h : 0x10000 ≤ v) (h' : v < 0x110000) :
    String.utf8EncodeChar (Char.ofNat v) =
      [.ofNat (v / 262144 % 8 + 240), .ofNat (v / 4096 % 64 + 128), .ofNat (v / 64 % 64 + 128),
        .ofNat (v % 64 + 128)] := by
  rw [String.utf8EncodeChar, toNat_val_ofNat (Or.inr ⟨by omega, h'⟩)]
  rw [if_neg (by omega), if_neg (by omega), if_neg (by omega)]

theorem lead?_none : forall n, n < 256 -> n < 0xC2 ∨ 0xF4 < n ->
    lead? (UInt8.ofNat n) = none := by
  decide +kernel

theorem lead?_cases {a : UInt8} {l : Lead} (h : lead? a = some l) :
    (0xC2 ≤ a.toNat ∧ a.toNat < 0xE0 ∧ l = ⟨1, 0x80, 0xBF⟩) ∨
      (0xE0 ≤ a.toNat ∧ a.toNat < 0xF0 ∧
        l = ⟨2, if a.toNat = 0xE0 then 0xA0 else 0x80, if a.toNat = 0xED then 0x9F else 0xBF⟩) ∨
      (0xF0 ≤ a.toNat ∧ a.toNat ≤ 0xF4 ∧
        l = ⟨3, if a.toNat = 0xF0 then 0x90 else 0x80,
          if a.toNat = 0xF4 then 0x8F else 0xBF⟩) := by
  have hlt : a.toNat < 256 := a.toNat_lt
  rw [← UInt8.ofNat_toNat (x := a)] at h
  generalize a.toNat = n at h hlt
  by_cases hnone : n < 0xC2 ∨ 0xF4 < n
  · rw [lead?_none n hlt hnone] at h
    cases h
  · by_cases htwo : n < 0xE0
    · rw [lead?_two n hlt (by omega) htwo] at h
      exact Or.inl ⟨by omega, htwo, (Option.some.inj h).symm⟩
    · by_cases hthree : n < 0xF0
      · rw [lead?_three n hlt (by omega) hthree] at h
        exact Or.inr (Or.inl ⟨by omega, hthree, (Option.some.inj h).symm⟩)
      · rw [lead?_four n hlt (by omega) (by omega)] at h
        exact Or.inr (Or.inr ⟨by omega, by omega, (Option.some.inj h).symm⟩)

theorem isTail_iff {b : UInt8} : isTail b = true <-> 128 ≤ b.toNat ∧ b.toNat < 192 := by
  rw [isTail, Bool.and_eq_true, decide_eq_true_iff, decide_eq_true_iff, UInt8.le_iff_toNat_le,
    UInt8.le_iff_toNat_le]
  exact and_congr Iff.rfl Nat.lt_succ_iff.symm

/-- What a sequence of bytes is read from: the second byte is in the range that the
first one announces, the others are tails. -/
theorem readSequence_cases {a : UInt8} {l : Lead} {rest : Bytes} {x : Char} {tails : Nat}
    (hlead : lead? a = some l) (h : readSequence a rest = .char x tails) :
    exists b more, rest = b :: more ∧ l.low ≤ b ∧ b ≤ l.high ∧
      ((l.tails = 1 ∧ tails = 1 ∧ x = Char.ofNat (a.toNat % 32 * 64 + low6 b)) ∨
        exists c more', more = c :: more' ∧ isTail c = true ∧
          ((l.tails = 2 ∧ tails = 2 ∧
              x = Char.ofNat ((a.toNat % 16 * 64 + low6 b) * 64 + low6 c)) ∨
            exists d after, more' = d :: after ∧ isTail d = true ∧ l.tails ≠ 1 ∧
              l.tails ≠ 2 ∧ tails = 3 ∧
              x = Char.ofNat (((a.toNat % 8 * 64 + low6 b) * 64 + low6 c) * 64 + low6 d))) := by
  rw [readSequence, hlead] at h
  cases rest with
  | nil => cases h
  | cons b more =>
      simp only [Bool.and_eq_true, decide_eq_true_iff, beq_iff_eq] at h
      split at h
      · next hrange =>
          refine ⟨b, more, rfl, hrange.left, hrange.right, ?_⟩
          split at h
          · next hone =>
              cases h
              exact Or.inl ⟨hone, rfl, rfl⟩
          · next hone =>
              cases more with
              | nil => cases h
              | cons c more' =>
                  simp only at h
                  split at h
                  · next hc =>
                      refine Or.inr ⟨c, more', rfl, hc, ?_⟩
                      split at h
                      · next htwo =>
                          cases h
                          exact Or.inl ⟨htwo, rfl, rfl⟩
                      · next htwo =>
                          cases more' with
                          | nil => cases h
                          | cons d after =>
                              simp only at h
                              split at h
                              · next hd =>
                                  cases h
                                  exact Or.inr ⟨d, after, rfl, hd, hone, htwo, rfl, rfl⟩
                              · cases h
                  · cases h
      · cases h

theorem ofNat_eq {n : Nat} {b : UInt8} (h : n = b.toNat) : UInt8.ofNat n = b := by
  rw [h, UInt8.ofNat_toNat]

variable {a b c d : UInt8}

theorem encodeChar_ofNat_two (ha : 0xC2 ≤ a.toNat) (ha' : a.toNat < 0xE0)
    (hb : isTail b = true) :
    String.utf8EncodeChar (Char.ofNat (a.toNat % 32 * 64 + low6 b)) = [a, b] := by
  rw [isTail_iff] at hb
  rw [low6, encodeChar_two (by omega) (by omega), ofNat_eq (b := a) (by omega),
    ofNat_eq (b := b) (by omega)]

theorem encodeChar_ofNat_three (ha : 0xE0 ≤ a.toNat) (ha' : a.toNat < 0xF0)
    (hb : isTail b = true) (hlow : a.toNat = 0xE0 -> 0xA0 ≤ b.toNat)
    (hhigh : a.toNat = 0xED -> b.toNat ≤ 0x9F) (hc : isTail c = true) :
    String.utf8EncodeChar (Char.ofNat ((a.toNat % 16 * 64 + low6 b) * 64 + low6 c)) =
      [a, b, c] := by
  rw [isTail_iff] at hb hc
  rw [low6, low6, encodeChar_three (by omega) (by omega) (by omega),
    ofNat_eq (b := a) (by omega), ofNat_eq (b := b) (by omega), ofNat_eq (b := c) (by omega)]

theorem encodeChar_ofNat_four (ha : 0xF0 ≤ a.toNat) (ha' : a.toNat ≤ 0xF4)
    (hb : isTail b = true) (hlow : a.toNat = 0xF0 -> 0x90 ≤ b.toNat)
    (hhigh : a.toNat = 0xF4 -> b.toNat ≤ 0x8F) (hc : isTail c = true) (hd : isTail d = true) :
    String.utf8EncodeChar
        (Char.ofNat (((a.toNat % 8 * 64 + low6 b) * 64 + low6 c) * 64 + low6 d)) =
      [a, b, c, d] := by
  rw [isTail_iff] at hb hc hd
  rw [low6, low6, low6, encodeChar_four (by omega) (by omega), ofNat_eq (b := a) (by omega),
    ofNat_eq (b := b) (by omega), ofNat_eq (b := c) (by omega), ofNat_eq (b := d) (by omega)]

theorem isTail_of_range {p q : Prop} [Decidable p] [Decidable q] {low high : UInt8}
    (hlow : 0x80 ≤ low) (hhigh : high ≤ 0xBF) (hb : (if p then low else 0x80) ≤ b)
    (hb' : b ≤ if q then high else 0xBF) :
    isTail b = true ∧ (p -> low.toNat ≤ b.toNat) ∧ (q -> b.toNat ≤ high.toNat) := by
  refine ⟨?_, ?_, ?_⟩
  · rw [isTail, Bool.and_eq_true, decide_eq_true_iff, decide_eq_true_iff]
    constructor
    · split at hb
      · exact UInt8.le_trans hlow hb
      · exact hb
    · split at hb'
      · exact UInt8.le_trans hb' hhigh
      · exact hb'
  · intro hp
    rw [if_pos hp] at hb
    exact UInt8.le_iff_toNat_le.mp hb
  · intro hq
    rw [if_pos hq] at hb'
    exact UInt8.le_iff_toNat_le.mp hb'

theorem encodeChar_of_readSequence {rest : Bytes} {x : Char} {tails : Nat}
    (h : readSequence a rest = .char x tails) :
    exists more after, rest = more ++ after ∧ more.length = tails ∧
      String.utf8EncodeChar x = a :: more := by
  cases hlead : lead? a with
  | none =>
      rw [readSequence, hlead] at h
      cases h
  | some l =>
      rcases readSequence_cases hlead h with ⟨b, after, rfl, hlow, hhigh, hread⟩
      rcases lead?_cases hlead with ⟨ha, ha', rfl⟩ | ⟨ha, ha', rfl⟩ | ⟨ha, ha', rfl⟩
      · have hb : isTail b = true := by
          rw [isTail, Bool.and_eq_true, decide_eq_true_iff, decide_eq_true_iff]
          exact ⟨hlow, hhigh⟩
        rcases hread with ⟨_, rfl, rfl⟩ | ⟨_, _, _, _, ⟨htwo, _⟩ | ⟨_, _, _, _, hone, _⟩⟩
        · exact ⟨[b], after, rfl, rfl, encodeChar_ofNat_two ha ha' hb⟩
        · cases htwo
        · exact absurd rfl hone
      · rcases isTail_of_range (by decide) (by decide) hlow hhigh with ⟨hb, hlow', hhigh'⟩
        rcases hread with ⟨hone, _⟩ | ⟨c, after, rfl, hc, ⟨_, rfl, rfl⟩ | ⟨_, _, _, _, _, htwo, _⟩⟩
        · cases hone
        · exact ⟨[b, c], after, rfl, rfl, encodeChar_ofNat_three ha ha' hb hlow' hhigh' hc⟩
        · exact absurd rfl htwo
      · rcases isTail_of_range (by decide) (by decide) hlow hhigh with ⟨hb, hlow', hhigh'⟩
        rcases hread with ⟨hone, _⟩ |
          ⟨c, _, rfl, hc, ⟨htwo, _⟩ | ⟨d, after, rfl, hd, _, _, rfl, rfl⟩⟩
        · cases hone
        · cases htwo
        · exact ⟨[b, c, d], after, rfl, rfl,
            encodeChar_ofNat_four ha ha' hb hlow' hhigh' hc hd⟩

theorem encodeChar_of_readChar {rest : Bytes} {x : Char} {tails : Nat}
    (h : readChar a rest = .char x tails) :
    exists more after, rest = more ++ after ∧ more.length = tails ∧
      String.utf8EncodeChar x = a :: more := by
  rw [readChar] at h
  split at h
  · next hascii =>
      cases h
      have hlt : a.toNat < 128 := UInt8.lt_iff_toNat_lt.mp hascii
      have hvalue : (Char.ofNat a.toNat).toNat = a.toNat :=
        toNat_val_ofNat (Or.inl (Nat.lt_trans hlt (by decide)))
      refine ⟨[], rest, rfl, rfl, ?_⟩
      rw [encodeChar_ascii (by rw [hvalue]; exact hlt), hvalue, UInt8.ofNat_toNat]
  · exact encodeChar_of_readSequence h

/-!
# Whole texts
-/

def IsText (bytes : Bytes) : Prop :=
  exists cs, encode cs = bytes

theorem encode_append (cs ds : List Char) : encode (cs ++ ds) = encode cs ++ encode ds :=
  List.flatMap_append

theorem encode_of_decodeFrom {index : Nat} {before cs : List Char} {bytes : Bytes}
    (h : decodeFrom index before bytes = .ok cs) :
    exists more, cs = before.reverse ++ more ∧ encode more = bytes := by
  fun_induction decodeFrom index before bytes with
  | case1 index before =>
      cases h
      exact ⟨[], (List.append_nil _).symm, rfl⟩
  | case2 index before a rest x tails hread ih =>
      rcases ih h with ⟨more, hcs, hmore⟩
      rcases encodeChar_of_readChar hread with ⟨taken, after, rfl, rfl, hx⟩
      refine ⟨x :: more, ?_, ?_⟩
      · rw [hcs, List.reverse_cons, List.append_assoc, List.singleton_append]
      · rw [encode_cons, hx, hmore, List.drop_left, List.cons_append]
  | case3 index before a rest length hread => cases h

/-- The decoder accepts exactly the texts. -/
theorem decode_eq_ok_iff {bytes : Bytes} {cs : List Char} :
    decode bytes = .ok cs <-> encode cs = bytes := by
  constructor
  · intro h
    rcases encode_of_decodeFrom h with ⟨more, rfl, hmore⟩
    exact hmore
  · rintro rfl
    exact decode_encode cs

theorem isText_of_decode {bytes : Bytes} {cs : List Char} (h : decode bytes = .ok cs) :
    IsText bytes :=
  ⟨cs, decode_eq_ok_iff.mp h⟩

theorem isText_iff_isOk {bytes : Bytes} : IsText bytes <-> (decode bytes).isOk = true := by
  constructor
  · rintro ⟨cs, rfl⟩
    rw [decode_encode]
    rfl
  · intro h
    cases hdecode : decode bytes with
    | ok cs => exact isText_of_decode hdecode
    | error malformed =>
        rw [hdecode] at h
        cases h

instance (bytes : Bytes) : Decidable (IsText bytes) :=
  decidable_of_iff _ isText_iff_isOk.symm

/-!
# Texts put together
-/

variable {bytes more : Bytes}

theorem isText_nil : IsText [] :=
  ⟨[], rfl⟩

theorem isText_append (h : IsText bytes) (h' : IsText more) : IsText (bytes ++ more) := by
  rcases h with ⟨cs, rfl⟩
  rcases h' with ⟨ds, rfl⟩
  exact ⟨cs ++ ds, encode_append cs ds⟩

theorem isText_ascii (h : forall b, b ∈ bytes -> b.toNat < 128) : IsText bytes := by
  induction bytes with
  | nil => exact isText_nil
  | cons b rest ih =>
      have hb := h b List.mem_cons_self
      have hvalue : (Char.ofNat b.toNat).toNat = b.toNat :=
        toNat_val_ofNat (Or.inl (Nat.lt_trans hb (by decide)))
      have hone : IsText [b] := by
        refine ⟨[Char.ofNat b.toNat], ?_⟩
        rw [encode_cons, encode_nil, List.append_nil, encodeChar_ascii (by rw [hvalue]; exact hb),
          hvalue, UInt8.ofNat_toNat]
      exact isText_append hone (ih fun c hc => h c (List.mem_cons_of_mem b hc))

theorem isText_append_cons {b : UInt8} (hb : b.toNat < 128) (h : IsText bytes)
    (hmore : IsText more) : IsText (bytes ++ b :: more) := by
  have hone : IsText [b] := isText_ascii fun c hc => by rw [List.mem_singleton.mp hc]; exact hb
  exact isText_append h (isText_append hone hmore)

/-- An ASCII byte never lies inside a character, so a text falls apart at it. -/
theorem isText_of_append_cons {b : UInt8} (hb : b.toNat < 128)
    (h : IsText (bytes ++ b :: more)) : IsText bytes ∧ IsText more := by
  rcases h with ⟨cs, hcs⟩
  induction cs generalizing bytes with
  | nil => simp at hcs
  | cons x rest ih =>
      have hone : IsText (String.utf8EncodeChar x) := ⟨[x], List.append_nil _⟩
      rw [encode_cons] at hcs
      rcases List.append_eq_append_iff.mp hcs with ⟨between, rfl, hrest⟩ | ⟨between, hx, hmore⟩
      · rcases ih hrest with ⟨hbetween, hmore⟩
        exact ⟨isText_append hone hbetween, hmore⟩
      · cases between with
        | nil =>
            rw [List.append_nil] at hx
            have hrest : encode rest = [] ++ b :: more := hmore.symm
            exact ⟨hx ▸ hone, (ih hrest).right⟩
        | cons first last =>
            cases hmore
            have hmem : b ∈ String.utf8EncodeChar x := by
              rw [hx]
              exact List.mem_append_right bytes List.mem_cons_self
            have hascii : x.toNat < 128 := by
              apply Nat.lt_of_not_le
              intro hle
              exact absurd hb (Nat.not_lt_of_le (le_of_mem_encodeChar hle hmem))
            have hlength : (bytes ++ b :: last).length = 1 := by
              rw [← hx, encodeChar_ascii hascii]
              rfl
            rw [List.length_append, List.length_cons] at hlength
            cases List.eq_nil_of_length_eq_zero (show bytes.length = 0 by omega)
            cases List.eq_nil_of_length_eq_zero (show last.length = 0 by omega)
            exact ⟨isText_nil, rest, rfl⟩

end Utf8
end FlowConfig
