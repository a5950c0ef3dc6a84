import FlowConfig.Gzip.Token
import Mathlib.Algebra.Group.Nat.Defs

/-!
# Bits that were written

A row of bits that is packed into bytes is read back bit by bit.  What follows in
the same source stays in place, and skipping to the next byte drops nothing but
the zeros that fill up the last byte.
-/

namespace FlowConfig
namespace Gzip

/-!
# Numbers and bits
-/

theorem numberBits_succ (n value : Nat) :
    numberBits (n + 1) value = value.testBit 0 :: numberBits n (value / 2) := by
  rw [numberBits, List.range_succ_eq_map, List.map_cons, List.map_map, numberBits]
  congr 1
  apply List.map_congr_left
  intro i _
  rw [Function.comp_apply, Nat.testBit_succ]

@[simp] theorem length_numberBits (n value : Nat) : (numberBits n value).length = n := by
  simp [numberBits]

theorem toNat_testBit_zero (value : Nat) : (value.testBit 0).toNat = value % 2 := by
  rw [Nat.testBit_zero]
  rcases Nat.mod_two_eq_zero_or_one value with h | h
  · simp [h]
  · simp [h]

theorem ofBits_cons (bit : Bool) (bits : List Bool) :
    ofBits (bit :: bits) = bit.toNat + 2 * ofBits bits :=
  rfl

theorem ofBits_numberBits (n value : Nat) : ofBits (numberBits n value) = value % 2 ^ n := by
  induction n generalizing value with
  | zero => exact (Nat.mod_one value).symm
  | succ n ih =>
      rw [numberBits_succ, ofBits_cons, ih, toNat_testBit_zero, Nat.pow_succ',
        Nat.mod_mul]

theorem ofBits_lt (bits : List Bool) : ofBits bits < 2 ^ bits.length := by
  induction bits with
  | nil => exact Nat.one_pos
  | cons bit bits ih =>
      have hbit := Bool.toNat_le bit
      rw [ofBits_cons, List.length_cons, Nat.pow_succ]
      omega

theorem numberBits_zero (n : Nat) : numberBits n 0 = List.replicate n false := by
  induction n with
  | zero => rfl
  | succ n ih =>
      rw [numberBits_succ, Nat.zero_div, ih]
      rfl

theorem numberBits_ofBits {n : Nat} {bits : List Bool} (h : bits.length ≤ n) :
    numberBits n (ofBits bits) = bits ++ List.replicate (n - bits.length) false := by
  induction bits generalizing n with
  | nil => exact numberBits_zero n
  | cons bit bits ih =>
      cases n with
      | zero => cases h
      | succ n =>
          have hlow : (ofBits (bit :: bits)).testBit 0 = bit := by
            rw [ofBits_cons, Nat.testBit_zero]
            cases bit <;> simp
          have hhigh : ofBits (bit :: bits) / 2 = ofBits bits := by
            have hbit := Bool.toNat_le bit
            rw [ofBits_cons]
            omega
          rw [numberBits_succ, hlow, hhigh, ih (Nat.le_of_succ_le_succ h), List.length_cons,
            Nat.add_sub_add_right]
          rfl

theorem byteBits_eq_numberBits (b : UInt8) : byteBits b = numberBits 8 b.toNat :=
  rfl

theorem byteBits_injective {a b : UInt8} (h : byteBits a = byteBits b) : a = b := by
  have hvalues := congrArg ofBits h
  rw [byteBits_eq_numberBits, byteBits_eq_numberBits, ofBits_numberBits, ofBits_numberBits,
    Nat.mod_eq_of_lt a.toNat_lt, Nat.mod_eq_of_lt b.toNat_lt] at hvalues
  exact UInt8.toNat_inj.mp hvalues

theorem flatMap_byteBits_injective {as bs : Bytes}
    (h : as.flatMap byteBits = bs.flatMap byteBits) : as = bs := by
  induction as generalizing bs with
  | nil =>
      cases bs with
      | nil => rfl
      | cons b bs => cases h
  | cons a as ih =>
      cases bs with
      | nil => cases h
      | cons b bs =>
          rw [List.flatMap_cons, List.flatMap_cons] at h
          have hlength : (byteBits a).length = (byteBits b).length := by
            rw [length_byteBits, length_byteBits]
          rcases List.append_inj h hlength with ⟨hfirst, hrest⟩
          rw [byteBits_injective hfirst, ih hrest]

theorem length_flatMap_byteBits (bytes : Bytes) :
    (bytes.flatMap byteBits).length = 8 * bytes.length := by
  rw [← BitSource.size_ofBytes, ← BitSource.length_toList]
  rfl

/-!
# Packing
-/

theorem byteBits_ofBits {bits : List Bool} (h : bits.length ≤ 8) :
    byteBits (UInt8.ofNat (ofBits bits)) =
      bits ++ List.replicate (8 - bits.length) false := by
  have hlt : ofBits bits < 2 ^ 8 :=
    Nat.lt_of_lt_of_le (ofBits_lt bits) (Nat.pow_le_pow_right Nat.two_pos h)
  rw [byteBits_eq_numberBits, UInt8.toNat_ofNat', Nat.mod_eq_of_lt hlt, numberBits_ofBits h]

theorem exists_flatMap_packFrom (before : Bytes) (bits : List Bool) :
    exists padding : List Bool, padding.length < 8 ∧
      (packFrom before bits).flatMap byteBits =
        before.reverse.flatMap byteBits ++ (bits ++ padding) := by
  fun_induction packFrom before bits with
  | case1 before => exact ⟨[], Nat.zero_lt_succ 7, by simp⟩
  | case2 before bit rest ih =>
      have hbyte := byteBits_ofBits (List.length_take_le 8 (bit :: rest))
      by_cases hfull : 8 ≤ (bit :: rest).length
      · rcases ih with ⟨padding, hpadding, hbits⟩
        refine ⟨padding, hpadding, ?_⟩
        rw [List.length_take, Nat.min_eq_left hfull, Nat.sub_self, List.replicate_zero,
          List.append_nil] at hbyte
        rw [hbits, List.reverse_cons, List.flatMap_append, List.flatMap_singleton, hbyte,
          List.append_assoc, ← List.append_assoc (List.take 8 _), List.take_append_drop]
      · have hshort : (bit :: rest).length ≤ 8 := Nat.le_of_not_le hfull
        rw [List.take_of_length_le hshort] at hbyte
        refine ⟨List.replicate (8 - (bit :: rest).length) false, ?_, ?_⟩
        · rw [List.length_replicate, List.length_cons]
          omega
        · rw [List.drop_eq_nil_of_le hshort, packFrom, List.take_of_length_le hshort,
            List.reverse_cons, List.flatMap_append, List.flatMap_singleton, hbyte]

theorem exists_flatMap_pack (bits : List Bool) :
    exists padding : List Bool, padding.length < 8 ∧
      (pack bits).flatMap byteBits = bits ++ padding :=
  exists_flatMap_packFrom [] bits

/-!
# Sources
-/

namespace BitSource

/-- The source gives some bits, and then the bits of some bytes that it has not
begun. -/
structure Gives (s : BitSource) (bits : List Bool) (rest : Bytes) : Prop where
  toList_eq : s.toList = bits ++ rest.flatMap byteBits
  begun_lt : s.begun.length < 8

theorem exists_gives_ofBytes_pack (bits : List Bool) (rest : Bytes) :
    exists padding : List Bool, padding.length < 8 ∧
      (ofBytes (pack bits ++ rest)).Gives (bits ++ padding) rest := by
  rcases exists_flatMap_pack bits with ⟨padding, hpadding, hbits⟩
  refine ⟨padding, hpadding, ?_, Nat.zero_lt_succ 7⟩
  show (pack bits ++ rest).flatMap byteBits = _
  rw [List.flatMap_append, hbits]

theorem begun_lt_of_next? {s t : BitSource} {bit : Bool} (h : s.next? = some (bit, t))
    (hs : s.begun.length < 8) : t.begun.length < 8 := by
  obtain ⟨begun, bytes⟩ := s
  cases begun with
  | cons c begun =>
      cases h
      exact Nat.lt_of_succ_lt hs
  | nil =>
      cases bytes with
      | nil => cases h
      | cons b bytes =>
          cases h
          exact Nat.lt_succ_self 7

theorem Gives.exists_next? {s : BitSource} {bit : Bool} {bits : List Bool} {rest : Bytes}
    (h : s.Gives (bit :: bits) rest) :
    exists t, s.next? = some (bit, t) ∧ t.Gives bits rest := by
  have hlist := h.toList_eq
  cases hnext : s.next? with
  | none =>
      rw [(s.next?_eq_none_iff).mp hnext] at hlist
      cases hlist
  | some read =>
      obtain ⟨other, t⟩ := read
      rw [toList_of_next? hnext, List.cons_append] at hlist
      injection hlist with hbit hrest
      rw [hbit]
      exact ⟨t, rfl, hrest, begun_lt_of_next? hnext h.begun_lt⟩

theorem Gives.exists_number? {s : BitSource} {bits more : List Bool} {rest : Bytes}
    (h : s.Gives (bits ++ more) rest) :
    exists t, s.number? bits.length = some (ofBits bits, t) ∧ t.Gives more rest := by
  induction bits generalizing s with
  | nil => exact ⟨s, rfl, h⟩
  | cons bit bits ih =>
      rcases h.exists_next? with ⟨t, hnext, ht⟩
      rcases ih ht with ⟨u, hnumber, hu⟩
      refine ⟨u, ?_, hu⟩
      rw [List.length_cons, number?, hnext]
      simp only [hnumber]
      rfl

theorem Gives.exists_readBits {s : BitSource} {n value : Nat} {more : List Bool} {rest : Bytes}
    (h : s.Gives (numberBits n value ++ more) rest) (hvalue : value < 2 ^ n) :
    exists t, readBits n s = .ok (value, t) ∧ t.Gives more rest := by
  rcases h.exists_number? with ⟨t, hnumber, ht⟩
  rw [length_numberBits, ofBits_numberBits, Nat.mod_eq_of_lt hvalue] at hnumber
  refine ⟨t, ?_, ht⟩
  rw [readBits, hnumber]

theorem Gives.align_eq {s : BitSource} {padding : List Bool} {rest : Bytes}
    (h : s.Gives padding rest) (hpadding : padding.length < 8) : s.align = rest := by
  have hlist : s.begun ++ s.bytes.flatMap byteBits = padding ++ rest.flatMap byteBits :=
    h.toList_eq
  have hlength := congrArg List.length hlist
  rw [List.length_append, List.length_append, length_flatMap_byteBits,
    length_flatMap_byteBits] at hlength
  have hbegun := h.begun_lt
  have hsame : s.begun.length = padding.length := by omega
  exact flatMap_byteBits_injective (List.append_inj hlist hsame).right

end BitSource

end Gzip
end FlowConfig
