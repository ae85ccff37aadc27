import RingRouting.Column.Vint
import RingRouting.Proofs.Column.Integers

/-!
# Variable-length integers are read as they were written

The first octet of a variable-length integer announces how many octets follow it and
carries the most significant digits that are left.  Reading stops where writing did, whatever
comes after.  A number can be put into more octets than it needs; it is written in the fewest.

Main definitions:

- `Vint.spelled`: the number that a first octet and the octets after it spell.
- `Vint.form`: a number in a given number of octets.

Main results:

- Theorem `Vint.decodeUnsigned_eq_some_iff`: what is read is what the octets spell.
- Theorem `Vint.decodeUnsigned_eq_some_iff_form`: the forms that are read as a number.
- Theorem `Vint.decodeUnsigned_encodeUnsigned`: an unsigned number is read as it was
  written, and what follows it is left.
- Theorem `Vint.deinterleave_interleave`: signed numbers have places of their own.
- Theorem `Vint.decode_encode`: a signed number is read as it was written.
- Theorem `Vint.encode_shortest`: all other forms of a signed number are longer.
-/

namespace RingRouting
namespace Vint

open Octets

/-! ## The first octet -/

/-- A first octet announces the octets it was written for and keeps its own digits. -/
theorem first_octet : ∀ extra < 9, ∀ high < 1 <<< (7 - extra),
    leadingOnes (UInt8.ofNat (mark extra + high)) = extra ∧
      (UInt8.ofNat (mark extra + high)).toNat % (1 <<< (7 - extra)) = high := by
  decide +kernel

theorem following_lt (v : UInt64) : following v < 9 := by
  have hbits : bitLength v.toNat ≤ 64 := (bitLength_le_iff _ _).2 v.toNat_lt
  unfold following
  omega

/-- With seven digits for each octet, and eight for the ninth, there is room for the
number. -/
theorem lt_of_following (v : UInt64) :
    v.toNat < 2 ^ (7 - following v + 8 * following v) := by
  have hbits : bitLength v.toNat ≤ 64 := (bitLength_le_iff _ _).2 v.toNat_lt
  refine (bitLength_le_iff _ _).1 ?_
  unfold following
  omega

/-- A number takes no more octets than any that have room for it. -/
theorem following_le {v : UInt64} {extra : Nat} (hextra : extra < 9)
    (hroom : v.toNat < 2 ^ (7 - extra + 8 * extra)) : following v ≤ extra := by
  have hbits := (bitLength_le_iff _ _).2 hroom
  have hall : bitLength v.toNat ≤ 64 := (bitLength_le_iff _ _).2 v.toNat_lt
  unfold following
  omega

/-! ## Octets and the number they spell -/

/-- Every octet is the mark of the one bits at its top with the digits below them. -/
theorem octet_eq_mark : ∀ first : UInt8,
    leadingOnes first < 9 ∧
      mark (leadingOnes first) + first.toNat % (1 <<< (7 - leadingOnes first)) = first.toNat :=
  forall_octet (by decide +kernel)

theorem leadingOnes_lt (first : UInt8) : leadingOnes first < 9 :=
  (octet_eq_mark first).1

/-- The number that a first octet and the octets after it spell. -/
def spelled (first : UInt8) (tail : List UInt8) : Nat :=
  first.toNat % (1 <<< (7 - leadingOnes first)) * capacity (leadingOnes first) +
    ofBigEndian tail

/-- The first octet and those after it are the mark and the number they spell. -/
theorem ofBigEndian_cons {first : UInt8} {tail : List UInt8}
    (hlength : tail.length = leadingOnes first) :
    ofBigEndian (first :: tail) =
      mark (leadingOnes first) * capacity (leadingOnes first) + spelled first tail := by
  have hfirst := (octet_eq_mark first).2
  have hone : ofBigEndian [first] = first.toNat := by simp [ofBigEndian]
  rw [← List.singleton_append, ofBigEndian_append, hone, hlength, spelled, ← Nat.add_assoc,
    ← Nat.add_mul, hfirst]

/-- The octets that are announced have room for the number they spell. -/
theorem spelled_lt {first : UInt8} {tail : List UInt8}
    (hlength : tail.length = leadingOnes first) :
    spelled first tail <
      2 ^ (7 - leadingOnes first + 8 * leadingOnes first) := by
  have hlow := ofBigEndian_lt_of_length hlength
  have hhigh : first.toNat % (1 <<< (7 - leadingOnes first)) < 2 ^ (7 - leadingOnes first) := by
    rw [Nat.one_shiftLeft]
    exact Nat.mod_lt _ (Nat.two_pow_pos _)
  unfold spelled
  generalize first.toNat % (1 <<< (7 - leadingOnes first)) = high at hhigh
  calc high * capacity (leadingOnes first) + ofBigEndian tail
      < high * capacity (leadingOnes first) + capacity (leadingOnes first) :=
        Nat.add_lt_add_left hlow _
    _ = (high + 1) * capacity (leadingOnes first) := (Nat.succ_mul _ _).symm
    _ ≤ 2 ^ (7 - leadingOnes first) * capacity (leadingOnes first) :=
        Nat.mul_le_mul_right _ hhigh
    _ = 2 ^ (7 - leadingOnes first + 8 * leadingOnes first) := by
        rw [capacity_eq_two_pow, ← Nat.pow_add]

/-- No octets spell a number that is too large for a word. -/
theorem spelled_lt_word {first : UInt8} {tail : List UInt8}
    (hlength : tail.length = leadingOnes first) : spelled first tail < 2 ^ 64 := by
  have hextra := leadingOnes_lt first
  exact Nat.lt_of_lt_of_le (spelled_lt hlength) (Nat.pow_le_pow_right (by decide) (by omega))

/-! ## The unsigned form -/

/-- None is read exactly where the octets end before those that the first one announces. -/
theorem decodeUnsigned_cons_eq_none_iff {first : UInt8} {tail : List UInt8} :
    decodeUnsigned (first :: tail) = none ↔ tail.length < leadingOnes first := by
  simp only [decodeUnsigned, ite_eq_left_iff, reduceCtorEq, imp_false, Decidable.not_not]

/-- Where a number is read, the first octet announced those after it, and together they spell
the number; and where they do, it is read. -/
theorem decodeUnsigned_eq_some_iff {octets rest : List UInt8} {v : UInt64} :
    decodeUnsigned octets = some (v, rest) ↔
      ∃ first tail, octets = (first :: tail) ++ rest ∧
        tail.length = leadingOnes first ∧ v.toNat = spelled first tail := by
  constructor
  · intro h
    cases octets with
    | nil => cases h
    | cons first others =>
        rw [decodeUnsigned] at h
        simp only at h
        split at h
        · cases h
        · rename_i henough
          obtain ⟨hv, hrest⟩ := Prod.mk.inj (Option.some.inj h)
          have htaken : (others.take (leadingOnes first)).length = leadingOnes first := by
            rw [List.length_take]
            omega
          refine ⟨first, others.take (leadingOnes first), ?_, htaken, ?_⟩
          · rw [← hrest, List.cons_append, List.take_append_drop]
          · rw [← hv, UInt64.toNat_ofNat']
            exact Nat.mod_eq_of_lt (spelled_lt_word htaken)
  · rintro ⟨first, tail, rfl, hlength, hv⟩
    have henough : ¬ (tail ++ rest).length < leadingOnes first := by
      rw [List.length_append]
      omega
    simp only [List.cons_append, decodeUnsigned, if_neg henough, List.take_left' hlength,
      List.drop_left' hlength]
    rw [← spelled, ← hv, UInt64.ofNat_toNat]

/-- A number in a first octet and `extra` octets after it. -/
def form (extra : Nat) (v : UInt64) : List UInt8 :=
  bigEndian (extra + 1) (mark extra * capacity extra + v.toNat)

theorem encodeUnsigned_eq_form (v : UInt64) : encodeUnsigned v = form (following v) v :=
  rfl

theorem length_form (extra : Nat) (v : UInt64) : (form extra v).length = extra + 1 :=
  length_bigEndian _ _

/-- Octets that are announced are the form of the number they spell. -/
theorem eq_form_of_spelled {first : UInt8} {tail : List UInt8} {v : UInt64}
    (hlength : tail.length = leadingOnes first) (hv : v.toNat = spelled first tail) :
    first :: tail = form (leadingOnes first) v :=
  calc first :: tail
      = bigEndian (first :: tail).length (ofBigEndian (first :: tail)) :=
        (bigEndian_ofBigEndian _).symm
    _ = form (leadingOnes first) v := by
        rw [ofBigEndian_cons hlength, List.length_cons, hlength, form, hv]

/-- A form that has room for the number announces its octets, and they spell the number. -/
theorem exists_form_eq {extra : Nat} {v : UInt64} (hextra : extra < 9)
    (hroom : v.toNat < 2 ^ (7 - extra + 8 * extra)) :
    ∃ first tail, form extra v = first :: tail ∧ leadingOnes first = extra ∧
      tail.length = extra ∧ v.toNat = spelled first tail := by
  have hpos := capacity_pos extra
  have hhigh : v.toNat / capacity extra < 1 <<< (7 - extra) := by
    rw [Nat.one_shiftLeft]
    apply Nat.div_lt_of_lt_mul
    rwa [capacity_eq_two_pow, ← Nat.pow_add, Nat.add_comm]
  have hfirst := first_octet _ hextra _ hhigh
  have hdiv : (mark extra * capacity extra + v.toNat) / capacity extra =
      mark extra + v.toNat / capacity extra := by
    rw [Nat.add_comm, Nat.add_mul_div_right _ _ hpos, Nat.add_comm]
  refine ⟨UInt8.ofNat (mark extra + v.toNat / capacity extra),
    bigEndian extra (mark extra * capacity extra + v.toNat), ?_, hfirst.1,
    length_bigEndian _ _, ?_⟩
  · rw [form, bigEndian_succ, hdiv]
  · rw [spelled, hfirst.1, hfirst.2, ofBigEndian_bigEndian, Nat.mul_add_mod_self_right,
      Nat.div_add_mod']

/-- What is read as a number is any of its forms, from that of the fewest octets that have room
for it to that of nine. -/
theorem decodeUnsigned_eq_some_iff_form {octets rest : List UInt8} {v : UInt64} :
    decodeUnsigned octets = some (v, rest) ↔
      ∃ extra, following v ≤ extra ∧ extra < 9 ∧ octets = form extra v ++ rest := by
  rw [decodeUnsigned_eq_some_iff]
  constructor
  · rintro ⟨first, tail, rfl, hlength, hv⟩
    refine ⟨leadingOnes first, ?_, leadingOnes_lt first, ?_⟩
    · exact following_le (leadingOnes_lt first) (hv ▸ spelled_lt hlength)
    · rw [eq_form_of_spelled hlength hv]
  · rintro ⟨extra, hle, hextra, rfl⟩
    have hroom : v.toNat < 2 ^ (7 - extra + 8 * extra) :=
      Nat.lt_of_lt_of_le (lt_of_following v) (Nat.pow_le_pow_right (by decide) (by omega))
    obtain ⟨first, tail, hform, hones, hlength, hv⟩ := exists_form_eq hextra hroom
    exact ⟨first, tail, by rw [hform], hlength.trans hones.symm, hv⟩

/-- An unsigned number is read as it was written, and what follows it is left. -/
theorem decodeUnsigned_encodeUnsigned (v : UInt64) (rest : List UInt8) :
    decodeUnsigned (encodeUnsigned v ++ rest) = some (v, rest) :=
  decodeUnsigned_eq_some_iff_form.2 ⟨following v, Nat.le_refl _, following_lt v, rfl⟩

/-! ## The signed form -/

/-- The place of a signed number, as a number without bound. -/
theorem toNat_interleave (v : Int64) :
    ((interleave v).toNat : Int) = if 0 ≤ v.toInt then 2 * v.toInt else -2 * v.toInt - 1 := by
  have hlow := v.le_toInt
  have hhigh := v.toInt_lt
  unfold interleave
  split
  · rw [UInt64.toNat_ofNat', if_neg (by omega)]
    omega
  · rw [UInt64.toNat_ofNat', if_pos (by omega)]
    omega

/-- The number at a place, as a number without bound. -/
theorem toInt_deinterleave (v : UInt64) :
    (deinterleave v).toInt =
      if v.toNat % 2 = 0 then (v.toNat / 2 : Int) else -(v.toNat / 2 : Int) - 1 := by
  have hlt := v.toNat_lt
  unfold deinterleave
  split
  · exact Int64.toInt_ofInt_of_le (by omega) (by omega)
  · exact Int64.toInt_ofInt_of_le (by omega) (by omega)

/-- Each signed number has a place of its own. -/
theorem deinterleave_interleave (v : Int64) : deinterleave (interleave v) = v := by
  have hplace := toNat_interleave v
  apply Int64.toInt_inj.1
  rw [toInt_deinterleave]
  split at hplace
  · rw [if_pos (by omega)]
    omega
  · rw [if_neg (by omega)]
    omega

/-- Each place is that of a signed number. -/
theorem interleave_deinterleave (v : UInt64) : interleave (deinterleave v) = v := by
  have hplace := toNat_interleave (deinterleave v)
  rw [toInt_deinterleave] at hplace
  apply UInt64.toNat_inj.1
  rcases Nat.mod_two_eq_zero_or_one v.toNat with heven | hodd
  · rw [if_pos heven, if_pos (by omega)] at hplace
    omega
  · rw [if_neg (by omega), if_neg (by omega)] at hplace
    omega

/-- A signed number is read where its place is. -/
theorem decode_eq_some_iff_place {octets rest : List UInt8} {v : Int64} :
    decode octets = some (v, rest) ↔ decodeUnsigned octets = some (interleave v, rest) := by
  rw [decode, Option.map_eq_some_iff]
  constructor
  · rintro ⟨⟨place, left⟩, hplace, hv⟩
    obtain ⟨rfl, rfl⟩ := Prod.mk.inj hv
    rwa [interleave_deinterleave]
  · intro hplace
    exact ⟨_, hplace, congrArg (·, rest) (deinterleave_interleave v)⟩

/-- A signed number is read as it was written, and what follows it is left. -/
theorem decode_encode (v : Int64) (rest : List UInt8) :
    decode (encode v ++ rest) = some (v, rest) :=
  decode_eq_some_iff_place.2 (decodeUnsigned_encodeUnsigned _ rest)

/-- No number is written in no octets. -/
theorem length_encode_pos (v : Int64) : 0 < (encode v).length := by
  simp [encode, encodeUnsigned]

/-! ## The shortest form -/

/-- What is read as an unsigned number is the number's own form, or longer than it. -/
theorem encodeUnsigned_shortest {octets rest : List UInt8} {v : UInt64}
    (h : decodeUnsigned octets = some (v, rest)) :
    ∃ used, octets = used ++ rest ∧
      (used = encodeUnsigned v ∨ (encodeUnsigned v).length < used.length) := by
  obtain ⟨extra, hle, -, hoctets⟩ := decodeUnsigned_eq_some_iff_form.1 h
  refine ⟨form extra v, hoctets, ?_⟩
  rcases Nat.lt_or_eq_of_le hle with hlt | heq
  · right
    rw [encodeUnsigned_eq_form, length_form, length_form]
    exact Nat.succ_lt_succ hlt
  · left
    rw [encodeUnsigned_eq_form, heq]

/-- What is read as a signed number is the number's own form, or longer than it. -/
theorem encode_shortest {octets rest : List UInt8} {v : Int64}
    (h : decode octets = some (v, rest)) :
    ∃ used, octets = used ++ rest ∧ (used = encode v ∨ (encode v).length < used.length) :=
  encodeUnsigned_shortest (decode_eq_some_iff_place.1 h)

end Vint
end RingRouting
