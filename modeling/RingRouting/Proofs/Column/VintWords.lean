import Mathlib.Algebra.Group.Int.Defs
import RingRouting.Proofs.Column.Vint

/-!
# Variable-length integers in machine words

The numbers are words of 64 digits, and shifts, masks and sums of words are enough to write and
read them.  A signed number is doubled, and turned over where its sign says so.  The mark of the
first octet is shifted up from a word of ones, most of which leave the word at its upper end; the
zero digits above a number tell how many octets it takes.  When a number is read, the digits left
in the first octet are moved to their place and those of the other octets added.  No sum and no
shift loses a digit of the number.

Main definitions:

- `Vint.encodeWord`: a number in octets, by its leading zeros and a mask.
- `Vint.upper`, `Vint.lower`: the two parts of a number that is read.

Main results:

- Theorem `Vint.interleave_eq_xor`, `Vint.deinterleave_eq_xor`: signed numbers in words.
- Theorem `Vint.encodeWord_eq`: numbers are written in words as they are without bound.
- Theorem `Vint.upper_add_lower`: the sum that is read has no carry.
-/

namespace RingRouting
namespace Vint

open Octets

/-! ## Signed numbers -/

/-- Shifted down by all its digits but one, a number leaves its sign in every digit. -/
theorem shiftRight_sign (v : Int64) : v >>> 63 = if v.toInt < 0 then -1 else 0 := by
  have hlow := v.le_toInt
  have hhigh := v.toInt_lt
  have hshift : (v >>> 63).toInt = v.toInt >>> (63 : Nat) := by
    rw [← Int64.toInt_toBitVec, Int64.toBitVec_shiftRight, BitVec.sshiftRight_eq',
      BitVec.toInt_sshiftRight, Int64.toInt_toBitVec]
    rfl
  apply Int64.toInt_inj.1
  rw [hshift, Int.shiftRight_eq_div_pow]
  split
  · show v.toInt / 2 ^ 63 = -1
    omega
  · show v.toInt / 2 ^ 63 = 0
    omega

/-- A number is doubled in a word, where a negative one is as far below the end as it is below
zero. -/
theorem toNat_shiftLeft_one (v : Int64) :
    ((v <<< 1).toUInt64.toNat : Int) =
      if 0 ≤ v.toInt then 2 * v.toInt else 2 * v.toInt + 2 ^ 64 := by
  have hlow := v.le_toInt
  have hhigh := v.toInt_lt
  have hdouble : (v <<< 1).toUInt64.toNat = v.toBitVec.toNat * 2 % 2 ^ 64 := by
    rw [← UInt64.toNat_toBitVec, Int64.toBitVec_toUInt64, Int64.toBitVec_shiftLeft]
    show (v.toBitVec <<< (1 : Nat)).toNat = _
    rw [BitVec.toNat_shiftLeft, Nat.shiftLeft_eq, Nat.pow_one]
  have hsigned := BitVec.toInt_eq_toNat_cond v.toBitVec
  rw [Int64.toInt_toBitVec] at hsigned
  split at hsigned <;> split <;> omega

/-- The place of a number is twice the number, with all digits turned over where it is
negative. -/
theorem interleave_eq_xor (v : Int64) : interleave v = ((v >>> 63) ^^^ (v <<< 1)).toUInt64 := by
  have hlow := v.le_toInt
  have hhigh := v.toInt_lt
  have hplace := toNat_interleave v
  have hdouble := toNat_shiftLeft_one v
  apply UInt64.toNat_inj.1
  rw [shiftRight_sign]
  split
  · have hnot : (~~~(v <<< 1)).toUInt64.toNat = 2 ^ 64 - 1 - (v <<< 1).toUInt64.toNat :=
      BitVec.toNat_not
    rw [if_neg (by omega)] at hplace hdouble
    rw [Int64.neg_one_xor]
    omega
  · rw [if_pos (by omega)] at hplace hdouble
    rw [Int64.zero_xor]
    omega

theorem toInt_shiftRight_one (v : UInt64) : (v >>> 1).toInt64.toInt = v.toNat / 2 := by
  have hlt := v.toNat_lt
  have hhalf : (v >>> 1).toInt64.toBitVec.toNat = v.toNat / 2 := by
    show (v >>> 1).toNat = _
    rw [UInt64.toNat_shiftRight]
    exact Nat.shiftRight_eq_div_pow v.toNat 1
  rw [← Int64.toInt_toBitVec, BitVec.toInt_eq_toNat_of_lt (by omega), hhalf]
  rfl

/-- The last digit of a number tells whether it is even. -/
theorem and_one (v : UInt64) : v &&& 1 = if v.toNat % 2 = 0 then 0 else 1 := by
  apply UInt64.toNat_inj.1
  rw [UInt64.toNat_and]
  show v.toNat &&& 1 = _
  rw [Nat.and_one_is_mod]
  split
  · assumption
  · exact Nat.mod_two_ne_zero.1 ‹_›

/-- The number at a place is half the place, with all digits turned over where the place is
odd. -/
theorem deinterleave_eq_xor (v : UInt64) :
    deinterleave v = (v >>> 1).toInt64 ^^^ -(v &&& 1).toInt64 := by
  have hlt := v.toNat_lt
  have hhalf := toInt_shiftRight_one v
  have hnumber := toInt_deinterleave v
  apply Int64.toInt_inj.1
  rw [and_one]
  split
  · rename_i heven
    have hzero : -(0 : UInt64).toInt64 = 0 := by decide
    rw [hzero, Int64.xor_zero, hnumber, if_pos heven, hhalf]
  · rename_i hodd
    have hones : -(1 : UInt64).toInt64 = -1 := by decide
    rw [hones, Int64.xor_neg_one, Int64.toInt_not, hnumber, if_neg hodd, hhalf,
      Int.bmod_eq_of_le (by omega) (by omega)]

/-! ## Writing -/

/-- How many zero digits stand above the highest one of a word. -/
def leadingZeros (v : UInt64) : Nat :=
  v.toBitVec.clz.toNat

/-- How many octets the digits of a number take; zero has no digits, and is written in one octet
all the same. -/
def octetCount (v : UInt64) : Nat :=
  (639 - 9 * leadingZeros v) >>> 6

/-- The mark of a first octet that `extra` octets follow, with ones in all the digits above. -/
def markWord (extra : Nat) : UInt64 :=
  (~~~((255 : Int32) >>> Int32.ofNat extra)).toInt64.toUInt64 <<< UInt64.ofNat (8 * extra)

/-- Writes an unsigned number: as an octet, in the lowest octets of a word with the mark, or in
all eight octets of a word after one of ones. -/
def encodeWord (v : UInt64) : List UInt8 :=
  if octetCount v ≤ 1 then [v.toUInt8]
  else if octetCount v = 9 then 255 :: bigEndian 8 v.toNat
  else bigEndian (octetCount v) (v ||| markWord (octetCount v - 1)).toNat

/-- The digits of a number and the zeros above them fill a word. -/
theorem leadingZeros_eq (v : UInt64) : leadingZeros v = 64 - bitLength v.toNat := by
  have hbits : bitLength v.toNat ≤ 64 - leadingZeros v :=
    (bitLength_le_iff _ _).2 BitVec.toNat_lt_two_pow_sub_clz
  by_cases hzero : v.toBitVec = 0#64
  · have hclz : leadingZeros v = 64 := by
      rw [leadingZeros, BitVec.clz_eq_iff_eq_zero.2 hzero]
      rfl
    omega
  · have hclz : leadingZeros v < 64 := BitVec.clz_lt_iff_ne_zero.2 hzero
    have hge : 2 ^ (63 - leadingZeros v) ≤ v.toNat :=
      BitVec.two_pow_sub_clz_le_toNat_of_ne_zero (by decide) hzero
    have hmore : ¬ bitLength v.toNat ≤ 63 - leadingZeros v := by
      rw [bitLength_le_iff]
      exact Nat.not_lt.2 hge
    omega

theorem following_eq_octetCount (v : UInt64) : following v = octetCount v - 1 := by
  have hbits : bitLength v.toNat ≤ 64 := (bitLength_le_iff _ _).2 v.toNat_lt
  have hdigits : 639 - 9 * (64 - bitLength v.toNat) = 9 * bitLength v.toNat + 63 := by omega
  rw [octetCount, leadingZeros_eq, hdigits, Nat.shiftRight_eq_div_pow]
  rfl

/-- The mark has ones in the digits above those that the number may have.  In the octets that are
written it is the mark of the first one. -/
theorem markWord_eq : ∀ extra < 8,
    (markWord extra).toNat % 2 ^ (7 - extra + 8 * extra) = 0 ∧
      (markWord extra).toNat % capacity (extra + 1) = mark extra * capacity extra := by
  decide +kernel

/-- A number and the mark of its first octet have no digit in common. -/
theorem toNat_or_markWord {extra : Nat} {v : UInt64} (hextra : extra < 8)
    (hroom : v.toNat < 2 ^ (7 - extra + 8 * extra)) :
    (v ||| markWord extra).toNat = (markWord extra).toNat + v.toNat := by
  have hapart := Nat.div_add_mod (markWord extra).toNat (2 ^ (7 - extra + 8 * extra))
  rw [(markWord_eq extra hextra).1, Nat.add_zero] at hapart
  rw [UInt64.toNat_or, Nat.or_comm, ← hapart]
  exact (Nat.two_pow_add_eq_or_of_lt hroom _).symm

/-- In the lowest octets of a word, the number and its mark are the number's form. -/
theorem bigEndian_or_markWord {extra : Nat} {v : UInt64} (hextra : extra < 8)
    (hroom : v.toNat < 2 ^ (7 - extra + 8 * extra)) :
    bigEndian (extra + 1) (v ||| markWord extra).toNat = form extra v := by
  apply bigEndian_congr
  rw [toNat_or_markWord hextra hroom, Nat.add_mod, (markWord_eq extra hextra).2, Nat.add_mod_mod]

/-- A number that fills a word follows an octet of ones. -/
theorem form_eight (v : UInt64) : form 8 v = 255 :: bigEndian 8 v.toNat := by
  have hlt : v.toNat < capacity 8 := v.toNat_lt
  have hfirst : (mark 8 * capacity 8 + v.toNat) / capacity 8 = 255 := by
    rw [Nat.mul_comm, Nat.mul_add_div (capacity_pos 8), Nat.div_eq_of_lt hlt]
    rfl
  have hothers : bigEndian 8 (mark 8 * capacity 8 + v.toNat) = bigEndian 8 v.toNat := by
    apply bigEndian_congr
    rw [Nat.mul_add_mod_self_right]
  rw [form, bigEndian_succ, hfirst, hothers]
  rfl

/-- A number of seven digits is an octet of its own. -/
theorem form_zero (v : UInt64) : form 0 v = [v.toUInt8] := by
  have hnumber : mark 0 * capacity 0 + v.toNat = v.toNat := Nat.zero_add _
  rw [form, hnumber, bigEndian_succ, capacity_zero, Nat.div_one]
  rfl

/-- Numbers are written in words as they are without bound. -/
theorem encodeWord_eq (v : UInt64) : encodeWord v = encodeUnsigned v := by
  have hcount := following_eq_octetCount v
  have hroom := lt_of_following v
  have hextra := following_lt v
  rw [encodeUnsigned_eq_form]
  unfold encodeWord
  split
  · have hzero : following v = 0 := by omega
    rw [hzero, form_zero]
  · split
    · have height : following v = 8 := by omega
      rw [height, form_eight]
    · -- up to eight octets are written, which fit a word together with the mark
      have hsucc : octetCount v = following v + 1 := by omega
      rw [hsucc, Nat.add_sub_cancel]
      exact bigEndian_or_markWord (by omega) hroom

/-! ## Reading -/

/-- The digits that are left in a first octet, moved up to their place in the number. -/
def upper (first : UInt8) : UInt64 :=
  if leadingOnes first = 8 then 0
  else (first &&& (255 >>> UInt8.ofNat (leadingOnes first))).toUInt64 <<<
    UInt64.ofNat (8 * leadingOnes first)

/-- The octets after the first one, as a word. -/
def lower (tail : List UInt8) : UInt64 :=
  UInt64.ofNat (ofBigEndian tail)

/-- No digit of a first octet is lost when they are moved up. -/
theorem toNat_upper : ∀ first : UInt8,
    (upper first).toNat =
      first.toNat % (1 <<< (7 - leadingOnes first)) * capacity (leadingOnes first) :=
  forall_octet (by decide +kernel)

/-- Where the first octet has announced the others, the sum of the two parts fits a word, and it
is the number that they spell. -/
theorem upper_add_lower {first : UInt8} {tail : List UInt8}
    (hlength : tail.length = leadingOnes first) :
    (upper first).toNat + (lower tail).toNat = spelled first tail := by
  have hlower : ofBigEndian tail < 2 ^ 64 :=
    Nat.lt_of_le_of_lt (Nat.le_add_left _ _) (spelled_lt_word hlength)
  rw [toNat_upper, lower, UInt64.toNat_ofNat', Nat.mod_eq_of_lt hlower, spelled]

end Vint
end RingRouting
