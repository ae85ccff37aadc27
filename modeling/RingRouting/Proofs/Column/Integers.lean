import Mathlib.Algebra.Group.Nat.Defs
import RingRouting.Octets

/-!
# Integers in octets

A number takes as many octets as its binary digits need.  The shortest two's-complement
form of an integer keeps one binary digit for the sign, so that reading it gives the integer
back.

Main results:

- Theorem `Octets.bitLength_le_iff`: the number of binary digits, as a bound on the number.
- Theorem `Octets.bigEndian_succ`: the most significant octet, and those after it.
- Theorem `Octets.toInt_ofInt`: an integer survives its two's-complement form.
- Theorem `Octets.ofInt_toInt`: all other forms of an integer are longer.
-/

namespace RingRouting
namespace Octets

/-! ## Sizes -/

/-- Eight binary digits an octet. -/
theorem capacity_eq_two_pow (width : Nat) : capacity width = 2 ^ (8 * width) := by
  induction width with
  | zero => rfl
  | succ width ih =>
      have hsplit : 8 * (width + 1) = 8 * width + 8 := by omega
      rw [capacity_succ, ih, hsplit, Nat.pow_add]

/-- A number has at most `k` binary digits exactly when it lies below two to the `k`. -/
theorem bitLength_le_iff (n k : Nat) : bitLength n ≤ k ↔ n < 2 ^ k := by
  unfold bitLength
  split
  · rename_i hzero
    subst hzero
    exact ⟨fun _ => Nat.two_pow_pos k, fun _ => Nat.zero_le k⟩
  · rename_i hpos
    rw [Nat.succ_le_iff, Nat.log2_lt hpos]

/-- What 256 octets have in common, all octets have. -/
theorem forall_octet {p : UInt8 → Prop} (h : ∀ n < 256, p (UInt8.ofNat n)) (octet : UInt8) :
    p octet := by
  simpa only [UInt8.ofNat_toNat] using h octet.toNat octet.toNat_lt

/-! ## The most significant octet -/

theorem littleEndian_succ (width n : Nat) :
    littleEndian (width + 1) n = littleEndian width n ++ [UInt8.ofNat (n / capacity width)] := by
  induction width generalizing n with
  | zero => simp [littleEndian]
  | succ width ih =>
      have hdiv : n / 256 / capacity width = n / capacity (width + 1) := by
        rw [Nat.div_div_eq_div_mul, capacity_succ, Nat.mul_comm]
      rw [littleEndian, ih, hdiv]
      rfl

/-- The octets of a number: the most significant one, and those of what is left. -/
theorem bigEndian_succ (width n : Nat) :
    bigEndian (width + 1) n = UInt8.ofNat (n / capacity width) :: bigEndian width n := by
  rw [bigEndian, littleEndian_succ, List.reverse_append]
  rfl

/-- A number is read as it was written where the octets have room for it. -/
theorem ofBigEndian_bigEndian_of_lt {width n : Nat} (h : n < capacity width) :
    ofBigEndian (bigEndian width n) = n := by
  rw [ofBigEndian_bigEndian, Nat.mod_eq_of_lt h]

/-- The octets of a number depend on the digits that they have room for. -/
theorem bigEndian_congr {width m n : Nat} (h : m % capacity width = n % capacity width) :
    bigEndian width m = bigEndian width n := by
  have hread (k : Nat) : bigEndian width (k % capacity width) = bigEndian width k := by
    have hwritten := bigEndian_ofBigEndian (bigEndian width k)
    rwa [length_bigEndian, ofBigEndian_bigEndian] at hwritten
  rw [← hread m, h, hread]

/-! ## Two's complement -/

/-- An integer that leaves a binary digit for its sign is read as it was written. -/
theorem toInt_bigEndian {width : Nat} {n : Int} (hlow : -(capacity width : Int) ≤ 2 * n)
    (hhigh : 2 * n < capacity width) :
    toInt (bigEndian width (n % capacity width).toNat) = n := by
  have hpos := capacity_pos width
  have hread : ofBigEndian (bigEndian width (n % capacity width).toNat) =
      (n % capacity width).toNat := by
    apply ofBigEndian_bigEndian_of_lt
    have hlt := Int.emod_lt_of_pos n (b := capacity width) (by omega)
    omega
  unfold toInt
  simp only [hread, length_bigEndian]
  rcases Int.lt_or_le n 0 with hneg | hnonneg
  · have hwrapped : n % capacity width = n + capacity width := by
      rw [← Int.add_emod_right, Int.emod_eq_of_lt (by omega) (by omega)]
    rw [hwrapped, if_neg (by omega)]
    omega
  · rw [Int.emod_eq_of_lt hnonneg (by omega), if_pos (by omega)]
    omega

/-- The shortest form leaves a binary digit for the sign. -/
theorem signedWidth_bounds (n : Int) :
    -(capacity (signedWidth n) : Int) ≤ 2 * n ∧ 2 * n < capacity (signedWidth n) := by
  have hbits := (bitLength_le_iff (if n < 0 then (-n - 1).toNat else n.toNat)
    (8 * (signedWidth n) - 1)).1 (by unfold signedWidth; omega)
  have hcapacity : capacity (signedWidth n) = 2 ^ (8 * signedWidth n - 1) * 2 := by
    have hwidth : (8 * signedWidth n - 1) + 1 = 8 * signedWidth n := by
      unfold signedWidth
      omega
    rw [capacity_eq_two_pow, ← Nat.pow_succ, Nat.succ_eq_add_one, hwidth]
  rw [hcapacity]
  split at hbits
  · omega
  · omega

/-- An integer survives its shortest two's-complement form. -/
theorem toInt_ofInt (n : Int) : toInt (ofInt n) = n :=
  toInt_bigEndian (signedWidth_bounds n).1 (signedWidth_bounds n).2

/-- No integer is written in no octets. -/
theorem length_ofInt_pos (n : Int) : 0 < (ofInt n).length := by
  simp [ofInt, signedWidth]

/-- Eight octets are read as a signed number in either way. -/
theorem toInt64_ofBigEndian {octets : List UInt8} (h : octets.length = 8) :
    (UInt64.ofNat (ofBigEndian octets)).toInt64.toInt = toInt octets := by
  have hlt := ofBigEndian_lt octets
  rw [h] at hlt
  have hnumber : (UInt64.ofNat (ofBigEndian octets)).toInt64.toBitVec.toNat =
      ofBigEndian octets := Nat.mod_eq_of_lt hlt
  rw [← Int64.toInt_toBitVec, BitVec.toInt, hnumber, toInt, h]
  rfl

/-! ## The shortest form -/

theorem ofBigEndian_lt_of_length {octets : List UInt8} {width : Nat}
    (h : octets.length = width) : ofBigEndian octets < capacity width :=
  h ▸ ofBigEndian_lt octets

/-- A word as wide as the octets keeps all of the number they spell. -/
theorem bigEndian_ofBigEndian_mod {octets : List UInt8} {width size : Nat}
    (hlength : octets.length = width) (hsize : capacity width = size) :
    bigEndian width (ofBigEndian octets % size) = octets := by
  rw [← hsize, Nat.mod_eq_of_lt (ofBigEndian_lt_of_length hlength), ← hlength,
    bigEndian_ofBigEndian]

/-- What is read leaves a binary digit for its sign. -/
theorem toInt_bounds (octets : List UInt8) :
    -(capacity octets.length : Int) ≤ 2 * toInt octets ∧
      2 * toInt octets < capacity octets.length := by
  have hlt := ofBigEndian_lt octets
  unfold toInt
  simp only
  split
  · omega
  · omega

/-- Writing what was read, in as many octets, gives the octets back. -/
theorem bigEndian_toInt (octets : List UInt8) :
    bigEndian octets.length (toInt octets % capacity octets.length).toNat = octets := by
  have hlt := ofBigEndian_lt octets
  have hdigits : (toInt octets % capacity octets.length).toNat = ofBigEndian octets := by
    unfold toInt
    simp only
    split
    · rw [Int.emod_eq_of_lt (by omega) (by omega)]
      omega
    · rw [Int.sub_emod_right, Int.emod_eq_of_lt (by omega) (by omega)]
      omega
  rw [hdigits, bigEndian_ofBigEndian]

/-- No form of an integer that leaves a digit for the sign has fewer octets than the shortest
form. -/
theorem signedWidth_le {width : Nat} {n : Int} (hpos : 0 < width)
    (hlow : -(capacity width : Int) ≤ 2 * n) (hhigh : 2 * n < capacity width) :
    signedWidth n ≤ width := by
  have hcapacity : capacity width = 2 ^ (8 * width - 1) * 2 := by
    have hdigits : (8 * width - 1) + 1 = 8 * width := by omega
    rw [capacity_eq_two_pow, ← Nat.pow_succ, Nat.succ_eq_add_one, hdigits]
  have hbits : bitLength (if n < 0 then (-n - 1).toNat else n.toNat) ≤ 8 * width - 1 := by
    rw [bitLength_le_iff]
    split
    · omega
    · omega
  unfold signedWidth
  omega

/-- Octets that are read as an integer are its shortest form, or longer than it. -/
theorem ofInt_toInt {octets : List UInt8} (hsome : octets ≠ []) :
    octets = ofInt (toInt octets) ∨ (ofInt (toInt octets)).length < octets.length := by
  obtain ⟨hlow, hhigh⟩ := toInt_bounds octets
  have hwidth := signedWidth_le (List.length_pos_iff.2 hsome) hlow hhigh
  have hlength : (ofInt (toInt octets)).length = signedWidth (toInt octets) :=
    length_bigEndian _ _
  rcases Nat.lt_or_eq_of_le hwidth with hlt | heq
  · exact .inr (hlength ▸ hlt)
  · left
    rw [ofInt]
    simp only [heq]
    exact (bigEndian_toInt octets).symm

end Octets
end RingRouting
