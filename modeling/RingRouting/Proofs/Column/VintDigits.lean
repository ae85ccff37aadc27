import Mathlib.Logic.Function.Defs
import RingRouting.Proofs.Column.VintWords

/-!
# Binary digits of variable-length integers

What a variable-length integer is can be read off the binary digits of its octets.  The ones at
the top of the first octet, before the first zero if there is one, say how many octets follow; the
digits after that zero and those of the octets that follow are the digits of the number.  The
reader takes just these octets, and finds nothing only where they are not all there.

Main definitions:

- `Octets.binary`: the digits of an octet.
- `Octets.ofBinary`: the number that has given digits.
- `Vint.topOnes`: the ones at the top of an octet.

Main results:

- Theorem `Octets.ofBinary_flatMap`: the digits of octets are those of the number they are.
- Theorem `Vint.spelled_eq_ofBinary`: what octets spell, by their digits.
- Theorem `Vint.decodeUnsigned_reads_digits`: the reader of variable-length integers, for all
  octets.
-/

namespace RingRouting

/-! ## Digits -/

namespace Octets

/-- The eight binary digits of an octet, most significant first. -/
def binary (octet : UInt8) : List Bool :=
  (List.range 8).map octet.toBitVec.getMsbD

/-- The number whose binary digits, most significant first, are `digits`. -/
def ofBinary (digits : List Bool) : Nat :=
  (BitVec.ofBoolListBE digits).toNat

@[simp]
theorem length_binary (octet : UInt8) : (binary octet).length = 8 := by
  simp [binary]

theorem ofBinary_cons (digit : Bool) (rest : List Bool) :
    ofBinary (digit :: rest) = digit.toNat * 2 ^ rest.length + ofBinary rest := by
  rw [ofBinary, BitVec.ofBoolListBE, BitVec.toNat_cons', Nat.shiftLeft_eq]
  rfl

theorem ofBinary_lt (digits : List Bool) : ofBinary digits < 2 ^ digits.length :=
  (BitVec.ofBoolListBE digits).isLt

theorem ofBinary_append (front rest : List Bool) :
    ofBinary (front ++ rest) = ofBinary front * 2 ^ rest.length + ofBinary rest := by
  induction front with
  | nil => simp [ofBinary, BitVec.ofBoolListBE]
  | cons digit front ih =>
      rw [List.cons_append, ofBinary_cons, ih, ofBinary_cons, List.length_append, Nat.add_mul,
        Nat.mul_assoc, ← Nat.pow_add, Nat.add_assoc]

/-- Without its highest digits, a number is what is left modulo a power of two. -/
theorem ofBinary_drop (digits : List Bool) (count : Nat) :
    ofBinary (digits.drop count) = ofBinary digits % 2 ^ (digits.length - count) := by
  have hsplit := ofBinary_append (digits.take count) (digits.drop count)
  have hlt := ofBinary_lt (digits.drop count)
  rw [List.take_append_drop] at hsplit
  rw [List.length_drop] at hsplit hlt
  rw [hsplit, Nat.mul_add_mod_self_right, Nat.mod_eq_of_lt hlt]

theorem ofBinary_binary : ∀ octet : UInt8, ofBinary (binary octet) = octet.toNat :=
  forall_octet (by decide +kernel)

theorem length_flatMap_binary (octets : List UInt8) :
    (octets.flatMap binary).length = 8 * octets.length := by
  induction octets with
  | nil => rfl
  | cons octet rest ih =>
      rw [List.flatMap_cons, List.length_append, length_binary, ih, List.length_cons]
      omega

/-- The digits of octets, one octet after the other, are the digits of their number. -/
theorem ofBinary_flatMap (octets : List UInt8) :
    ofBinary (octets.flatMap binary) = ofBigEndian octets := by
  induction octets with
  | nil => rfl
  | cons octet rest ih =>
      have hone : ofBigEndian [octet] = octet.toNat := by simp [ofBigEndian]
      rw [List.flatMap_cons, ofBinary_append, ofBinary_binary, ih, length_flatMap_binary,
        ← List.singleton_append, ofBigEndian_append, hone, capacity_eq_two_pow]

end Octets

/-! ## Variable-length integers -/

namespace Vint

open Octets

/-- How many ones stand at the top of an octet. -/
def topOnes (octet : UInt8) : Nat :=
  ((binary octet).takeWhile id).length

theorem leadingOnes_eq : ∀ octet : UInt8, leadingOnes octet = topOnes octet :=
  forall_octet (by decide +kernel)

/-- The digits of the number are those after the first zero of the first octet, and all of the
octets that follow. -/
theorem spelled_eq_ofBinary {first : UInt8} {tail : List UInt8}
    (hlength : tail.length = topOnes first) :
    spelled first tail =
      ofBinary ((binary first).drop (topOnes first + 1) ++ tail.flatMap binary) := by
  have hbelow : 8 - (topOnes first + 1) = 7 - topOnes first := by omega
  rw [ofBinary_append, ofBinary_flatMap, ofBinary_drop, ofBinary_binary, length_flatMap_binary,
    hlength, length_binary, hbelow, spelled, leadingOnes_eq, Nat.one_shiftLeft,
    capacity_eq_two_pow]

/-- Nothing is found where there are fewer octets than the first one calls for. -/
theorem decodeUnsigned_eq_none_iff {octets : List UInt8} :
    decodeUnsigned octets = none ↔
      octets = [] ∨ ∃ first ∈ octets.head?, octets.length < 1 + topOnes first := by
  cases octets with
  | nil => simp [decodeUnsigned]
  | cons first tail =>
      rw [decodeUnsigned_cons_eq_none_iff, leadingOnes_eq]
      simp [Nat.add_comm 1]

/-- What is found has the digits of the octets that the first one calls for. -/
theorem decodeUnsigned_eq_some_iff_digits {octets rest : List UInt8} {v : UInt64} :
    decodeUnsigned octets = some (v, rest) ↔
      ∃ first tail, octets = first :: tail ++ rest ∧ tail.length = topOnes first ∧
        v.toNat = ofBinary ((binary first).drop (topOnes first + 1) ++ tail.flatMap binary) := by
  rw [decodeUnsigned_eq_some_iff]
  constructor
  · rintro ⟨first, tail, hoctets, hlength, hv⟩
    rw [leadingOnes_eq] at hlength
    exact ⟨first, tail, hoctets, hlength, hv.trans (spelled_eq_ofBinary hlength)⟩
  · rintro ⟨first, tail, hoctets, hlength, hv⟩
    refine ⟨first, tail, hoctets, hlength.trans (leadingOnes_eq first).symm, ?_⟩
    exact hv.trans (spelled_eq_ofBinary hlength).symm

/-- The two parts of a number are added without a carry, and the sum is read. -/
theorem decodeUnsigned_eq_sum {first : UInt8} {tail : List UInt8}
    (hlength : tail.length = topOnes first) :
    (upper first).toNat + (lower tail).toNat < 2 ^ 64 ∧
      ∀ rest, decodeUnsigned (first :: tail ++ rest) = some (upper first + lower tail, rest) := by
  rw [← leadingOnes_eq] at hlength
  have hsum := upper_add_lower hlength
  have hfits : (upper first).toNat + (lower tail).toNat < 2 ^ 64 :=
    hsum ▸ spelled_lt_word hlength
  refine ⟨hfits, fun rest => decodeUnsigned_eq_some_iff.2 ⟨first, tail, rfl, hlength, ?_⟩⟩
  rw [UInt64.toNat_add, Nat.mod_eq_of_lt hfits, hsum]

/-- Places and signed numbers are one to one. -/
theorem deinterleave_bijective : Function.Bijective deinterleave :=
  ⟨Function.LeftInverse.injective interleave_deinterleave,
    Function.RightInverse.surjective deinterleave_interleave⟩

/-- What is read of any octets.  Nothing is found if there are none, or fewer than the ones at the
top of the first octet call for.  Otherwise exactly these are taken, and the digits that are left
in the first octet are with those of the octets after it the digits of the number: a sum of two
words, without a carry.  The signed number at that place is half of it, turned over if it is odd;
each signed number has one place, and so is read from some octets. -/
theorem decodeUnsigned_reads_digits :
    (∀ octets, decodeUnsigned octets = none ↔
      octets = [] ∨ ∃ first ∈ octets.head?, octets.length < 1 + topOnes first) ∧
    (∀ octets rest v, decodeUnsigned octets = some (v, rest) ↔
      ∃ first tail, octets = first :: tail ++ rest ∧ tail.length = topOnes first ∧
        v.toNat = ofBinary ((binary first).drop (topOnes first + 1) ++ tail.flatMap binary)) ∧
    (∀ first tail, tail.length = topOnes first →
      (upper first).toNat + (lower tail).toNat < 2 ^ 64 ∧
      ∀ rest, decodeUnsigned (first :: tail ++ rest) = some (upper first + lower tail, rest)) ∧
    (∀ octets, decode octets = (decodeUnsigned octets).map (Prod.map deinterleave id)) ∧
    (∀ v, deinterleave v = (v >>> 1).toInt64 ^^^ -(v &&& 1).toInt64) ∧
    Function.Bijective deinterleave ∧
    ∀ v, ∃ octets, decode octets = some (v, []) := by
  refine ⟨fun octets => decodeUnsigned_eq_none_iff,
    fun octets rest v => decodeUnsigned_eq_some_iff_digits,
    fun first tail hlength => decodeUnsigned_eq_sum hlength, fun octets => rfl,
    deinterleave_eq_xor, deinterleave_bijective, fun v => ⟨encode v, ?_⟩⟩
  have hread := decode_encode v []
  rwa [List.append_nil] at hread

/-- Nine octets of ones are the greatest number that a word has. -/
theorem decodeUnsigned_reads_digits_of_ones :
    (List.replicate 8 (0xFF : UInt8)).length = topOnes 0xFF ∧
      (upper 0xFF).toNat + (lower (List.replicate 8 0xFF)).toNat < 2 ^ 64 ∧
      decodeUnsigned (0xFF :: List.replicate 8 0xFF ++ [0x2A]) =
        some (0xFFFFFFFFFFFFFFFF, [0x2A]) := by
  have hlength : (List.replicate 8 (0xFF : UInt8)).length = topOnes 0xFF := by decide
  obtain ⟨hfits, hread⟩ := decodeUnsigned_reads_digits.2.2.1 _ _ hlength
  refine ⟨hlength, hfits, (hread [0x2A]).trans ?_⟩
  decide

end Vint
end RingRouting
