import Mathlib.Logic.ExistsUnique
import RingRouting.Proofs.Column.VintWords

/-!
# The forms of a signed number

A signed number has more than one form that is read as it: zeros may stand above its digits, and
the first octet then announces more octets than there have to be.  There is one form of each
length, from that of the fewest octets which have room for the number to that of nine.  Writing
gives the one of the fewest octets, and tells by itself where it ends.

Main results:

- Theorem `Vint.decode_eq_some_iff_form`: all octets that are read as a number.
- Theorem `Vint.length_encode_le_iff`: the numbers that a length has room for.
- Theorem `Vint.exists_unique_form`: one form of each length.
- Theorem `Vint.encode_uniquely_shortest`: the form that is written, among all others.
-/

namespace RingRouting
namespace Vint

/-! ## Lengths -/

theorem length_encode (v : Int64) : (encode v).length = following (interleave v) + 1 :=
  length_form _ _

/-- Up to eight octets leave seven digits each for the place of the number. -/
theorem following_le_iff {v : UInt64} {extra : Nat} (hextra : extra < 8) :
    following v ≤ extra ↔ v.toNat < 2 ^ (7 * extra + 7) := by
  have hdigits : 7 - extra + 8 * extra = 7 * extra + 7 := by omega
  constructor
  · intro hle
    exact Nat.lt_of_lt_of_le (lt_of_following v) (Nat.pow_le_pow_right (by decide) (by omega))
  · intro hroom
    rw [← hdigits] at hroom
    exact following_le (by omega) hroom

/-- Up to eight octets leave seven digits each for the number, one of them for its sign. -/
theorem length_encode_le_iff {v : Int64} {extra : Nat} (hextra : extra < 8) :
    (encode v).length ≤ extra + 1 ↔
      -2 ^ (7 * extra + 6) ≤ v.toInt ∧ v.toInt < 2 ^ (7 * extra + 6) := by
  have hplace := toNat_interleave v
  have hdouble : (2 : Int) ^ (7 * extra + 7) = 2 * 2 ^ (7 * extra + 6) := by
    rw [Int.pow_succ, Int.mul_comm]
  rw [length_encode, Nat.add_le_add_iff_right, following_le_iff hextra, ← Int.ofNat_lt, hplace]
  push_cast
  rw [hdouble]
  split <;> omega

/-! ## All forms -/

/-- What is read as a signed number is a form of its place that has room for it. -/
theorem decode_eq_some_iff_form {octets rest : List UInt8} {v : Int64} :
    decode octets = some (v, rest) ↔
      ∃ extra, following (interleave v) ≤ extra ∧ extra < 9 ∧
        octets = form extra (interleave v) ++ rest :=
  decode_eq_some_iff_place.trans decodeUnsigned_eq_some_iff_form

/-- Of each length that has room for a number, up to nine octets, one form is read as it. -/
theorem exists_unique_form {v : Int64} {length : Nat} (hroom : (encode v).length ≤ length)
    (hlength : length ≤ 9) :
    ∃! octets : List UInt8, octets.length = length ∧ decode octets = some (v, []) := by
  rw [length_encode] at hroom
  refine ⟨form (length - 1) (interleave v), ⟨?_, ?_⟩, ?_⟩
  · rw [length_form]
    omega
  · exact decode_eq_some_iff_form.2
      ⟨length - 1, by omega, by omega, (List.append_nil _).symm⟩
  · rintro octets ⟨hoctets, hread⟩
    obtain ⟨extra, -, -, hform⟩ := decode_eq_some_iff_form.1 hread
    rw [List.append_nil] at hform
    -- the length tells how many octets the first one has announced, which settles the form
    have hextra : extra = length - 1 := by
      rw [hform, length_form] at hoctets
      omega
    rw [hform, hextra]

/-- A signed number is read as it was written, whatever follows, which is left as it is.  The
octets that are written, one to nine of them, are the only ones of the fewest that are read as the
number and no more: all others are longer, and there is one of each length up to nine.  How many
they are is told by the digits of the number and its sign, seven to an octet; and shifts and masks
of words write the same. -/
theorem encode_uniquely_shortest (v : Int64) :
    (∀ rest, decode (encode v ++ rest) = some (v, rest)) ∧
    (∀ octets, decode octets = some (v, []) → octets ≠ encode v →
      (encode v).length < octets.length) ∧
    (1 ≤ (encode v).length ∧ (encode v).length ≤ 9) ∧
    (∀ length, (encode v).length ≤ length → length ≤ 9 →
      ∃! octets : List UInt8, octets.length = length ∧ decode octets = some (v, [])) ∧
    (∀ extra < 8, (encode v).length ≤ extra + 1 ↔
      -2 ^ (7 * extra + 6) ≤ v.toInt ∧ v.toInt < 2 ^ (7 * extra + 6)) ∧
    encode v = encodeWord ((v >>> 63) ^^^ (v <<< 1)).toUInt64 := by
  have hlength := length_encode v
  have hfollowing := following_lt (interleave v)
  refine ⟨decode_encode v, ?_, ⟨by omega, by omega⟩, ?_, ?_, ?_⟩
  · intro octets hread hother
    obtain ⟨used, hused, hform⟩ := encode_shortest hread
    rw [List.append_nil] at hused
    subst hused
    exact hform.resolve_left hother
  · exact fun length hroom hbound => exists_unique_form hroom hbound
  · exact fun extra hextra => length_encode_le_iff hextra
  · rw [encodeWord_eq, ← interleave_eq_xor, encode]

/-- The number 64 takes two octets; one form of three octets is read as it as well. -/
theorem encode_uniquely_shortest_of_third_octet :
    (decode [0xC0, 0x00, 0x80] = some (64, []) ∧ [0xC0, 0x00, 0x80] ≠ encode 64 ∧
      (encode 64).length < [(0xC0 : UInt8), 0x00, 0x80].length) ∧
    (encode 64).length ≤ 3 ∧
      ∃! octets : List UInt8, octets.length = 3 ∧ decode octets = some (64, []) := by
  have hread : decode [0xC0, 0x00, 0x80] = some (64, []) := by decide
  have hother : [0xC0, 0x00, 0x80] ≠ encode 64 := by decide
  have hroom : (encode 64).length ≤ 3 := by decide
  obtain ⟨-, hlonger, -, hone, -⟩ := encode_uniquely_shortest 64
  exact ⟨⟨hread, hother, hlonger _ hread hother⟩, hroom, hone 3 hroom (by decide)⟩

/-- The least number fills all nine octets. -/
example : encode Int64.minValue = List.replicate 9 0xFF := by decide

end Vint
end RingRouting
