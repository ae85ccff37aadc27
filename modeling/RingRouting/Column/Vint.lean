import RingRouting.Octets

/-!
# Variable-length integers

A number below `2 ^ 64` takes one to nine octets.  The leading one bits of the
first octet count the octets after it; the remaining bits of the first octet and
the octets after it hold the number, most significant first.  Signed numbers are
interleaved with unsigned ones: `0, -1, 1, -2, 2, …` become `0, 1, 2, 3, 4, …`.

Main definitions:

- `encodeUnsigned`, `decodeUnsigned`: the unsigned form.
- `interleave`, `deinterleave`: signed numbers as unsigned ones, and back.
- `encode`, `decode`: the signed form.
-/

namespace RingRouting
namespace Vint

open Octets

/-! ## Signed numbers as unsigned ones -/

/-- The place of `v` in `0, -1, 1, -2, 2, …`. -/
def interleave (v : Int64) : UInt64 :=
  if v.toInt < 0 then UInt64.ofNat (2 * (-v.toInt - 1).toNat + 1)
  else UInt64.ofNat (2 * v.toInt.toNat)

/-- The number at place `v` of `0, -1, 1, -2, 2, …`. -/
def deinterleave (v : UInt64) : Int64 :=
  if v.toNat % 2 = 0 then Int64.ofInt (v.toNat / 2) else Int64.ofInt (-(v.toNat / 2 : Nat) - 1)

/-! ## The unsigned form -/

/-- How many octets follow the first one.  Every octet carries seven bits of its
own, so `b` bits need `b / 7` octets, rounded up; the ninth octet carries eight. -/
def following (v : UInt64) : Nat :=
  (9 * bitLength v.toNat + 63) / 64 - 1

/-- The first octet's mark: `following` one bits at the top. -/
def mark (following : Nat) : Nat :=
  256 - 256 >>> following

/-- Writes an unsigned number. -/
def encodeUnsigned (v : UInt64) : List UInt8 :=
  let extra := following v
  bigEndian (extra + 1) (mark extra * capacity extra + v.toNat)

/-- The number of one bits above the highest zero bit. -/
def leadingOnes (octet : UInt8) : Nat :=
  ((List.range 8).takeWhile fun i => octet.toNat.testBit (7 - i)).length

/-- Reads an unsigned number and gives what follows it; `none` if the octets end
before the number does. -/
def decodeUnsigned : List UInt8 → Option (UInt64 × List UInt8)
  | [] => none
  | first :: rest =>
    let extra := leadingOnes first
    if rest.length < extra then none
    else
      let high := first.toNat % (1 <<< (7 - extra))
      some (UInt64.ofNat (high * capacity extra + ofBigEndian (rest.take extra)), rest.drop extra)

/-! ## The signed form -/

/-- Writes a signed number. -/
def encode (v : Int64) : List UInt8 :=
  encodeUnsigned (interleave v)

/-- Reads a signed number and gives what follows it. -/
def decode (octets : List UInt8) : Option (Int64 × List UInt8) :=
  (decodeUnsigned octets).map fun (v, rest) => (deinterleave v, rest)

/-- Writes a 16-bit length, most significant octet first. -/
def encodeShort (v : UInt16) : List UInt8 :=
  bigEndian 2 v.toNat

end Vint
end RingRouting
