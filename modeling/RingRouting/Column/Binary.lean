/-!
# Binary floating-point numbers by their bits

A floating-point value is kept as its bits, so that every one of them, each of the
many not-a-number values included, is written back as it was read.  Comparison of
numbers is a relation of its own: zero equals minus zero, and a value that is not
a number equals nothing, not even itself.
-/

namespace RingRouting

/-- A 32-bit binary floating-point value. -/
structure Binary32 where
  bits : UInt32
deriving DecidableEq

/-- A 64-bit binary floating-point value. -/
structure Binary64 where
  bits : UInt64
deriving DecidableEq

/-- The bits below the sign. -/
def Binary32.magnitude (x : Binary32) : Nat :=
  x.bits.toNat % 0x80000000

/-- Whether the value is not a number: the exponent is full, the fraction not zero. -/
def Binary32.isNaN (x : Binary32) : Bool :=
  decide (0x7F800000 < x.magnitude)

/-- Whether the value is zero, of either sign. -/
def Binary32.isZero (x : Binary32) : Bool :=
  x.magnitude == 0

/-- Equality of numbers. -/
def Binary32.equal (x y : Binary32) : Bool :=
  !x.isNaN && !y.isNaN && (x == y || (x.isZero && y.isZero))

/-- The bits below the sign. -/
def Binary64.magnitude (x : Binary64) : Nat :=
  x.bits.toNat % 0x8000000000000000

/-- Whether the value is not a number: the exponent is full, the fraction not zero. -/
def Binary64.isNaN (x : Binary64) : Bool :=
  decide (0x7FF0000000000000 < x.magnitude)

/-- Whether the value is zero, of either sign. -/
def Binary64.isZero (x : Binary64) : Bool :=
  x.magnitude == 0

/-- Equality of numbers. -/
def Binary64.equal (x y : Binary64) : Bool :=
  !x.isNaN && !y.isNaN && (x == y || (x.isZero && y.isZero))

end RingRouting
