/-!
# A generator of random words

The permuted congruential generator with 64 bits of state and 32-bit outputs, on
the stream whose increment is one.

Main definitions:

- `Pcg32.ofSeed`: the generator that a seed starts.
- `Pcg32.next32`, `Pcg32.next64`: the next output, and the generator after it.
-/

namespace RingRouting

/-- A generator between two outputs. -/
structure Pcg32 where
  state : UInt64
deriving DecidableEq

namespace Pcg32

/-- The state after one step. -/
def step (state : UInt64) : UInt64 :=
  state * 6364136223846793005 + 1

/-- The generator that a seed starts. -/
def ofSeed (seed : UInt64) : Pcg32 :=
  ⟨step (seed + 1)⟩

/-- Rotates to the right. -/
def rotateRight (v n : UInt32) : UInt32 :=
  (v >>> n) ||| (v <<< (32 - n))

/-- The output that belongs to a state. -/
def output (state : UInt64) : UInt32 :=
  rotateRight (((state >>> 18) ^^^ state) >>> 27).toUInt32 (state >>> 59).toUInt32

/-- The next 32-bit output. -/
def next32 (generator : Pcg32) : UInt32 × Pcg32 :=
  (output generator.state, ⟨step generator.state⟩)

/-- The next 64-bit output: two 32-bit ones, the lower half first. -/
def next64 (generator : Pcg32) : UInt64 × Pcg32 :=
  let (low, generator) := generator.next32
  let (high, generator) := generator.next32
  ((high.toUInt64 <<< 32) ||| low.toUInt64, generator)

end Pcg32
end RingRouting
