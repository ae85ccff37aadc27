import RingRouting.Octets

/-!
# Murmur3, fed piece by piece

The first half of the 128-bit Murmur3 hash for 64-bit machines, with seed zero, in
signed words that wrap around.  Octets of the last, incomplete block are
sign-extended before they enter the hash, and the least 64-bit number, which no ring
uses as a token, becomes the greatest.

The hasher keeps two lanes, the octets of the incomplete block in a buffer of
sixteen, and the total length.  Its `write` is checked throughout: it refuses to read
octets where none are left, to overwrite octets past the buffer's end, and to go on
where a condition that it relies on fails.

Main definitions:

- `Writing.completeBlock`, `Writing.takeBlocks`, `Writing.keepRest`: the stretches of a
  write.
- `Hasher.write`: feeds octets.
- `Hasher.finish`: the hash of everything fed so far.
-/

namespace RingRouting
namespace Murmur3

open Octets

/-! ## Mixing -/

/-- The two halves of the hash. -/
structure Lanes where
  h1 : Int64
  h2 : Int64
deriving DecidableEq

/-- Shifts to the right and fills up with zeros, whatever the sign. -/
def shiftRight (v : Int64) (n : Nat) : Int64 :=
  (v.toUInt64 >>> UInt64.ofNat n).toInt64

/-- Rotates to the left. -/
def rotate (v : Int64) (n : Nat) : Int64 :=
  (v <<< Int64.ofNat n) ||| shiftRight v (64 - n)

/-- The first multiplier. -/
def c1 : Int64 :=
  (0x87C37B91114253D5 : UInt64).toInt64

/-- The second multiplier. -/
def c2 : Int64 :=
  (0x4CF5AD432745937F : UInt64).toInt64

/-- What a block's first word contributes to the first lane. -/
def scramble1 (k : Int64) : Int64 :=
  rotate (k * c1) 31 * c2

/-- What a block's second word contributes to the second lane. -/
def scramble2 (k : Int64) : Int64 :=
  rotate (k * c2) 33 * c1

/-- Takes a block of two words into the lanes. -/
def Lanes.mix (lanes : Lanes) (k1 k2 : Int64) : Lanes :=
  let h1 := (rotate (lanes.h1 ^^^ scramble1 k1) 27 + lanes.h2) * 5 + 0x52DCE729
  let h2 := (rotate (lanes.h2 ^^^ scramble2 k2) 31 + h1) * 5 + 0x38495AB5
  ⟨h1, h2⟩

/-- The final avalanche of a lane. -/
def avalanche (k : Int64) : Int64 :=
  let k := (k ^^^ shiftRight k 33) * (0xFF51AFD7ED558CCD : UInt64).toInt64
  let k := (k ^^^ shiftRight k 33) * (0xC4CEB9FE1A85EC53 : UInt64).toInt64
  k ^^^ shiftRight k 33

/-! ## Blocks -/

/-- The number of octets in a block. -/
def blockSize : Nat :=
  16

/-- The word that up to eight octets spell, least significant first. -/
def word (octets : List UInt8) : Int64 :=
  (UInt64.ofNat (ofLittleEndian octets)).toInt64

/-! ## Checked steps -/

/-- What may stop a hasher. -/
inductive Fault where
  /-- Octets would be read or overwritten where there are none. -/
  | outOfRange
  /-- Octets would be copied over octets of another number. -/
  | lengthMismatch
  /-- A condition that the hasher relies on fails. -/
  | brokenCondition
deriving DecidableEq

/-- Refuses to go on unless the condition holds. -/
def ensure (condition : Bool) : Except Fault Unit :=
  if condition then .ok () else .error .brokenCondition

/-- The first `count` octets. -/
def front (octets : List UInt8) (count : Nat) : Except Fault (List UInt8) :=
  if count ≤ octets.length then .ok (octets.take count) else .error .outOfRange

/-- The octets after the first `count`. -/
def advance (octets : List UInt8) (count : Nat) : Except Fault (List UInt8) :=
  if count ≤ octets.length then .ok (octets.drop count) else .error .outOfRange

/-- Reads a word of eight octets; also the octets after it. -/
def readWord (octets : List UInt8) : Except Fault (Int64 × List UInt8) :=
  if 8 ≤ octets.length then .ok (word (octets.take 8), octets.drop 8) else .error .outOfRange

/-- Reads the two words of a block; also the octets after it. -/
def readBlock (octets : List UInt8) : Except Fault (Int64 × Int64 × List UInt8) := do
  let (k1, octets) ← readWord octets
  let (k2, octets) ← readWord octets
  return (k1, k2, octets)

/-- Copies octets over the `count` octets of the buffer that begin at a position. -/
def store (buffer : Vector UInt8 16) (position count : Nat) (octets : List UInt8) :
    Except Fault (Vector UInt8 16) :=
  if hrange : position + count ≤ 16 then
    if hlength : octets.length = count then
      let before := buffer.toList.take position
      let after := buffer.toList.drop (position + count)
      have hsize : (before ++ octets ++ after).toArray.size = 16 := by
        simp only [before, after, List.size_toArray, List.length_append, List.length_take,
          List.length_drop, Vector.length_toList]
        omega
      .ok ⟨(before ++ octets ++ after).toArray, hsize⟩
    else .error .lengthMismatch
  else .error .outOfRange

/-! ## Writing -/

/-- A write under way: how many octets of the incomplete block are in the buffer, the buffer, the
lanes, and the octets that are still to be taken in. -/
structure Writing where
  filled : Nat
  buffer : Vector UInt8 16
  lanes : Lanes
  rest : List UInt8

namespace Writing

/-- If the octets complete a block that was begun in the buffer, fills it and hashes it, which
leaves the buffer empty. -/
def completeBlock (writing : Writing) : Except Fault Writing := do
  if 0 < writing.filled ∧ blockSize - writing.filled ≤ writing.rest.length then
    let count := min (blockSize - writing.filled) writing.rest.length
    let buffer ← store writing.buffer writing.filled count (← front writing.rest count)
    let rest ← advance writing.rest count
    ensure (writing.filled + count = blockSize)
    let (k1, k2, left) ← readBlock buffer.toList
    ensure left.isEmpty
    return ⟨0, buffer, writing.lanes.mix k1 k2, rest⟩
  else
    return writing

/-- Hashes blocks straight from the octets for as long as there are whole ones, in so many turns
at most. -/
def hashBlocks : (turns : Nat) → Lanes → List UInt8 → Except Fault (Lanes × List UInt8)
  | 0, lanes, octets => .ok (lanes, octets)
  | turns + 1, lanes, octets =>
    if blockSize ≤ octets.length then do
      let (k1, k2, octets) ← readBlock octets
      hashBlocks turns (lanes.mix k1 k2) octets
    else .ok (lanes, octets)

/-- With an empty buffer, hashes all whole blocks.  Each turn takes octets, so that there are
turns enough. -/
def takeBlocks (writing : Writing) : Except Fault Writing := do
  if writing.filled = 0 then
    let (lanes, rest) ← hashBlocks writing.rest.length writing.lanes writing.rest
    return { writing with lanes := lanes, rest := rest }
  else
    return writing

/-- Keeps the octets that are left, which complete no block, in the buffer. -/
def keepRest (writing : Writing) : Except Fault Writing := do
  ensure (writing.rest.length < blockSize - writing.filled)
  let count := writing.rest.length
  let buffer ← store writing.buffer writing.filled count (← front writing.rest count)
  let rest ← advance writing.rest count
  ensure rest.isEmpty
  return { writing with buffer := buffer, rest := rest }

end Writing

/-! ## The hasher -/

/-- A hasher between two writes.  The first `total % 16` octets of the buffer are
those of the incomplete block. -/
structure Hasher where
  total : Nat
  buffer : Vector UInt8 16
  lanes : Lanes
deriving DecidableEq

/-- A hasher that was fed nothing. -/
def Hasher.initial : Hasher :=
  ⟨0, Vector.replicate 16 0, ⟨0, 0⟩⟩

/-- A hasher that is about to take in octets. -/
def Hasher.begin (hasher : Hasher) (octets : List UInt8) : Writing :=
  ⟨hasher.total % blockSize, hasher.buffer, hasher.lanes, octets⟩

/-- Feeds octets. -/
def Hasher.write (hasher : Hasher) (octets : List UInt8) : Except Fault Hasher := do
  let writing ← (hasher.begin octets).completeBlock
  let writing ← writing.takeBlocks
  let writing ← writing.keepRest
  return ⟨hasher.total + octets.length, writing.buffer, writing.lanes⟩

/-! ## The result -/

/-- An octet as a word with its sign carried up. -/
def signExtend (octet : UInt8) : Int64 :=
  octet.toInt8.toInt64

/-- The word of up to eight octets of an incomplete block, taken in from the last one to
the first. -/
def tailWord (octets : List UInt8) : Int64 :=
  octets.zipIdx.foldr (fun (octet, i) k => k ^^^ (signExtend octet <<< Int64.ofNat (8 * i))) 0

/-- Takes the octets of an incomplete block into the lanes. -/
def Lanes.mixTail (lanes : Lanes) (octets : List UInt8) : Lanes :=
  let h2 :=
    if 8 < octets.length then lanes.h2 ^^^ scramble2 (tailWord (octets.drop 8)) else lanes.h2
  let h1 :=
    if 0 < octets.length then lanes.h1 ^^^ scramble1 (tailWord (octets.take 8)) else lanes.h1
  ⟨h1, h2⟩

/-- The first half of the hash, from the lanes and the total length. -/
def Lanes.conclude (lanes : Lanes) (total : Nat) : Int64 :=
  let h1 := lanes.h1 ^^^ Int64.ofNat total
  let h2 := lanes.h2 ^^^ Int64.ofNat total
  let h1 := h1 + h2
  let h2 := h2 + h1
  avalanche h1 + avalanche h2

/-- The least 64-bit number becomes the greatest; all others stay. -/
def normalize (hash : Int64) : Int64 :=
  if hash = Int64.minValue then Int64.maxValue else hash

/-- The hash of everything fed so far. -/
def Hasher.finish (hasher : Hasher) : Int64 :=
  let pending := hasher.buffer.toList.take (hasher.total % blockSize)
  normalize ((hasher.lanes.mixTail pending).conclude hasher.total)

end Murmur3
end RingRouting
