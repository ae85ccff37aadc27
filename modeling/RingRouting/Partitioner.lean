import RingRouting.Hash.Md5
import RingRouting.Hash.Murmur3
import RingRouting.PartitionKey
import RingRouting.Token

/-!
# Partitioners

A partitioner computes a token from the layout of a partition key.  It hashes
octets as they come, in any pieces.

Main definitions:

- `Partitioner.ofName?`: the partitioner that a class name stands for.
- `Hasher.write`, `Hasher.finish`: hashing piece by piece.
- `Partitioner.token`: the token of a partition key.
-/

namespace RingRouting

/-- How tokens are computed. -/
inductive Partitioner where
  /-- The first half of the Murmur3 hash; the default. -/
  | murmur3
  /-- The MD5 digest as a signed number, without its sign. -/
  | random
  /-- The first eight octets as they stand. -/
  | cdc
deriving DecidableEq

/-! ## Octets taken as they stand -/

/-- A hasher that takes its token from the first eight octets. -/
inductive VerbatimHasher where
  /-- Fewer than eight octets were fed. -/
  | feeding (received : List UInt8)
  /-- The token is known; whatever follows is ignored. -/
  | computed (value : Int64)
deriving DecidableEq

namespace VerbatimHasher

/-- The number of octets that make a token. -/
def tokenSize : Nat :=
  8

/-- Feeds octets. -/
def write : VerbatimHasher → List UInt8 → VerbatimHasher
  | feeding received, octets =>
    let received := received ++ octets.take (tokenSize - received.length)
    if received.length = tokenSize then
      computed (UInt64.ofNat (Octets.ofBigEndian received)).toInt64
    else
      feeding received
  | computed value, _ => computed value

/-- The token, once there are octets enough. -/
def finish : VerbatimHasher → Option Int64
  | feeding _ => none
  | computed value => some value

/-- The hasher's state in words. -/
def outline : VerbatimHasher → String
  | feeding received => s!"CDCPartitionerHasher(feeding, {received.length} bytes)"
  | computed value => s!"CDCPartitionerHasher(computed {value.toInt})"

end VerbatimHasher

/-! ## Hashers -/

/-- The state of a partitioner's hash. -/
inductive Hasher where
  | murmur3 (hasher : Murmur3.Hasher)
  /-- The digest is taken of everything written. -/
  | random (written : List UInt8)
  | cdc (hasher : VerbatimHasher)

namespace Hasher

/-- Feeds octets.  The Murmur3 hasher never refuses octets in a state it reaches;
one that did would stay as it is. -/
def write : Hasher → List UInt8 → Hasher
  | murmur3 hasher, octets =>
    match hasher.write octets with
    | .ok hasher => murmur3 hasher
    | .error _ => murmur3 hasher
  | random written, octets => random (written ++ octets)
  | cdc hasher, octets => cdc (hasher.write octets)

/-- The token of everything fed so far; `none` if the partitioner gives it none. -/
def finish : Hasher → Option Token
  | murmur3 hasher => some ⟨hasher.finish.toInt⟩
  | random written => some ⟨(Octets.toInt (Md5.digest written)).natAbs⟩
  | cdc hasher => hasher.finish.map fun value => ⟨value.toInt⟩

end Hasher

namespace Partitioner

/-- The partitioner used where none is named. -/
def default : Partitioner :=
  murmur3

/-- The partitioner's short name. -/
def name : Partitioner → String
  | murmur3 => "Murmur3"
  | random => "Random"
  | cdc => "CDC"

/-- The partitioner's class name, without qualification. -/
def className : Partitioner → String
  | murmur3 => "Murmur3Partitioner"
  | random => "RandomPartitioner"
  | cdc => "CDCPartitioner"

/-- Whether a name ends in the class name or is the short name. -/
def goesBy (partitioner : Partitioner) (name : String) : Bool :=
  partitioner.className.toList.isSuffixOf name.toList || name == partitioner.name

/-- The partitioner that a name stands for; a class name may be qualified in any
way. -/
def ofName? (name : String) : Option Partitioner :=
  [murmur3, random, cdc].find? fun partitioner => partitioner.goesBy name

/-- A hasher that was fed nothing. -/
def hasher : Partitioner → Hasher
  | murmur3 => .murmur3 .initial
  | random => .random []
  | cdc => .cdc (.feeding [])

/-- The token of octets fed in one piece. -/
def hash (partitioner : Partitioner) (octets : List UInt8) : Option Token :=
  (partitioner.hasher.write octets).finish

/-- The token of a key; the key may have no encoding, and the encoding no token. -/
def token (partitioner : Partitioner) (key : PartitionKey) : Except KeyError (Option Token) :=
  key.encode.map partitioner.hash

end Partitioner
end RingRouting
