import RingRouting.Octets

/-!
# MD5

The message digest of RFC 1321: sixteen octets for any octets.  The message is
padded with one set bit, zeros and its length in bits to blocks of sixty-four
octets, which are taken one after another into four 32-bit words.

Main definitions:

- `digest`: the digest of some octets.
-/

namespace RingRouting
namespace Md5

open Octets

/-- The chaining words. -/
structure Words where
  a : UInt32
  b : UInt32
  c : UInt32
  d : UInt32
deriving DecidableEq

/-- The words before any block. -/
def Words.initial : Words :=
  ⟨0x67452301, 0xEFCDAB89, 0x98BADCFE, 0x10325476⟩

/-- The constant added in each of the sixty-four rounds: the first 32 fractional
bits of the sine of the round's number, counted from one. -/
def sines : Array UInt32 :=
  #[0xD76AA478, 0xE8C7B756, 0x242070DB, 0xC1BDCEEE, 0xF57C0FAF, 0x4787C62A, 0xA8304613,
    0xFD469501, 0x698098D8, 0x8B44F7AF, 0xFFFF5BB1, 0x895CD7BE, 0x6B901122, 0xFD987193,
    0xA679438E, 0x49B40821, 0xF61E2562, 0xC040B340, 0x265E5A51, 0xE9B6C7AA, 0xD62F105D,
    0x02441453, 0xD8A1E681, 0xE7D3FBC8, 0x21E1CDE6, 0xC33707D6, 0xF4D50D87, 0x455A14ED,
    0xA9E3E905, 0xFCEFA3F8, 0x676F02D9, 0x8D2A4C8A, 0xFFFA3942, 0x8771F681, 0x6D9D6122,
    0xFDE5380C, 0xA4BEEA44, 0x4BDECFA9, 0xF6BB4B60, 0xBEBFBC70, 0x289B7EC6, 0xEAA127FA,
    0xD4EF3085, 0x04881D05, 0xD9D4D039, 0xE6DB99E5, 0x1FA27CF8, 0xC4AC5665, 0xF4292244,
    0x432AFF97, 0xAB9423A7, 0xFC93A039, 0x655B59C3, 0x8F0CCC92, 0xFFEFF47D, 0x85845DD1,
    0x6FA87E4F, 0xFE2CE6E0, 0xA3014314, 0x4E0811A1, 0xF7537E82, 0xBD3AF235, 0x2AD7D2BB,
    0xEB86D391]

/-- How far each round rotates: four amounts in turn, for each sixteen rounds. -/
def rotations (round : Nat) : UInt32 :=
  #[7, 12, 17, 22, 5, 9, 14, 20, 4, 11, 16, 23, 6, 10, 15, 21].getD
    (round / 16 * 4 + round % 4) 0

/-- The word of the block that a round uses. -/
def schedule (round : Nat) : Nat :=
  match round / 16 with
  | 0 => round
  | 1 => (5 * round + 1) % 16
  | 2 => (3 * round + 5) % 16
  | _ => 7 * round % 16

/-- The round's function of three words. -/
def combine (round : Nat) (b c d : UInt32) : UInt32 :=
  match round / 16 with
  | 0 => (b &&& c) ||| (~~~b &&& d)
  | 1 => (d &&& b) ||| (~~~d &&& c)
  | 2 => b ^^^ c ^^^ d
  | _ => c ^^^ (b ||| ~~~d)

/-- Rotates to the left. -/
def rotate (v n : UInt32) : UInt32 :=
  (v <<< n) ||| (v >>> (32 - n))

/-- One round over a block of sixteen words. -/
def Words.round (block : Array UInt32) (words : Words) (round : Nat) : Words :=
  let sum := combine round words.b words.c words.d + words.a + sines.getD round 0
    + block.getD (schedule round) 0
  ⟨words.d, words.b + rotate sum (rotations round), words.b, words.c⟩

/-- The 32-bit words of some octets, least significant octet first. -/
def blockWords (octets : List UInt8) : Array UInt32 :=
  (Array.range 16).map fun i =>
    UInt32.ofNat (ofLittleEndian ((octets.drop (4 * i)).take 4))

/-- Takes a block of sixty-four octets into the words. -/
def Words.absorb (words : Words) (block : List UInt8) : Words :=
  let after := (List.range 64).foldl (Words.round (blockWords block)) words
  ⟨words.a + after.a, words.b + after.b, words.c + after.c, words.d + after.d⟩

/-- Takes the first `count` blocks of some octets into the words. -/
def Words.absorbBlocks (words : Words) : (count : Nat) → List UInt8 → Words
  | 0, _ => words
  | count + 1, octets =>
    (words.absorb (octets.take 64)).absorbBlocks count (octets.drop 64)

/-- The message with its padding: a set bit, zeros, and the length in bits. -/
def pad (message : List UInt8) : List UInt8 :=
  let zeros := (119 - message.length % 64) % 64
  message ++ 0x80 :: (List.replicate zeros 0 ++ littleEndian 8 (8 * message.length))

/-- The octets of the words. -/
def Words.toOctets (words : Words) : List UInt8 :=
  littleEndian 4 words.a.toNat ++ littleEndian 4 words.b.toNat
    ++ littleEndian 4 words.c.toNat ++ littleEndian 4 words.d.toNat

/-- The digest of some octets. -/
def digest (message : List UInt8) : List UInt8 :=
  let padded := pad message
  (Words.initial.absorbBlocks (padded.length / 64) padded).toOctets

@[simp]
theorem length_digest (message : List UInt8) : (digest message).length = 16 := by
  simp [digest, Words.toOctets]

end Md5
end RingRouting
