import Mathlib.Algebra.Ring.Int.Defs
import RingRouting.Proofs.Hash.Pieces

/-!
# Where tokens lie

The tokens of each partitioner lie in a range of the ring.  The Murmur3 hash never gives the least
64-bit number.  A digest of sixteen octets, read as a signed number, may be the least of its size,
whose absolute value is one more than the greatest: two to the 127.  Octets taken as they stand
give all 64-bit numbers.

Main results:

- Theorem `Octets.natAbs_toInt`: the absolute value of a signed number, from its digits.
- Theorem `Murmur3.normalize_bounds`: the hash is not the least number.
- Theorem `Partitioner.tokens_in_range`: the tokens that keys have under each partitioner.
-/

namespace RingRouting

/-! ## Absolute values -/

/-- Without its sign, a number in two's complement is as far from zero as its digits are from zero
or from the next power, whichever is nearer. -/
theorem Octets.natAbs_toInt (octets : List UInt8) :
    (toInt octets).natAbs =
      min (ofBigEndian octets) (capacity octets.length - ofBigEndian octets) := by
  have hlt := ofBigEndian_lt octets
  unfold toInt
  simp only
  split
  · omega
  · omega

/-! ## The least number -/

/-- The least number is replaced, so that all others are left. -/
theorem Murmur3.normalize_bounds (hash : Int64) :
    -2 ^ 63 + 1 ≤ (normalize hash).toInt ∧ (normalize hash).toInt ≤ 2 ^ 63 - 1 := by
  have hlow := (normalize hash).le_toInt
  have hhigh := (normalize hash).toInt_lt
  have hleast : Int64.minValue.toInt = -2 ^ 63 := by decide
  have hother : (normalize hash).toInt ≠ Int64.minValue.toInt := by
    rw [ne_eq, Int64.toInt_inj, normalize]
    split
    · decide
    · assumption
  omega

namespace Partitioner

open Octets

/-- The Murmur3 hasher always has a token, and normalizes it. -/
theorem exists_murmur3_hash (octets : List UInt8) :
    ∃ word, murmur3.hash octets = some ⟨(Murmur3.normalize word).toInt⟩ := by
  simp only [hash, hasher, Hasher.write]
  split
  · exact ⟨_, rfl⟩
  · exact ⟨_, rfl⟩

/-- The tokens of a key that has an encoding.  Under Murmur3 it has one above the least 64-bit
number.  Under MD5 it has one between zero and two to the 127, the digest or what the digest lacks
to two to the 128, whichever is less.  Where octets are taken as they stand it has one exactly if
there are eight of them, and this is any 64-bit number. -/
theorem tokens_in_range {key : PartitionKey} {octets : List UInt8}
    (hencode : key.encode = .ok octets) :
    let digest := ofBigEndian (Md5.digest octets)
    (∃ token, murmur3.token key = .ok (some token) ∧
      -2 ^ 63 + 1 ≤ token.value ∧ token.value ≤ 2 ^ 63 - 1) ∧
    (∃ token, random.token key = .ok (some token) ∧ 0 ≤ token.value ∧ token.value ≤ 2 ^ 127 ∧
      token.value = min (digest : Int) (2 ^ 128 - digest)) ∧
    (∀ token, cdc.token key = .ok (some token) →
      -2 ^ 63 ≤ token.value ∧ token.value ≤ 2 ^ 63 - 1) ∧
    ((∃ token, cdc.token key = .ok (some token)) ↔ 8 ≤ octets.length) := by
  intro digest
  have htoken : ∀ partitioner : Partitioner,
      partitioner.token key = .ok (partitioner.hash octets) := by
    intro partitioner
    rw [token, hencode]
    rfl
  refine ⟨?_, ?_, ?_, ?_⟩
  · obtain ⟨word, hword⟩ := exists_murmur3_hash octets
    exact ⟨_, (htoken murmur3).trans (congrArg Except.ok hword), Murmur3.normalize_bounds word⟩
  · have hdigits := natAbs_toInt (Md5.digest octets)
    have hlt : digest < _ := ofBigEndian_lt (Md5.digest octets)
    have hsize : capacity (Md5.digest octets).length = 2 ^ 128 := by
      rw [Md5.length_digest]
      rfl
    rw [hsize] at hdigits hlt
    refine ⟨⟨(toInt (Md5.digest octets)).natAbs⟩, htoken random, ?_, ?_, ?_⟩
    · exact Int.natCast_nonneg _
    · simp only
      omega
    · simp only [digest]
      omega
  · intro token h
    rw [htoken, cdc_hash] at h
    split at h
    · cases h
    · cases h
      have hbounds := toInt_bounds (octets.take 8)
      have hsize : capacity (octets.take 8).length = 2 ^ 64 := by
        rw [List.length_take, Nat.min_eq_left (by omega)]
        rfl
      rw [hsize] at hbounds
      simp only
      omega
  · rw [htoken, cdc_hash]
    by_cases hshort : octets.length < 8
    · simp [hshort]
    · simp [hshort, Nat.not_lt.1 hshort]

/-- Nine octets whose digest is a negative number, and of which the first eight are the least
one. -/
theorem tokens_in_range_of_least_octets :
    let octets : List UInt8 := [0x80, 0, 0, 0, 0, 0, 0, 0, 3]
    let key := PartitionKey.single (.blob octets)
    key.encode = .ok octets ∧
      (∃ token, random.token key = .ok (some token) ∧
        token.value = 2 ^ 128 - 259443865747247309415541177560147942241) ∧
      cdc.token key = .ok (some ⟨-2 ^ 63⟩) := by
  intro octets key
  have hencode : key.encode = .ok octets := rfl
  have hdigest : ofBigEndian (Md5.digest octets) = 259443865747247309415541177560147942241 := by
    decide +kernel
  obtain ⟨-, ⟨token, htoken, -, -, hvalue⟩, -⟩ := tokens_in_range hencode
  refine ⟨hencode, ⟨token, htoken, ?_⟩, rfl⟩
  rw [hvalue, hdigest]
  rfl

end Partitioner
end RingRouting
