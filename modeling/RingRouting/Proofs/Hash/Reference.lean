import RingRouting.Proofs.Hash.Pieces

/-!
# Murmur3 as it is specified

The 128-bit Murmur3 hash for 64-bit machines is written down here for a whole string of octets,
with seed zero, in words without a sign.  It leaves open how an octet of the last, incomplete
block is extended to a word.  The hasher of the ring is the first half of that hash with octets
extended by their sign.  The hash as it is published extends them by zeros, which is the same
wherever these octets have no sign.

Main definitions:

- `Murmur3.Reference.hash`: both halves of the hash.
- `Murmur3.Reference.token`: the token that a half stands for.

Main results:

- Theorem `Murmur3.toBitVec_rotate`: a rotation made of shifts is a rotation.
- Theorem `Murmur3.body_eq`: the whole blocks, and what is left of the octets.
- Theorem `Partitioner.murmur3_hash_eq_reference`: the token of all octets, by the reference.
-/

namespace RingRouting
namespace Murmur3

open Octets

/-! ## The reference -/

namespace Reference

/-- Sixty-four binary digits; sums and products wrap around. -/
abbrev Word := BitVec 64

/-- The two halves of the hash. -/
structure State where
  h1 : Word
  h2 : Word
deriving DecidableEq

def c1 : Word :=
  0x87C37B91114253D5

def c2 : Word :=
  0x4CF5AD432745937F

/-- What a block's first word adds to the first half. -/
def scramble1 (k : Word) : Word :=
  (k * c1).rotateLeft 31 * c2

/-- What a block's second word adds to the second half. -/
def scramble2 (k : Word) : Word :=
  (k * c2).rotateLeft 33 * c1

/-- Takes in a block of two words. -/
def State.mix (s : State) (k1 k2 : Word) : State :=
  let h1 := ((s.h1 ^^^ scramble1 k1).rotateLeft 27 + s.h2) * 5 + 0x52DCE729
  let h2 := ((s.h2 ^^^ scramble2 k2).rotateLeft 31 + h1) * 5 + 0x38495AB5
  ⟨h1, h2⟩

/-- The word that eight octets spell, least significant first. -/
def word (octets : List UInt8) : Word :=
  BitVec.ofNat 64 (ofLittleEndian octets)

/-- Takes in blocks of sixteen octets as long as there are any, and gives what is left. -/
def State.body (s : State) (octets : List UInt8) : State × List UInt8 :=
  if 16 ≤ octets.length then
    (s.mix (word (octets.take 8)) (word ((octets.drop 8).take 8))).body (octets.drop 16)
  else
    (s, octets)
termination_by octets.length
decreasing_by
  rw [List.length_drop]
  omega

/-- Octets, each extended to a word and shifted to its place, combined. -/
def tailWord (extend : BitVec 8 → Word) : (shift : Nat) → List UInt8 → Word
  | _, [] => 0
  | shift, octet :: rest =>
    extend octet.toBitVec <<< shift ^^^ tailWord extend (shift + 8) rest

/-- Takes in the octets of an incomplete block; where there are none, this adds zero. -/
def State.tail (extend : BitVec 8 → Word) (s : State) (octets : List UInt8) : State :=
  ⟨s.h1 ^^^ scramble1 (tailWord extend 0 (octets.take 8)),
    s.h2 ^^^ scramble2 (tailWord extend 0 (octets.drop 8))⟩

/-- The final mixing of a half. -/
def fmix (k : Word) : Word :=
  let k := (k ^^^ k >>> 33) * 0xFF51AFD7ED558CCD
  let k := (k ^^^ k >>> 33) * 0xC4CEB9FE1A85EC53
  k ^^^ k >>> 33

/-- Takes in the number of octets, and mixes the halves with each other. -/
def State.finish (s : State) (total : Nat) : State :=
  let h1 := s.h1 ^^^ BitVec.ofNat 64 total
  let h2 := s.h2 ^^^ BitVec.ofNat 64 total
  let h1 := h1 + h2
  let h2 := h2 + h1
  let h1 := fmix h1
  let h2 := fmix h2
  let h1 := h1 + h2
  let h2 := h2 + h1
  ⟨h1, h2⟩

/-- The hash of octets, with seed zero. -/
def hash (extend : BitVec 8 → Word) (octets : List UInt8) : State :=
  let (s, rest) := State.body ⟨0, 0⟩ octets
  (s.tail extend rest).finish octets.length

/-- The token that a half stands for: its digits as a number with a sign.  The least such
number is not a token, and becomes the greatest. -/
def token (half : Word) : Token :=
  ⟨if half.toInt = -9223372036854775808 then 9223372036854775807 else half.toInt⟩

/-- Octets without a sign are extended alike. -/
theorem tailWord_signExtend {octets : List UInt8} (h : ∀ octet ∈ octets, octet < 0x80)
    (shift : Nat) :
    tailWord (BitVec.signExtend 64) shift octets = tailWord (BitVec.setWidth 64) shift octets := by
  induction octets generalizing shift with
  | nil => rfl
  | cons octet rest ih =>
      have hlow : octet.toBitVec.msb = false := by
        have hoctet : octet.toNat < 128 := UInt8.lt_iff_toNat_lt.1 (h octet List.mem_cons_self)
        rw [BitVec.msb_eq_false_iff_two_mul_lt]
        exact Nat.mul_lt_mul_of_pos_left hoctet (by decide)
      rw [tailWord, tailWord, BitVec.signExtend_eq_setWidth_of_msb_false hlow,
        ih fun other hother => h other (List.mem_cons_of_mem _ hother)]

end Reference

/-! ## Words with a sign and without -/

/-- A shift by a number that is written with a sign. -/
theorem toBitVec_shiftLeft (v : Int64) {n : Nat} (h : n < 64) :
    (v <<< Int64.ofNat n).toBitVec = v.toBitVec <<< n := by
  have hplace : ∀ n < 64, ((Int64.ofNat n).toBitVec.smod 64).toNat = n := by decide +kernel
  rw [Int64.toBitVec_shiftLeft, BitVec.shiftLeft_eq', hplace n h]

theorem toBitVec_shiftRight (v : Int64) {n : Nat} (h : n < 64) :
    (shiftRight v n).toBitVec = v.toBitVec >>> n := by
  have hplace : ((UInt64.ofNat n).toBitVec % 64).toNat = n := by
    rw [UInt64.toBitVec_ofNat', BitVec.toNat_umod, BitVec.toNat_ofNat]
    change n % 18446744073709551616 % 64 = n
    omega
  rw [shiftRight, UInt64.toBitVec_toInt64, UInt64.toBitVec_shiftRight, Int64.toBitVec_toUInt64,
    BitVec.ushiftRight_eq', hplace]

/-- A rotation made of two shifts is a rotation. -/
theorem toBitVec_rotate (v : Int64) {n : Nat} (hpos : 0 < n) (h : n < 64) :
    (rotate v n).toBitVec = v.toBitVec.rotateLeft n := by
  rw [rotate, Int64.toBitVec_or, toBitVec_shiftLeft v h, toBitVec_shiftRight v (by omega),
    BitVec.rotateLeft_def, Nat.mod_eq_of_lt h]

@[simp]
theorem toBitVec_scramble1 (k : Int64) :
    (scramble1 k).toBitVec = Reference.scramble1 k.toBitVec := by
  rw [scramble1, Int64.toBitVec_mul, toBitVec_rotate _ (by decide) (by decide),
    Int64.toBitVec_mul]
  rfl

@[simp]
theorem toBitVec_scramble2 (k : Int64) :
    (scramble2 k).toBitVec = Reference.scramble2 k.toBitVec := by
  rw [scramble2, Int64.toBitVec_mul, toBitVec_rotate _ (by decide) (by decide),
    Int64.toBitVec_mul]
  rfl

theorem toBitVec_avalanche (k : Int64) : (avalanche k).toBitVec = Reference.fmix k.toBitVec := by
  simp only [avalanche, Int64.toBitVec_xor, Int64.toBitVec_mul,
    toBitVec_shiftRight _ (by decide : 33 < 64)]
  rfl

/-! ## Blocks -/

/-- The lanes, as words without a sign. -/
def Lanes.state (lanes : Lanes) : Reference.State :=
  ⟨lanes.h1.toBitVec, lanes.h2.toBitVec⟩

theorem toBitVec_word (octets : List UInt8) : (word octets).toBitVec = Reference.word octets :=
  rfl

theorem Lanes.state_mix (lanes : Lanes) (k1 k2 : Int64) :
    (lanes.mix k1 k2).state = lanes.state.mix k1.toBitVec k2.toBitVec := by
  simp only [Lanes.mix, Lanes.state, Reference.State.mix, Int64.toBitVec_add,
    Int64.toBitVec_mul, Int64.toBitVec_xor, toBitVec_scramble1, toBitVec_scramble2,
    toBitVec_rotate _ (by decide : 0 < 27) (by decide),
    toBitVec_rotate _ (by decide : 0 < 31) (by decide)]
  rfl

/-- Whole blocks are taken in one after another, and the incomplete one is left. -/
theorem body_eq (lanes : Lanes) (octets : List UInt8) :
    lanes.state.body octets =
      ((lanes.mixBlocks (octets.length / 16) octets).state,
        octets.drop (octets.length / 16 * 16)) := by
  rw [Reference.State.body]
  by_cases hwhole : 16 ≤ octets.length
  · obtain ⟨count, hcount⟩ : ∃ count, octets.length / 16 = count + 1 :=
      Nat.exists_eq_succ_of_ne_zero (by omega)
    have hrest : (octets.drop 16).length / 16 = count := by
      rw [List.length_drop]
      omega
    have hmixed : lanes.state.mix (Reference.word (octets.take 8))
        (Reference.word ((octets.drop 8).take 8)) =
          (lanes.mixBlock (octets.take blockSize)).state := by
      rw [Lanes.mixBlock, Lanes.state_mix, toBitVec_word, toBitVec_word, List.drop_take,
        List.take_take, List.take_take]
      rfl
    have hskip : 16 + count * 16 = (count + 1) * 16 := by omega
    rw [if_pos hwhole, hmixed, body_eq, hrest, hcount, Lanes.mixBlocks_succ, List.drop_drop, hskip]
    rfl
  · have hnone : octets.length / 16 = 0 := by omega
    rw [if_neg hwhole, hnone, Lanes.mixBlocks_zero, Nat.zero_mul, List.drop_zero]
termination_by octets.length
decreasing_by
  rw [List.length_drop]
  omega

/-! ## The incomplete block -/

/-- The octets of half a block, from the one with place `start` on. -/
theorem toBitVec_tailWord (octets : List UInt8) {start : Nat} (h : start + octets.length ≤ 8) :
    ((octets.zipIdx start).foldr (fun (octet, i) (k : Int64) =>
      k ^^^ (signExtend octet <<< Int64.ofNat (8 * i))) 0).toBitVec =
        Reference.tailWord (BitVec.signExtend 64) (8 * start) octets := by
  induction octets generalizing start with
  | nil => rfl
  | cons octet rest ih =>
      rw [List.length_cons] at h
      have hplace : (signExtend octet <<< Int64.ofNat (8 * start)).toBitVec =
          BitVec.signExtend 64 octet.toBitVec <<< (8 * start) := by
        rw [toBitVec_shiftLeft _ (by omega), signExtend, Int8.toBitVec_toInt64]
        rfl
      rw [List.zipIdx_cons, List.foldr_cons]
      simp only
      rw [Int64.toBitVec_xor, hplace, ih (by omega), BitVec.xor_comm, Reference.tailWord]
      rfl

/-- The octets of half a block add what the reference adds, and none add nothing. -/
theorem Lanes.state_mixTail (lanes : Lanes) {octets : List UInt8} (h : octets.length < blockSize) :
    (lanes.mixTail octets).state = lanes.state.tail (BitVec.signExtend 64) octets := by
  have hblock : blockSize = 16 := rfl
  have hword {half : List UInt8} (hhalf : half.length ≤ 8) :
      (tailWord half).toBitVec = Reference.tailWord (BitVec.signExtend 64) 0 half :=
    toBitVec_tailWord half (by omega)
  have hfirst : (lanes.mixTail octets).h1.toBitVec = lanes.h1.toBitVec ^^^
      Reference.scramble1 (Reference.tailWord (BitVec.signExtend 64) 0 (octets.take 8)) := by
    unfold Lanes.mixTail
    simp only
    by_cases hsome : 0 < octets.length
    · rw [if_pos hsome, Int64.toBitVec_xor, toBitVec_scramble1,
        hword (List.length_take_le _ _)]
    · have hnone : octets = [] := List.eq_nil_of_length_eq_zero (by omega)
      subst hnone
      exact BitVec.xor_zero.symm
  have hsecond : (lanes.mixTail octets).h2.toBitVec = lanes.h2.toBitVec ^^^
      Reference.scramble2 (Reference.tailWord (BitVec.signExtend 64) 0 (octets.drop 8)) := by
    unfold Lanes.mixTail
    simp only
    by_cases hsome : 8 < octets.length
    · rw [if_pos hsome, Int64.toBitVec_xor, toBitVec_scramble2,
        hword (by rw [List.length_drop]; omega)]
    · rw [if_neg hsome, List.drop_eq_nil_of_le (by omega)]
      exact BitVec.xor_zero.symm
  rw [Lanes.state, hfirst, hsecond]
  rfl

/-! ## The result -/

theorem Lanes.toBitVec_conclude (lanes : Lanes) (total : Nat) :
    (lanes.conclude total).toBitVec = (lanes.state.finish total).h1 := by
  simp only [Lanes.conclude, Int64.toBitVec_add, toBitVec_avalanche, Int64.toBitVec_xor,
    Int64.toBitVec_ofNat']
  rfl

/-- The least number is told by its digits. -/
theorem token_normalize (value : Int64) :
    (⟨(normalize value).toInt⟩ : Token) = Reference.token value.toBitVec := by
  have hleast : Int64.minValue.toInt = -9223372036854775808 := by decide
  rw [Reference.token, Int64.toInt_toBitVec, normalize]
  by_cases h : value = Int64.minValue
  · rw [if_pos h, if_pos (by rw [h, hleast])]
    rfl
  · rw [if_neg h, if_neg]
    intro hvalue
    exact h (Int64.toInt_inj.1 (hvalue.trans hleast.symm))

end Murmur3

namespace Partitioner

open Murmur3 Octets

/-- A token is the first half of the hash with octets extended by their sign. -/
theorem murmur3_hash (octets : List UInt8) :
    murmur3.hash octets =
      some (Reference.token (Reference.hash (BitVec.signExtend 64) octets).h1) := by
  obtain ⟨hasher, hwrite, hfed⟩ := Hasher.holds_initial.write octets
  have hleft : (octets.drop (octets.length / 16 * 16)).length < blockSize := by
    rw [List.length_drop, blockSize]
    omega
  have hstate : Reference.hash (BitVec.signExtend 64) octets =
      (((Lanes.mixBlocks ⟨0, 0⟩ (octets.length / 16) octets).mixTail
        (octets.drop (octets.length / 16 * 16))).state).finish octets.length := by
    have hbody : Reference.State.body ⟨0, 0⟩ octets =
        ((Lanes.mixBlocks ⟨0, 0⟩ (octets.length / 16) octets).state,
          octets.drop (octets.length / 16 * 16)) := body_eq ⟨0, 0⟩ octets
    rw [Lanes.state_mixTail _ hleft, Reference.hash]
    simp only [hbody]
  have hfinish := hfed.finish_eq
  rw [List.nil_append] at hfinish
  calc murmur3.hash octets
      = some ⟨hasher.finish.toInt⟩ := by
        simp only [hash, Partitioner.hasher, RingRouting.Hasher.write, hwrite]
        rfl
    _ = some (Reference.token (Reference.hash (BitVec.signExtend 64) octets).h1) := by
        rw [hfinish, token_normalize, Lanes.toBitVec_conclude, hstate]
        rfl

/-- The reference does not tell the ways of extending octets apart where they have no sign. -/
theorem hash_setWidth {octets : List UInt8}
    (h : ∀ octet ∈ octets.drop (octets.length / 16 * 16), octet < 0x80) :
    Reference.hash (BitVec.setWidth 64) octets = Reference.hash (BitVec.signExtend 64) octets := by
  have hleft : (Reference.State.body ⟨0, 0⟩ octets).2 =
      octets.drop (octets.length / 16 * 16) := congrArg Prod.snd (body_eq ⟨0, 0⟩ octets)
  rw [← hleft] at h
  simp only [Reference.hash, Reference.State.tail]
  rw [Reference.tailWord_signExtend fun octet hoctet => h octet (List.mem_of_mem_take hoctet),
    Reference.tailWord_signExtend fun octet hoctet => h octet (List.mem_of_mem_drop hoctet)]

/-- The token of all octets is the first half of the reference, with the octets of the
incomplete block extended by their sign.  It is the first half of the hash as published, which
extends them by zeros, if all of them are below `0x80`, and so if there are none. -/
theorem murmur3_hash_eq_reference (octets : List UInt8) :
    murmur3.hash octets =
        some (Reference.token (Reference.hash (BitVec.signExtend 64) octets).h1) ∧
      ((∀ octet ∈ octets.drop (octets.length / 16 * 16), octet < 0x80) →
        murmur3.hash octets =
          some (Reference.token (Reference.hash (BitVec.setWidth 64) octets).h1)) ∧
      (octets.length % 16 = 0 →
        murmur3.hash octets =
          some (Reference.token (Reference.hash (BitVec.setWidth 64) octets).h1)) := by
  have hlow (h : ∀ octet ∈ octets.drop (octets.length / 16 * 16), octet < 0x80) :
      murmur3.hash octets =
        some (Reference.token (Reference.hash (BitVec.setWidth 64) octets).h1) := by
    rw [hash_setWidth h]
    exact murmur3_hash octets
  refine ⟨murmur3_hash octets, hlow, ?_⟩
  intro hwhole
  apply hlow
  have hnone : octets.drop (octets.length / 16 * 16) = [] := List.drop_eq_nil_of_le (by omega)
  simp [hnone]

/-- The text `test`, whose octets have no sign, and a whole block of octets that have one. -/
theorem murmur3_hash_eq_reference_of_text :
    (murmur3.hash [0x74, 0x65, 0x73, 0x74] = some (Reference.token
        (Reference.hash (BitVec.setWidth 64) [0x74, 0x65, 0x73, 0x74]).h1)) ∧
      murmur3.hash (List.replicate 16 0xFF) = some (Reference.token
        (Reference.hash (BitVec.setWidth 64) (List.replicate 16 0xFF)).h1) := by
  constructor
  · exact (murmur3_hash_eq_reference _).2.1 (by decide +kernel)
  · exact (murmur3_hash_eq_reference _).2.2 (by decide +kernel)

/-- The token of the text `test` under the hash as published. -/
example : Reference.token (Reference.hash (BitVec.setWidth 64) [0x74, 0x65, 0x73, 0x74]).h1 =
    ⟨-6017608668500074083⟩ := by
  decide +kernel

/-- Where an octet of the incomplete block has a sign, the published hash is another. -/
example : (Reference.hash (BitVec.setWidth 64) [0xFF]).h1 ≠
    (Reference.hash (BitVec.signExtend 64) [0xFF]).h1 := by
  decide +kernel

end Partitioner
end RingRouting
