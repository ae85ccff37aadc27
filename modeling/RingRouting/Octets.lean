/-!
# Octet strings as numbers

Numbers travel as octets, most significant octet first.  This module writes a
natural number in a fixed number of octets, reads it back, and does the same for
integers in the shortest two's-complement form.

Main results:

- `length_bigEndian`: a number written in `width` octets takes `width` octets.
- `ofBigEndian_eq`: the two orders of octets are each other's reverse.
- `ofBigEndian_bigEndian`: reading gives the number back modulo `capacity width`.
- `bigEndian_ofBigEndian`: writing what was read gives the same octets.
- `ofBigEndian_lt`: what is read fits the number of octets.
-/

namespace RingRouting
namespace Octets

/-! ## Natural numbers -/

/-- How many strings of `width` octets there are. -/
def capacity : (width : Nat) → Nat
  | 0 => 1
  | width + 1 => capacity width * 256

@[simp]
theorem capacity_zero : capacity 0 = 1 :=
  rfl

theorem capacity_succ (width : Nat) : capacity (width + 1) = capacity width * 256 :=
  rfl

theorem capacity_pos (width : Nat) : 0 < capacity width := by
  induction width with
  | zero => decide
  | succ width ih => rw [capacity_succ]; omega

/-- The lowest `width` base-256 digits of `n`, least significant digit first. -/
def littleEndian : (width n : Nat) → List UInt8
  | 0, _ => []
  | width + 1, n => UInt8.ofNat n :: littleEndian width (n / 256)

/-- The lowest `width` base-256 digits of `n`, most significant digit first. -/
def bigEndian (width n : Nat) : List UInt8 :=
  (littleEndian width n).reverse

/-- The number whose base-256 digits, least significant digit first, are `octets`. -/
def ofLittleEndian (octets : List UInt8) : Nat :=
  octets.foldr (fun octet n => n * 256 + octet.toNat) 0

/-- The number whose base-256 digits, most significant digit first, are `octets`. -/
def ofBigEndian (octets : List UInt8) : Nat :=
  octets.foldl (fun n octet => n * 256 + octet.toNat) 0

@[simp]
theorem length_littleEndian (width n : Nat) : (littleEndian width n).length = width := by
  induction width generalizing n with
  | zero => rfl
  | succ width ih => simp [littleEndian, ih]

@[simp]
theorem length_bigEndian (width n : Nat) : (bigEndian width n).length = width := by
  simp [bigEndian]

@[simp]
theorem ofLittleEndian_nil : ofLittleEndian [] = 0 :=
  rfl

theorem ofLittleEndian_cons (octet : UInt8) (rest : List UInt8) :
    ofLittleEndian (octet :: rest) = ofLittleEndian rest * 256 + octet.toNat :=
  rfl

theorem ofBigEndian_eq (octets : List UInt8) :
    ofBigEndian octets = ofLittleEndian octets.reverse := by
  simp [ofBigEndian, ofLittleEndian, List.foldr_reverse]

theorem ofLittleEndian_append (front rest : List UInt8) :
    ofLittleEndian (front ++ rest) =
      ofLittleEndian rest * capacity front.length + ofLittleEndian front := by
  induction front with
  | nil => simp
  | cons octet front ih =>
    rw [List.cons_append, ofLittleEndian_cons, ih, ofLittleEndian_cons, List.length_cons,
      capacity_succ, Nat.add_mul, Nat.mul_assoc, Nat.add_assoc]

theorem ofBigEndian_append (front rest : List UInt8) :
    ofBigEndian (front ++ rest) =
      ofBigEndian front * capacity rest.length + ofBigEndian rest := by
  simp [ofBigEndian_eq, ofLittleEndian_append]

theorem ofLittleEndian_lt (octets : List UInt8) :
    ofLittleEndian octets < capacity octets.length := by
  induction octets with
  | nil => simp
  | cons octet rest ih =>
    have h := octet.toNat_lt
    rw [ofLittleEndian_cons, List.length_cons, capacity_succ]
    omega

theorem ofBigEndian_lt (octets : List UInt8) : ofBigEndian octets < capacity octets.length := by
  simpa [ofBigEndian_eq] using ofLittleEndian_lt octets.reverse

theorem ofLittleEndian_littleEndian (width n : Nat) :
    ofLittleEndian (littleEndian width n) = n % capacity width := by
  induction width generalizing n with
  | zero => simp [littleEndian, Nat.mod_one]
  | succ width ih =>
    rw [littleEndian, ofLittleEndian_cons, ih, capacity_succ, Nat.mul_comm (capacity width) 256,
      Nat.mod_mul]
    simp only [UInt8.toNat_ofNat']
    omega

/-- Reading what was written gives the number back, as far as the width reaches. -/
theorem ofBigEndian_bigEndian (width n : Nat) :
    ofBigEndian (bigEndian width n) = n % capacity width := by
  rw [ofBigEndian_eq, bigEndian, List.reverse_reverse, ofLittleEndian_littleEndian]

theorem littleEndian_ofLittleEndian (octets : List UInt8) :
    littleEndian octets.length (ofLittleEndian octets) = octets := by
  induction octets with
  | nil => rfl
  | cons octet rest ih =>
    have h := octet.toNat_lt
    have hdiv : (ofLittleEndian rest * 256 + octet.toNat) / 256 = ofLittleEndian rest := by omega
    rw [List.length_cons, littleEndian, ofLittleEndian_cons, hdiv, ih]
    congr 1
    apply UInt8.toNat_inj.mp
    simp only [UInt8.toNat_ofNat']
    omega

/-- Writing what was read, in as many octets, gives the octets back. -/
theorem bigEndian_ofBigEndian (octets : List UInt8) :
    bigEndian octets.length (ofBigEndian octets) = octets := by
  have h := littleEndian_ofLittleEndian octets.reverse
  rw [List.length_reverse] at h
  rw [bigEndian, ofBigEndian_eq, h, List.reverse_reverse]

/-! ## Integers in two's complement -/

/-- The number of binary digits of `n`; zero has none. -/
def bitLength (n : Nat) : Nat :=
  if n = 0 then 0 else n.log2 + 1

/-- The fewest octets, at least one, that hold `n` in two's complement. -/
def signedWidth (n : Int) : Nat :=
  bitLength (if n < 0 then (-n - 1).toNat else n.toNat) / 8 + 1

/-- The shortest two's-complement form of `n`, most significant octet first. -/
def ofInt (n : Int) : List UInt8 :=
  let width := signedWidth n
  bigEndian width (n % capacity width).toNat

/-- Reads two's complement, most significant octet first; no octets are zero. -/
def toInt (octets : List UInt8) : Int :=
  let n := ofBigEndian octets
  if 2 * n < capacity octets.length then n else n - capacity octets.length

/-! ## Fixed-length strings -/

/-- The octets as a vector, if there are exactly `n` of them. -/
def vector? (n : Nat) (octets : List UInt8) : Option (Vector UInt8 n) :=
  if h : octets.length = n then some ⟨octets.toArray, by simpa using h⟩ else none

theorem vector?_toList {n : Nat} (v : Vector UInt8 n) : vector? n v.toList = some v := by
  have h : v.toList.length = n := by simp
  rw [vector?, dif_pos h]
  simp [Vector.toList]

theorem toList_of_vector? {n : Nat} {octets : List UInt8} {v : Vector UInt8 n}
    (h : vector? n octets = some v) : v.toList = octets := by
  unfold vector? at h
  split at h
  · cases h
    simp [Vector.toList]
  · cases h

end Octets
end RingRouting
