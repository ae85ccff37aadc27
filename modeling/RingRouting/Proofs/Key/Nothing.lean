import RingRouting.Proofs.Column.Rows
import RingRouting.Proofs.Key.Refusal

/-!
# Keys that are laid out as nothing

No key can hold the empty value, but a text or octets of length zero have a type and are not
barred.  They are encoded as no octets all the same.  A key of several columns tells their length
and ends them with a zero octet, so that its layout is never nothing; the layout of a key of one
column is.  These are the only keys that are hashed from nothing, and all of them have one token.

Main definitions:

- `Value.Hollow`: values that have a type and no octets.

Main results:

- Theorem `Value.encodeKey_eq_nil_iff`: components that are encoded as nothing.
- Theorem `PartitionKey.length_flatMap_frame`: how long a row of frames is.
- Theorem `PartitionKey.laid_out_as_nothing_iff`: keys that are laid out as nothing.
-/

namespace RingRouting

/-! ## Components -/

namespace Value

/-- The value has a type, but no octets: it is a text, or octets, of length zero. -/
inductive Hollow : Value → Prop
  | ascii : Hollow (.ascii "")
  | text : Hollow (.text "")
  | blob : Hollow (.blob [])

/-- Hollow values, and no others, are components that are encoded as nothing. -/
theorem encodeKey_eq_nil_iff {value : Value} : value.encodeKey = .ok [] ↔ value.Hollow := by
  constructor
  · intro h
    obtain ⟨type, htype, hencode⟩ := encode_of_encodeKey h
    obtain ⟨own, rfl⟩ := encode_eq_nil_iff.1 hencode
    cases own with
    | ascii => exact .ascii
    | text => exact .text
    | blob => exact .blob
    | _ => cases htype
  · intro h
    cases h <;> rfl

end Value

/-! ## Layouts -/

namespace PartitionKey

theorem length_frame (part : List UInt8) : (frame part).length = part.length + 3 := by
  simp only [frame, Vint.encodeShort, List.length_append, Octets.length_bigEndian,
    List.length_singleton]
  omega

/-- Each frame adds three octets to those of its component. -/
theorem length_flatMap_frame (parts : List (List UInt8)) :
    (parts.flatMap frame).length = 3 * parts.length + parts.flatten.length := by
  induction parts with
  | nil => rfl
  | cons part parts ih =>
      rw [List.flatMap_cons, List.length_append, length_frame, ih, List.flatten_cons,
        List.length_append, List.length_cons]
      omega

/-- The layout of a key of several columns has three octets for each column, at least. -/
theorem three_mul_length_le {key : PartitionKey} {octets : List UInt8}
    (hcomposite : key.isComposite = true) (hencode : key.encode = .ok octets) :
    3 * key.length ≤ octets.length := by
  obtain ⟨parts, hencoded, -, rfl⟩ := parts_of_encode hcomposite hencode
  have hcount : key.length = parts.length := hencoded.length_eq
  rw [length_flatMap_frame, hcount]
  exact Nat.le_add_right _ _

theorem encode_eq_nil_iff {key : PartitionKey} :
    key.encode = .ok [] ↔ ∃ value, key.components = [value] ∧ value.Hollow := by
  by_cases hcomposite : key.isComposite = true
  · have hseveral : 1 < key.components.length := of_decide_eq_true hcomposite
    constructor
    · intro hencode
      have hlong := three_mul_length_le hcomposite hencode
      rw [length, List.length_nil] at hlong
      omega
    · rintro ⟨value, hcomponents, -⟩
      rw [hcomponents, List.length_singleton] at hseveral
      exact absurd hseveral (Nat.lt_irrefl 1)
  · obtain ⟨value, hcomponents, hencode⟩ := exists_only_component hcomposite
    rw [hencode, encodeComponent, Except.mapError_eq_ok_iff, Value.encodeKey_eq_nil_iff,
      hcomponents]
    simp

/-- Whatever columns a key has and whatever they hold: it is laid out as nothing exactly if it
has one column and holds a text, or octets, of length zero there.  The layout of a key of several
columns, whether some of its components are of length zero or not, has three octets for each
column, at least.  The keys that are laid out as nothing have one token, if any: the one that a
partitioner gives to no octets. -/
theorem laid_out_as_nothing_iff (key : PartitionKey) :
    (key.encode = .ok [] ↔ ∃ value, key.components = [value] ∧ value.Hollow) ∧
    (∀ octets, key.encode = .ok octets → key.isComposite = true →
      3 * key.length ≤ octets.length) ∧
    ∀ partitioner : Partitioner, (∃ value, key.components = [value] ∧ value.Hollow) →
      partitioner.token key = .ok (partitioner.hash []) := by
  refine ⟨encode_eq_nil_iff, fun octets hencode hcomposite => ?_, fun partitioner hhollow => ?_⟩
  · exact three_mul_length_le hcomposite hencode
  · rw [Partitioner.token, encode_eq_nil_iff.2 hhollow]
    rfl

/-- The key of one empty text is hashed from nothing, while the empty value is refused. -/
theorem empty_text_hashed_from_nothing :
    let key := single (.text "")
    key.encode = .ok [] ∧
      Partitioner.murmur3.token key = .ok (some ⟨0⟩) ∧
      Partitioner.random.token key = .ok (some ⟨58332598431525814501020785164969033090⟩) ∧
      (single .empty).encode = .error (.component 0 .emptyKeyComponent) := by
  decide +kernel

end PartitionKey
end RingRouting
