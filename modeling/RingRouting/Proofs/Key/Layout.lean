import Mathlib.Data.List.Forall2
import RingRouting.Partitioner
import RingRouting.Proofs.Column.RoundTrip
import RingRouting.Proofs.Results

/-!
# Keys and their layouts

The layout of a key can be taken apart.  In a key of several columns each component tells its
length before it begins, and a component is read under the type of its column as the value
that it was written for.  Keys whose columns have the same types therefore have one layout
only if they hold the same values, floating-point values being the same if their bits are.

Keys are compared as numbers compare: zero equals minus zero, though they have different
layouts, and what is not a number does not equal itself, though it has one layout.  For all
other values the two notions agree.

Main results:

- Theorem `PartitionKey.flatMap_frame_append_inj`: two rows of frames, read in step.
- Theorem `PartitionKey.encode_eq_ok`: the layout of a key, in terms of its components.
- Theorem `PartitionKey.Layout.unique`: a layout of so many components is that of one list.
- Theorem `Value.encodeKey_inj`: a component of one type is the encoding of one value.
- Theorem `PartitionKey.layouts_tell_keys_apart`: layouts, values and equality of keys.
-/

namespace RingRouting

open Octets

namespace Value

/-! ## Equality as numbers compare -/

/-- Whether the value is a floating-point zero, of either sign. -/
def isZero : Value → Bool
  | double x => x.isZero
  | float x => x.isZero
  | _ => false

/-- Whether the value is a floating-point value that is not a number. -/
def isNaN : Value → Bool
  | double x => x.isNaN
  | float x => x.isNaN
  | _ => false

/-- Only zeros equal a value other than themselves. -/
theorem eq_of_equal {a b : Value} (hequal : a.equal b = true) (hzero : a.isZero = false) :
    a = b := by
  unfold equal at hequal
  split at hequal
  · rename_i x y
    change x.isZero = false at hzero
    simp only [Binary64.equal, hzero, Bool.false_and, Bool.or_false, Bool.and_eq_true,
      beq_iff_eq] at hequal
    exact congrArg double hequal.2
  · rename_i x y
    change x.isZero = false at hzero
    simp only [Binary32.equal, hzero, Bool.false_and, Bool.or_false, Bool.and_eq_true,
      beq_iff_eq] at hequal
    exact congrArg float hequal.2
  · exact eq_of_beq hequal

/-- Only what is not a number does not equal itself. -/
theorem equal_self {a : Value} (hnumber : a.isNaN = false) : a.equal a = true := by
  cases a with
  | double x =>
      change x.isNaN = false at hnumber
      simp [equal, Binary64.equal, hnumber]
  | float x =>
      change x.isNaN = false at hnumber
      simp [equal, Binary32.equal, hnumber]
  | _ => exact beq_self_eq_true _

/-! ## Components -/

/-- A component has a type, and its encoding is that of a cell. -/
theorem encode_of_encodeKey {value : Value} {octets : List UInt8}
    (h : value.encodeKey = .ok octets) :
    ∃ type, value.columnType = some type ∧ value.encode = .ok octets := by
  unfold encodeKey at h
  split at h
  · cases h
  · cases h
  · rename_i type _ htype
    exact ⟨type, htype, h⟩

/-- Values of one type that have one encoding are the same. -/
theorem encodeKey_inj {a b : Value} (htype : a.columnType = b.columnType)
    {octets : List UInt8} (ha : a.encodeKey = .ok octets) (hb : b.encodeKey = .ok octets) :
    a = b := by
  obtain ⟨type, hatype, haencode⟩ := encode_of_encodeKey ha
  obtain ⟨_, -, hbencode⟩ := encode_of_encodeKey hb
  have hread := decodeSized_encode hatype haencode
  have hother := decodeSized_encode (htype ▸ hatype) hbencode
  exact Except.ok.inj (hread.symm.trans hother)

/-- The values have these encodings, one by one. -/
abbrev EncodedAs (values : List Value) (parts : List (List UInt8)) : Prop :=
  List.Forall₂ (fun value part => value.encodeKey = .ok part) values parts

/-- Lists of values of the same types that have the same encodings are the same. -/
theorem EncodedAs.inj {values others : List Value} {parts : List (List UInt8)}
    (hvalues : EncodedAs values parts) (hothers : EncodedAs others parts)
    (htypes : values.map columnType = others.map columnType) : values = others := by
  induction hvalues generalizing others with
  | nil =>
      cases hothers
      rfl
  | cons hvalue _ ih =>
      cases hothers with
      | cons hother hrest =>
          rw [List.map_cons, List.map_cons, List.cons.injEq] at htypes
          rw [encodeKey_inj htypes.1 hvalue hother, ih hrest htypes.2]

end Value

namespace PartitionKey

/-! ## Frames -/

/-- The length of a component that fits is told in full. -/
theorem ofBigEndian_length {part : List UInt8} (hfit : part.length ≤ maxComponentLength) :
    ofBigEndian (bigEndian 2 part.length) = part.length :=
  ofBigEndian_bigEndian_of_lt (Nat.lt_succ_of_le hfit)

theorem frame_eq {part : List UInt8} (hfit : part.length ≤ maxComponentLength) :
    frame part = bigEndian 2 part.length ++ part ++ [0] := by
  have hlength : (UInt16.ofNat part.length).toNat = part.length := by
    rw [UInt16.toNat_ofNat']
    exact Nat.mod_eq_of_lt (Nat.lt_succ_of_le hfit)
  rw [frame, Vint.encodeShort, hlength]

theorem frame_ne_nil (part : List UInt8) : frame part ≠ [] := by
  simp [frame]

/-- The length at the front of a frame tells where the component ends. -/
theorem frame_append_inj {part other rest otherRest : List UInt8}
    (hpart : part.length ≤ maxComponentLength) (hother : other.length ≤ maxComponentLength)
    (h : frame part ++ rest = frame other ++ otherRest) : part = other ∧ rest = otherRest := by
  simp only [frame_eq hpart, frame_eq hother, List.append_assoc] at h
  obtain ⟨hfront, hrest⟩ := List.append_inj h (by simp)
  have hsame : part.length = other.length := by
    rw [← ofBigEndian_length hpart, hfront, ofBigEndian_length hother]
  obtain ⟨hcomponent, hrest⟩ := List.append_inj hrest hsame
  exact ⟨hcomponent, List.append_cancel_left hrest⟩

/-- Two rows of frames that begin the same octets are read in step: the one with more frames
goes on where the other one ends. -/
theorem flatMap_frame_append_inj {parts others : List (List UInt8)} {rest otherRest : List UInt8}
    (hparts : ∀ part ∈ parts, part.length ≤ maxComponentLength)
    (hothers : ∀ part ∈ others, part.length ≤ maxComponentLength)
    (hcount : parts.length ≤ others.length)
    (h : parts.flatMap frame ++ rest = others.flatMap frame ++ otherRest) :
    ∃ more, others = parts ++ more ∧ rest = more.flatMap frame ++ otherRest := by
  induction parts generalizing others with
  | nil => exact ⟨others, rfl, h⟩
  | cons part parts ih =>
      cases others with
      | nil => exact absurd hcount (Nat.not_succ_le_zero _)
      | cons other others =>
          rw [List.forall_mem_cons] at hparts hothers
          rw [List.flatMap_cons, List.flatMap_cons, List.append_assoc, List.append_assoc] at h
          obtain ⟨rfl, hfollowing⟩ := frame_append_inj hparts.1 hothers.1 h
          obtain ⟨more, rfl, hrest⟩ :=
            ih hparts.2 hothers.2 (Nat.le_of_succ_le_succ hcount) hfollowing
          exact ⟨more, rfl, hrest⟩

/-- The frames of components tell the components. -/
theorem flatMap_frame_inj {parts others : List (List UInt8)}
    (hparts : ∀ part ∈ parts, part.length ≤ maxComponentLength)
    (hothers : ∀ part ∈ others, part.length ≤ maxComponentLength)
    (h : parts.flatMap frame = others.flatMap frame) : parts = others := by
  have hends : ∀ more : List (List UInt8), [] = more.flatMap frame ++ [] → more = [] := by
    intro more hmore
    cases more with
    | nil => rfl
    | cons part more => simp [frame_ne_nil] at hmore
  have hboth : parts.flatMap frame ++ [] = others.flatMap frame ++ [] := by rw [h]
  rcases Nat.le_total parts.length others.length with hcount | hcount
  · obtain ⟨more, rfl, hrest⟩ := flatMap_frame_append_inj hparts hothers hcount hboth
    rw [hends more hrest, List.append_nil]
  · obtain ⟨more, rfl, hrest⟩ := flatMap_frame_append_inj hothers hparts hcount hboth.symm
    rw [hends more hrest, List.append_nil]

/-! ## Layouts -/

/-- The layout of components: the only one as it stands, or the frames of several. -/
inductive Layout : List (List UInt8) → List UInt8 → Prop
  | single (part : List UInt8) : Layout [part] part
  | composite {parts : List (List UInt8)} (hcount : parts.length ≠ 1)
      (hfit : ∀ part ∈ parts, part.length ≤ maxComponentLength) :
      Layout parts (parts.flatMap frame)

/-- As many components as there are of one layout are the same. -/
theorem Layout.unique {parts others : List (List UInt8)} {octets : List UInt8}
    (hparts : Layout parts octets) (hothers : Layout others octets)
    (hcount : parts.length = others.length) : parts = others := by
  cases hparts with
  | single =>
      cases hothers with
      | single => rfl
      | composite hseveral => exact absurd hcount.symm hseveral
  | composite hseveral hfit =>
      generalize hoctets : parts.flatMap frame = octets at hothers
      cases hothers with
      | single => exact absurd hcount hseveral
      | composite _ hotherFit => exact flatMap_frame_inj hfit hotherFit hoctets

/-- Frames are made of the encodings of all components, none of which is too long. -/
theorem encodeFrames_eq_ok {index : Nat} {values : List Value} {octets : List UInt8}
    (h : encodeFrames index values = .ok octets) :
    ∃ parts, Value.EncodedAs values parts ∧
      (∀ part ∈ parts, part.length ≤ maxComponentLength) ∧ octets = parts.flatMap frame := by
  induction values generalizing index octets with
  | nil =>
      cases h
      exact ⟨[], .nil, by simp, rfl⟩
  | cons value rest ih =>
      obtain ⟨part, hpart, h⟩ := Except.bind_eq_ok h
      by_cases hlong : maxComponentLength < part.length
      · rw [if_pos hlong] at h
        cases h
      · rw [if_neg hlong] at h
        obtain ⟨others, hrest, h⟩ := Except.bind_eq_ok h
        cases h
        obtain ⟨parts, hencoded, hfit, rfl⟩ := ih hrest
        refine ⟨part :: parts, .cons (Except.mapError_eq_ok hpart) hencoded, ?_, rfl⟩
        exact List.forall_mem_cons.2 ⟨Nat.le_of_not_lt hlong, hfit⟩

/-- A key is laid out as the encodings of its components. -/
theorem encode_eq_ok {key : PartitionKey} {octets : List UInt8} (h : key.encode = .ok octets) :
    ∃ parts, Value.EncodedAs key.components parts ∧ Layout parts octets := by
  unfold encode at h
  split at h
  · rename_i value hcomponents
    rw [hcomponents]
    exact ⟨[octets], .cons (Except.mapError_eq_ok h) .nil, .single octets⟩
  · rename_i hseveral
    obtain ⟨parts, hencoded, hfit, rfl⟩ := encodeFrames_eq_ok h
    refine ⟨parts, hencoded, .composite (fun hone => ?_) hfit⟩
    obtain ⟨value, hcomponents⟩ := List.length_eq_one_iff.1 (hencoded.length_eq.trans hone)
    exact hseveral value hcomponents

/-- Keys whose columns have the same types and that have one layout hold the same values. -/
theorem components_eq_of_encode {key other : PartitionKey} {octets : List UInt8}
    (htypes : key.components.map Value.columnType = other.components.map Value.columnType)
    (hkey : key.encode = .ok octets) (hother : other.encode = .ok octets) :
    key.components = other.components := by
  obtain ⟨parts, hparts, hlayout⟩ := encode_eq_ok hkey
  obtain ⟨others, hothers, hotherLayout⟩ := encode_eq_ok hother
  have hcount : parts.length = others.length := by
    rw [← hparts.length_eq, ← hothers.length_eq]
    simpa using congrArg List.length htypes
  obtain rfl := hlayout.unique hotherLayout hcount
  exact hparts.inj hothers htypes

/-! ## Equality of keys -/

theorem eq_of_components_eq {key other : PartitionKey}
    (h : key.components = other.components) : key = other := by
  cases key
  cases other
  cases h
  rfl

theorem equal_iff (key other : PartitionKey) :
    key.equal other = true ↔
      List.Forall₂ (fun a b => a.equal b = true) key.components other.components := by
  simp only [equal, Bool.and_eq_true, beq_iff_eq, List.all_eq_true, List.forall₂_iff_zip,
    Prod.forall]

/-- Where no component is a zero, keys that are equal hold the same values. -/
theorem components_eq_of_equal {key other : PartitionKey} (hequal : key.equal other = true)
    (hzero : ∀ value ∈ key.components, value.isZero = false) :
    key.components = other.components := by
  have hpairs := (List.forall₂_and_left _ _).2 ⟨hzero, (equal_iff key other).1 hequal⟩
  have hsame := hpairs.imp fun _ _ hpair => Value.eq_of_equal hpair.2 hpair.1
  rwa [List.forall₂_eq_eq_eq] at hsame

/-- Where no component is something that is not a number, keys that hold the same values are
equal. -/
theorem equal_of_components_eq {key other : PartitionKey}
    (hsame : key.components = other.components)
    (hnumber : ∀ value ∈ key.components, value.isNaN = false) : key.equal other = true := by
  rw [equal_iff, ← hsame, List.forall₂_same]
  exact fun value hvalue => Value.equal_self (hnumber value hvalue)

/-! ## What layouts tell -/

/-- Keys whose columns have the same types, and which have layouts: their layouts are the same
exactly if they hold the same values, floating-point values being the same if their bits are.
Where no component is a zero, keys that are equal have the same layout, and the same token
whatever the partitioner.  Where no component is something that is not a number, keys that
have the same layout are equal. -/
theorem layouts_tell_keys_apart {key other : PartitionKey} {octets otherOctets : List UInt8}
    (htypes : key.components.map Value.columnType = other.components.map Value.columnType)
    (hkey : key.encode = .ok octets) (hother : other.encode = .ok otherOctets) :
    (octets = otherOctets ↔ key.components = other.components) ∧
      ((∀ value ∈ key.components, value.isZero = false) → key.equal other = true →
        octets = otherOctets ∧
          ∀ partitioner : Partitioner, partitioner.token key = partitioner.token other) ∧
      ((∀ value ∈ key.components, value.isNaN = false) → octets = otherOctets →
        key.equal other = true) := by
  have hsame : octets = otherOctets ↔ key.components = other.components := by
    constructor
    · rintro rfl
      exact components_eq_of_encode htypes hkey hother
    · intro hcomponents
      rw [eq_of_components_eq hcomponents, hother] at hkey
      exact (Except.ok.inj hkey).symm
  refine ⟨hsame, fun hzero hequal => ?_, fun hnumber hoctets => ?_⟩
  · have hcomponents := components_eq_of_equal hequal hzero
    refine ⟨hsame.2 hcomponents, fun partitioner => ?_⟩
    rw [eq_of_components_eq hcomponents]
  · exact equal_of_components_eq (hsame.1 hoctets) hnumber

/-- Two keys whose components have the same octets one after another, split in different
places: the layouts differ, and the keys are not equal. -/
theorem layouts_tell_keys_apart_of_split_octets : ∃ key other : PartitionKey,
    ∃ octets otherOctets,
      key.components = [.blob [1], .blob [2, 3], .double ⟨0x3FF8000000000000⟩] ∧
      other.components = [.blob [1, 2], .blob [3], .double ⟨0x3FF8000000000000⟩] ∧
      key.encode = .ok octets ∧ other.encode = .ok otherOctets ∧ octets ≠ otherOctets ∧
      key.equal other = false ∧ key.equal key = true := by
  let number : Value := .double ⟨0x3FF8000000000000⟩
  let key : PartitionKey := ⟨[.blob [1], .blob [2, 3], number], by simp⟩
  let other : PartitionKey := ⟨[.blob [1, 2], .blob [3], number], by simp⟩
  let numberFrame : List UInt8 := [0, 8, 0x3F, 0xF8, 0, 0, 0, 0, 0, 0, 0]
  have hkey : key.encode = .ok ([0, 1, 1, 0, 0, 2, 2, 3, 0] ++ numberFrame) := by
    decide +kernel
  have hother : other.encode = .ok ([0, 2, 1, 2, 0, 0, 1, 3, 0] ++ numberFrame) := by
    decide +kernel
  have htypes : key.components.map Value.columnType = other.components.map Value.columnType :=
    rfl
  obtain ⟨hsame, hequal, -⟩ := layouts_tell_keys_apart htypes hkey hother
  obtain ⟨-, -, hnumbers⟩ := layouts_tell_keys_apart rfl hkey hkey
  have hdiffer := mt hsame.1 (by decide)
  have hunequal : key.equal other ≠ true := fun h => hdiffer (hequal (by decide) h).1
  exact ⟨key, other, _, _, rfl, rfl, hkey, hother, hdiffer, Bool.eq_false_iff.2 hunequal,
    hnumbers (by decide) rfl⟩

/-- Zero and minus zero make keys that are equal and have different layouts. -/
example :
    let zero := single (.double ⟨0⟩)
    let minusZero := single (.double ⟨0x8000000000000000⟩)
    zero.equal minusZero = true ∧ zero.encode ≠ minusZero.encode := by
  decide

end PartitionKey
end RingRouting
