import RingRouting.Proofs.Key.Layout

/-!
# Reading composite keys

The layout of a key of several columns can be read from the front: two octets tell how long the
next component is, whatever octets it is made of, and a component of up to 65535 octets has its
length there in full.  Two layouts that agree are read in step and have the same components.  So
the number of columns and the encodings of all components are what a layout tells, and among
keys of as many columns no layout begins another one.

Main results:

- Theorem `PartitionKey.encode_eq_ok_of_parts`: what is laid out for components that fit.
- Theorem `PartitionKey.flatMap_frame_eq_of_begins`: among rows of as many frames none begins
  another one.
- Theorem `PartitionKey.composites_read_apart`: layouts of keys of several columns.
-/

namespace RingRouting

open Octets

namespace PartitionKey

/-! ## Frames of components that fit -/

theorem flatMap_frame_eq {parts : List (List UInt8)}
    (hfit : ∀ part ∈ parts, part.length ≤ maxComponentLength) :
    parts.flatMap frame = parts.flatMap fun part => bigEndian 2 part.length ++ part ++ [0] :=
  List.flatMap_congr fun part hpart => frame_eq (hfit part hpart)

/-- Frames are made of components that have encodings which fit, and then of what follows them. -/
theorem encodeFrames_append {before after : List Value} {parts : List (List UInt8)}
    (hencoded : Value.EncodedAs before parts)
    (hfit : ∀ part ∈ parts, part.length ≤ maxComponentLength) (index : Nat) :
    encodeFrames index (before ++ after) =
      (encodeFrames (index + before.length) after).map (parts.flatMap frame ++ ·) := by
  induction hencoded generalizing index with
  | nil => cases h : encodeFrames index after <;> simp [Except.map, h]
  | @cons value part rest others hvalue hrest ih =>
      rw [List.forall_mem_cons] at hfit
      have hpart : encodeComponent index value = .ok part :=
        Except.mapError_eq_ok_iff.2 hvalue
      have hlater : index + 1 + rest.length = index + (value :: rest).length := by
        rw [List.length_cons]
        omega
      rw [List.cons_append, encodeFrames, hpart, ← hlater]
      change (if maxComponentLength < part.length then _ else _) = _
      rw [if_neg (Nat.not_lt.2 hfit.1)]
      rw [ih hfit.2]
      cases encodeFrames (index + 1 + rest.length) after with
      | error e => rfl
      | ok octets =>
          rw [List.flatMap_cons]
          change Except.ok (frame part ++ (others.flatMap frame ++ octets)) = _
          rw [← List.append_assoc]
          rfl

/-- Components that have encodings which fit are laid out. -/
theorem encodeFrames_of_parts {index : Nat} {values : List Value} {parts : List (List UInt8)}
    (hencoded : Value.EncodedAs values parts)
    (hfit : ∀ part ∈ parts, part.length ≤ maxComponentLength) :
    encodeFrames index values = .ok (parts.flatMap frame) := by
  have hall := @encodeFrames_append values [] parts hencoded hfit index
  rw [List.append_nil] at hall
  rw [hall]
  exact congrArg Except.ok (List.append_nil _)

/-! ## Keys of several columns -/

theorem encode_of_isComposite {key : PartitionKey} (hcomposite : key.isComposite = true) :
    key.encode = encodeFrames 0 key.components := by
  unfold encode
  split
  · rename_i value hcomponents
    simp [isComposite, length, hcomponents] at hcomposite
  · rfl

/-- A key of several columns is laid out if its components have encodings that fit. -/
theorem encode_eq_ok_of_parts {key : PartitionKey} (hcomposite : key.isComposite = true)
    {parts : List (List UInt8)} (hencoded : Value.EncodedAs key.components parts)
    (hfit : ∀ part ∈ parts, part.length ≤ maxComponentLength) :
    key.encode = .ok (parts.flatMap fun part => bigEndian 2 part.length ++ part ++ [0]) := by
  rw [encode_of_isComposite hcomposite, encodeFrames_of_parts hencoded hfit,
    flatMap_frame_eq hfit]

/-- What is laid out for several columns is a row of frames. -/
theorem parts_of_encode {key : PartitionKey} (hcomposite : key.isComposite = true)
    {octets : List UInt8} (h : key.encode = .ok octets) :
    ∃ parts, Value.EncodedAs key.components parts ∧
      (∀ part ∈ parts, part.length ≤ maxComponentLength) ∧ octets = parts.flatMap frame := by
  rw [encode_of_isComposite hcomposite] at h
  exact encodeFrames_eq_ok h

/-! ## Reading in step -/

/-- No row of frames begins another one of as many frames. -/
theorem flatMap_frame_eq_of_begins {parts others : List (List UInt8)}
    (hparts : ∀ part ∈ parts, part.length ≤ maxComponentLength)
    (hothers : ∀ part ∈ others, part.length ≤ maxComponentLength)
    (hcount : parts.length = others.length)
    (h : parts.flatMap frame <+: others.flatMap frame) :
    parts.flatMap frame = others.flatMap frame := by
  obtain ⟨rest, hrest⟩ := h
  rw [← List.append_nil (others.flatMap frame)] at hrest
  obtain ⟨more, rfl, -⟩ := flatMap_frame_append_inj hparts hothers (Nat.le_of_eq hcount) hrest
  have hnone : more = [] := by simpa using hcount
  rw [hnone, List.append_nil]

end PartitionKey

/-! ## Components that are encoded alike -/

namespace Value

/-- The values have the same encodings, one by one. -/
abbrev EncodedAlike (values others : List Value) : Prop :=
  List.Forall₂ (fun value other => ∃ part, value.encodeKey = .ok part ∧ other.encodeKey = .ok part)
    values others

theorem EncodedAs.alike_iff {values others : List Value} {parts otherParts : List (List UInt8)}
    (hvalues : EncodedAs values parts) (hothers : EncodedAs others otherParts) :
    EncodedAlike values others ↔ parts = otherParts := by
  induction hvalues generalizing others otherParts with
  | nil =>
      cases hothers with
      | nil => exact ⟨fun _ => rfl, fun _ => .nil⟩
      | cons _ _ => simp
  | @cons value part _ _ hvalue _ ih =>
      cases hothers with
      | nil => simp
      | @cons other otherPart _ _ hother hrest =>
          have hfirst : (∃ part, value.encodeKey = .ok part ∧ other.encodeKey = .ok part) ↔
              part = otherPart := by
            rw [hvalue, hother]
            constructor
            · rintro ⟨_, hpart, hotherPart⟩
              exact Except.ok.inj (hpart.trans hotherPart.symm)
            · rintro rfl
              exact ⟨part, rfl, rfl⟩
          rw [EncodedAlike, List.forall₂_cons, hfirst, List.cons.injEq]
          exact and_congr_right' (ih hrest)

end Value

namespace PartitionKey

/-- Keys of several columns, possibly not of as many, that have layouts: the layouts are the same
exactly if there are as many columns and the components in each have the same encoding.  Where
there are as many columns, neither layout begins the other one, unless they are the same.  A key
whose components have encodings of at most 65535 octets has a layout: of each component two octets
which tell the length in full, the encoding, and one zero octet. -/
theorem composites_read_apart {key other : PartitionKey} (hkey : key.isComposite = true)
    (hother : other.isComposite = true) :
    (∀ octets otherOctets, key.encode = .ok octets → other.encode = .ok otherOctets →
      (octets = otherOctets ↔
        key.length = other.length ∧ Value.EncodedAlike key.components other.components) ∧
      (key.length = other.length → octets <+: otherOctets ∨ otherOctets <+: octets →
        octets = otherOctets)) ∧
    ∀ parts, Value.EncodedAs key.components parts → (∀ part ∈ parts, part.length ≤ 65535) →
      key.encode = .ok (parts.flatMap fun part => bigEndian 2 part.length ++ part ++ [0]) ∧
        ∀ part ∈ parts, ofBigEndian (bigEndian 2 part.length) = part.length := by
  refine ⟨fun octets otherOctets hencode hotherEncode => ?_, fun parts hencoded hfit => ?_⟩
  · obtain ⟨parts, hencoded, hfit, rfl⟩ := parts_of_encode hkey hencode
    obtain ⟨others, hotherEncoded, hotherFit, rfl⟩ := parts_of_encode hother hotherEncode
    have halike := hencoded.alike_iff hotherEncoded
    refine ⟨⟨fun hsame => ?_, fun hcomponents => ?_⟩, fun hlength hbegins => ?_⟩
    · have hcomponents := halike.2 (flatMap_frame_inj hfit hotherFit hsame)
      exact ⟨hcomponents.length_eq, hcomponents⟩
    · rw [halike.1 hcomponents.2]
    · have hcount : parts.length = others.length :=
        (hencoded.length_eq.symm.trans hlength).trans hotherEncoded.length_eq
      rcases hbegins with hbegins | hbegins
      · exact flatMap_frame_eq_of_begins hfit hotherFit hcount hbegins
      · exact (flatMap_frame_eq_of_begins hotherFit hfit hcount.symm hbegins).symm
  · exact ⟨encode_eq_ok_of_parts hkey hencoded hfit,
      fun part hpart => ofBigEndian_length (hfit part hpart)⟩

/-- A component that spells the end of a frame and the beginning of the next one is not taken for
two components, and what follows it does not make one layout begin the other.  The longest
component has its length in full. -/
theorem composites_read_apart_of_spelled_frame : ∃ spelling split longer longest : PartitionKey,
    ∃ octets splitOctets longerOctets long,
      spelling.components = [.blob [7, 0, 0, 1, 8], .blob []] ∧
      split.components = [.blob [7], .blob [8], .blob []] ∧
      longer.components = [.blob [7, 0, 0, 1, 8], .blob [0]] ∧
      longest.components = [.blob long, .blob []] ∧ long.length = 65535 ∧
      spelling.encode = .ok octets ∧ split.encode = .ok splitOctets ∧
      longer.encode = .ok longerOctets ∧ octets ≠ splitOctets ∧
      ¬ (octets <+: longerOctets ∨ longerOctets <+: octets) ∧
      longest.encode = .ok ([255, 255] ++ long ++ [0, 0, 0, 0]) := by
  obtain ⟨long, hlong⟩ : ∃ long : List UInt8, long.length = 65535 :=
    ⟨List.replicate 65535 7, List.length_replicate⟩
  let spelling : PartitionKey := ⟨[.blob [7, 0, 0, 1, 8], .blob []], by simp⟩
  let split : PartitionKey := ⟨[.blob [7], .blob [8], .blob []], by simp⟩
  let longer : PartitionKey := ⟨[.blob [7, 0, 0, 1, 8], .blob [0]], by simp⟩
  let longest : PartitionKey := ⟨[.blob long, .blob []], by simp⟩
  have hspelling : spelling.encode = .ok [0, 5, 7, 0, 0, 1, 8, 0, 0, 0, 0] := by decide +kernel
  have hsplit : split.encode = .ok [0, 1, 7, 0, 0, 1, 8, 0, 0, 0, 0] := by decide +kernel
  have hlonger : longer.encode = .ok [0, 5, 7, 0, 0, 1, 8, 0, 0, 1, 0, 0] := by decide +kernel
  have hapart := ((@composites_read_apart spelling split rfl rfl).1 _ _
    hspelling hsplit).1
  have hbegins := ((@composites_read_apart spelling longer rfl rfl).1 _ _
    hspelling hlonger).2 rfl
  have hlongest := ((@composites_read_apart longest spelling rfl rfl).2
    [long, []] (.cons rfl (.cons rfl .nil)) (by simp [hlong])).1
  refine ⟨spelling, split, longer, longest, _, _, _, long, rfl, rfl, rfl, rfl, hlong, hspelling,
    hsplit, hlonger, fun hsame => ?_, fun hone => ?_, ?_⟩
  · exact absurd (hapart.1 hsame).1 (by decide)
  · exact absurd (hbegins hone) (by decide)
  · have hlength : bigEndian 2 65535 = [255, 255] := by decide
    rw [hlongest, List.flatMap_cons, hlong, hlength, List.append_assoc, List.append_assoc]
    rfl

end PartitionKey
end RingRouting
