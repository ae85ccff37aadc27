import RingRouting.Column.Decoding
import RingRouting.Proofs.Column.Vint
import RingRouting.Proofs.Text.Utf8

/-!
# Values survive their octets

A value is written as octets unless it is an `ascii` text with a character past `U+007F` or
a `time` outside the day; nothing else is refused.  What was written has the width of the
value's type, if the type has one, and is read as the same value under that type.

Main results:

- Theorem `Value.encode_eq_error_iff`: which values have no octets.
- Theorem `Duration.decode_encode`: a duration is read as it was written.
- Theorem `Value.decodeSized_encode`: a value is read as it was written.
- Theorem `Value.cells_round_trip`: all of this, for every value that has a type.
-/

namespace RingRouting

open Octets

/-! ## Durations -/

theorem narrow?_toInt64 (n : Int32) : narrow? n.toInt64 = some n := by
  have hlow := n.le_toInt
  have hhigh := n.toInt_lt
  rw [narrow?, Int32.toInt_toInt64, if_pos (by omega), Int32.ofInt_toInt]

/-- A duration is read as it was written. -/
theorem Duration.decode_encode (d : Duration) : Duration.decode d.encode = .ok d := by
  have hlast := Vint.decode_encode d.nanoseconds []
  rw [List.append_nil] at hlast
  simp only [Duration.decode, Duration.encode, List.append_assoc, Vint.decode_encode, hlast,
    List.isEmpty_nil, Bool.not_true, narrow?_toInt64]
  rfl

theorem Duration.length_encode_pos (d : Duration) : 0 < d.encode.length := by
  have hmonths := Vint.length_encode_pos d.months.toInt64
  simp only [Duration.encode, List.length_append]
  omega

theorem ColumnType.fixedWidth_pos {type : ColumnType} {width : Nat}
    (h : type.fixedWidth = some width) : 0 < width := by
  cases type <;> cases h <;> decide

namespace Value

/-! ## Values without octets -/

/-- Whether a value lies in the domain of its type: an `ascii` text has characters below
`U+0080` only, and a `time` is one of the nanoseconds of a day. -/
def InDomain : Value → Prop
  | ascii s => ∀ c ∈ s.toList, c.toNat < 128
  | time n => 0 ≤ n.toInt ∧ n.toInt ≤ 86399999999999
  | _ => True

theorem isAscii_iff (s : String) : Utf8.isAscii s = true ↔ ∀ c ∈ s.toList, c.toNat < 128 := by
  simp only [Utf8.isAscii, List.all_eq_true, decide_eq_true_eq, UInt32.lt_iff_toNat_lt]
  rfl

theorem isTimeOfDay_iff (n : Int64) :
    isTimeOfDay n = true ↔ 0 ≤ n.toInt ∧ n.toInt ≤ 86399999999999 :=
  decide_eq_true_iff

/-- Values outside the domain of their type have no octets, and all others have some. -/
theorem encode_eq_error_iff (value : Value) :
    (∃ e, value.encode = .error e) ↔ ¬ value.InDomain := by
  cases value with
  | ascii s =>
      rw [InDomain, ← isAscii_iff, encode]
      cases Utf8.isAscii s <;> simp
  | time n =>
      rw [InDomain, ← isTimeOfDay_iff, encode]
      cases isTimeOfDay n <;> simp
  | _ => simp [encode, InDomain]

/-! ## Reading what was written -/

/-- A number is read as it was written. -/
theorem readNumber_bigEndian (type : ColumnType) {width n : Nat} (h : n < capacity width) :
    ColumnType.readNumber type width (bigEndian width n) = .ok n := by
  rw [ColumnType.readNumber_eq_ok _ (length_bigEndian _ _), ofBigEndian_bigEndian_of_lt h]

/-- The octets of a value have the width of its type. -/
theorem length_encode {value : Value} {type : ColumnType} (htype : value.columnType = some type)
    {octets : List UInt8} (hencode : value.encode = .ok octets) {width : Nat}
    (hwidth : type.fixedWidth = some width) : octets.length = width := by
  cases value with
  | empty => cases htype
  | ascii | text | blob | varint | inet | duration =>
      cases htype
      cases hwidth
  | time n =>
      cases htype
      cases hwidth
      rw [encode] at hencode
      split at hencode
      · cases hencode
        exact length_bigEndian _ _
      · cases hencode
  | counter | bigint | timestamp | date | double | float | int | smallint | tinyint =>
      cases htype
      cases hwidth
      cases hencode
      exact length_bigEndian _ _
  | boolean =>
      cases htype
      cases hwidth
      cases hencode
      rfl
  | timeuuid id | uuid id =>
      cases htype
      cases hwidth
      cases hencode
      exact Vector.length_toList

/-- What a value was written as is read as that value. -/
theorem decodeSized_encode {value : Value} {type : ColumnType}
    (htype : value.columnType = some type) {octets : List UInt8}
    (hencode : value.encode = .ok octets) : type.decodeSized octets = .ok value := by
  cases value with
  | empty => cases htype
  | ascii s =>
      cases htype
      rw [encode] at hencode
      split at hencode
      · rename_i hascii
        cases hencode
        rw [ColumnType.decodeSized, if_pos (Utf8.encode_lt_of_isAscii hascii),
          Utf8.decode_encode]
        rfl
      · cases hencode
  | text s =>
      cases htype
      cases hencode
      rw [ColumnType.decodeSized, Utf8.decode_encode]
      rfl
  | boolean flag =>
      cases htype
      cases hencode
      cases flag <;> rfl
  | blob octets =>
      cases htype
      cases hencode
      rfl
  | counter n | bigint n | timestamp n =>
      cases htype
      cases hencode
      rw [ColumnType.decodeSized, readNumber_bigEndian _ n.toUInt64.toNat_lt, Except.map,
        UInt64.ofNat_toNat, Int64.toInt64_toUInt64]
  | date d =>
      cases htype
      cases hencode
      rw [ColumnType.decodeSized, readNumber_bigEndian _ d.toNat_lt, Except.map,
        UInt32.ofNat_toNat]
  | double x =>
      cases htype
      cases hencode
      rw [ColumnType.decodeSized, readNumber_bigEndian _ x.bits.toNat_lt, Except.map,
        UInt64.ofNat_toNat]
  | float x =>
      cases htype
      cases hencode
      rw [ColumnType.decodeSized, readNumber_bigEndian _ x.bits.toNat_lt, Except.map,
        UInt32.ofNat_toNat]
  | int n =>
      cases htype
      cases hencode
      rw [ColumnType.decodeSized, readNumber_bigEndian _ n.toUInt32.toNat_lt, Except.map,
        UInt32.ofNat_toNat, Int32.toInt32_toUInt32]
  | smallint n =>
      cases htype
      cases hencode
      rw [ColumnType.decodeSized, readNumber_bigEndian _ n.toUInt16.toNat_lt, Except.map,
        UInt16.ofNat_toNat, Int16.toInt16_toUInt16]
  | tinyint n =>
      cases htype
      cases hencode
      rw [ColumnType.decodeSized, readNumber_bigEndian _ n.toUInt8.toNat_lt, Except.map,
        UInt8.ofNat_toNat, Int8.toInt8_toUInt8]
  | time n =>
      cases htype
      rw [encode] at hencode
      split at hencode
      · rename_i htime
        cases hencode
        rw [ColumnType.decodeSized, readNumber_bigEndian _ n.toUInt64.toNat_lt]
        simp only [bind, Except.bind, UInt64.ofNat_toNat, Int64.toInt64_toUInt64, htime, if_true]
      · cases hencode
  | inet address =>
      cases htype
      cases hencode
      rw [ColumnType.decodeSized, Address.ofOctets?_octets]
  | timeuuid id | uuid id =>
      cases htype
      cases hencode
      rw [ColumnType.decodeSized, ColumnType.decodeUuid, vector?_toList]
  | varint n =>
      cases htype
      cases hencode
      have hsome : (ofInt n).isEmpty = false := by
        simpa using List.ne_nil_of_length_pos (length_ofInt_pos n)
      rw [ColumnType.decodeSized, hsome, toInt_ofInt]
      rfl
  | duration d =>
      cases htype
      cases hencode
      have hsome : d.encode.isEmpty = false := by
        simpa using List.ne_nil_of_length_pos d.length_encode_pos
      rw [ColumnType.decodeSized, hsome, Duration.decode_encode]
      rfl

/-- Every value that has a type is written as octets exactly if it lies in the domain of its
type.  The octets have the width of the type, if it has one, and are read under it as the
same value; floating-point values are the same if their bits are. -/
theorem cells_round_trip {value : Value} {type : ColumnType}
    (htype : value.columnType = some type) :
    ((∃ e, value.encode = .error e) ↔
        (∃ s, value = .ascii s ∧ ∃ c ∈ s.toList, 128 ≤ c.toNat) ∨
          ∃ n, value = .time n ∧ ¬ (0 ≤ n.toInt ∧ n.toInt ≤ 86399999999999)) ∧
      ∀ octets, value.encode = .ok octets →
        (∀ width, type.fixedWidth = some width → octets.length = width) ∧
          type.decode octets = .ok value := by
  constructor
  · rw [encode_eq_error_iff]
    cases value <;> simp [InDomain]
  · intro octets hencode
    have hlength : ∀ width, type.fixedWidth = some width → octets.length = width :=
      fun width hwidth => length_encode htype hencode hwidth
    refine ⟨hlength, ?_⟩
    rw [ColumnType.decode]
    cases hwidth : type.fixedWidth with
    | none => exact decodeSized_encode htype hencode
    | some width =>
        have hsame := hlength width hwidth
        have hsome : octets.isEmpty = false := by
          rw [List.isEmpty_eq_false_iff, ← List.length_pos_iff, hsame]
          exact ColumnType.fixedWidth_pos hwidth
        simp only [hsome, hsame, Bool.false_eq_true, if_false, ne_eq, not_true_eq_false]
        exact decodeSized_encode htype hencode

/-- A negative signalling not-a-number keeps its bits. -/
theorem cells_round_trip_of_nan : ∃ value octets,
    value = double ⟨0xFFF0000000000001⟩ ∧ value.columnType = some .double ∧
      value.encode = .ok octets ∧ octets = [0xFF, 0xF0, 0, 0, 0, 0, 0, 1] ∧
      octets.length = 8 ∧ ColumnType.decode .double octets = .ok value := by
  have htype : (double ⟨0xFFF0000000000001⟩).columnType = some .double := rfl
  have hencode : (double ⟨0xFFF0000000000001⟩).encode = .ok [0xFF, 0xF0, 0, 0, 0, 0, 0, 1] := by
    decide +kernel
  have hlaw := (cells_round_trip htype).2 _ hencode
  exact ⟨_, _, rfl, htype, hencode, rfl, hlaw.1 8 rfl, hlaw.2⟩

end Value
end RingRouting
