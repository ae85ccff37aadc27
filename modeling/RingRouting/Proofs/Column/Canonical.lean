import RingRouting.Proofs.Column.RoundTrip
import RingRouting.Proofs.Results

/-!
# Writing what was read

Octets that are read as a value are written anew in one form, its own.  For most types that
form is what was read.  A boolean may have been read from any octet that is not zero, and a
`varint` or a `duration` from a longer form; the form that is written is then the shortest of
all that are read as the value, and no other is as short.

Main results:

- Theorem `Duration.encode_shortest`: all other forms of a duration are longer.
- Theorem `ColumnType.encode_of_decodeSized`: the types whose octets are written as they were
  read.
- Theorem `ColumnType.writes_canonical_form`: all of this, for every type and whatever is read.
-/

namespace RingRouting

open Octets

/-! ## Durations -/

/-- A number that was narrowed is the one that was read. -/
theorem toInt64_of_narrow? {number : Int64} {narrowed : Int32}
    (h : narrow? number = some narrowed) : narrowed.toInt64 = number := by
  unfold narrow? at h
  split at h
  · rename_i hfits
    cases h
    apply Int64.toInt_inj.1
    rw [Int32.toInt_toInt64, Int32.toInt_ofInt_of_le (by omega) (by omega)]
  · cases h

/-- What is read as a duration is three numbers, one after another, and nothing else. -/
theorem Duration.decode_eq_ok {octets : List UInt8} {d : Duration}
    (h : Duration.decode octets = .ok d) :
    ∃ afterMonths afterDays, Vint.decode octets = some (d.months.toInt64, afterMonths) ∧
      Vint.decode afterMonths = some (d.days.toInt64, afterDays) ∧
      Vint.decode afterDays = some (d.nanoseconds, []) := by
  unfold Duration.decode at h
  cases hmonths : Vint.decode octets with
  | none =>
      rw [hmonths] at h
      cases h
  | some first =>
      obtain ⟨months, afterMonths⟩ := first
      simp only [hmonths] at h
      cases hdays : Vint.decode afterMonths with
      | none =>
          rw [hdays] at h
          cases h
      | some second =>
          obtain ⟨days, afterDays⟩ := second
          simp only [hdays] at h
          cases hnanoseconds : Vint.decode afterDays with
          | none =>
              rw [hnanoseconds] at h
              cases h
          | some third =>
              obtain ⟨nanoseconds, rest⟩ := third
              simp only [hnanoseconds] at h
              cases rest with
              | cons octet rest => cases h
              | nil =>
                  simp only [List.isEmpty_nil, Bool.not_true, Bool.false_eq_true,
                    if_false] at h
                  split at h
                  · rename_i narrowMonths narrowDays hnarrowMonths hnarrowDays
                    cases h
                    rw [toInt64_of_narrow? hnarrowMonths, toInt64_of_narrow? hnarrowDays]
                    exact ⟨afterMonths, afterDays, rfl, hdays, hnanoseconds⟩
                  · cases h

/-- Of octets one after another, each its own form or longer than it, the whole is. -/
theorem eq_or_longer_append {first second ownFirst ownSecond : List UInt8}
    (hfirst : first = ownFirst ∨ ownFirst.length < first.length)
    (hsecond : second = ownSecond ∨ ownSecond.length < second.length) :
    first ++ second = ownFirst ++ ownSecond ∨
      (ownFirst ++ ownSecond).length < (first ++ second).length := by
  simp only [List.length_append]
  rcases hfirst with rfl | hfirst
  · rcases hsecond with rfl | hsecond
    · exact .inl rfl
    · exact .inr (Nat.add_lt_add_left hsecond _)
  · right
    rcases hsecond with rfl | hsecond <;> omega

/-- What is read as a duration is the duration's own form, or longer than it. -/
theorem Duration.encode_shortest {octets : List UInt8} {d : Duration}
    (h : Duration.decode octets = .ok d) :
    octets = d.encode ∨ d.encode.length < octets.length := by
  obtain ⟨afterMonths, afterDays, hmonths, hdays, hnanoseconds⟩ := Duration.decode_eq_ok h
  obtain ⟨months, rfl, hfirst⟩ := Vint.encode_shortest hmonths
  obtain ⟨days, rfl, hsecond⟩ := Vint.encode_shortest hdays
  obtain ⟨nanoseconds, rfl, hthird⟩ := Vint.encode_shortest hnanoseconds
  rw [Duration.encode, List.append_nil, ← List.append_assoc]
  exact eq_or_longer_append (eq_or_longer_append hfirst hsecond) hthird

namespace ColumnType

/-! ## Types whose octets are written as they were read -/

/-- Eight octets are those of the signed number they spell. -/
theorem bigEndian_toUInt64 {octets : List UInt8} (hlength : octets.length = 8) :
    bigEndian 8 (UInt64.ofNat (ofBigEndian octets)).toInt64.toUInt64.toNat = octets := by
  rw [UInt64.toUInt64_toInt64, UInt64.toNat_ofNat']
  exact bigEndian_ofBigEndian_mod hlength rfl

/-- Octets that are read as a text are those of the text. -/
theorem text_of_decode {octets : List UInt8} {build : String → Value} {value : Value}
    (hdecode : ((Utf8.decode octets).mapError DecodingError.invalidUtf8).map build =
      .ok value) : ∃ text, value = build text ∧ Utf8.encode text = octets := by
  obtain ⟨text, htext, rfl⟩ := Except.map_eq_ok hdecode
  exact ⟨text, rfl, Utf8.encode_of_decode (Except.mapError_eq_ok htext)⟩

/-- Octets that are read under most types are written as they were read. -/
theorem encode_of_decodeSized {type : ColumnType} {octets : List UInt8} {value : Value}
    (hdecode : type.decodeSized octets = .ok value)
    (hlength : ∀ width, type.fixedWidth = some width → octets.length = width)
    (hboolean : type ≠ .boolean) (hvarint : type ≠ .varint) (hduration : type ≠ .duration) :
    value.encode = .ok octets := by
  cases type with
  | boolean => exact absurd rfl hboolean
  | varint => exact absurd rfl hvarint
  | duration => exact absurd rfl hduration
  | blob =>
      cases hdecode
      rfl
  | text =>
      obtain ⟨text, rfl, hwritten⟩ := text_of_decode hdecode
      exact congrArg Except.ok hwritten
  | ascii =>
      rw [decodeSized] at hdecode
      split at hdecode
      · rename_i hlow
        obtain ⟨text, rfl, hwritten⟩ := text_of_decode hdecode
        rw [Value.encode, if_pos (Utf8.isAscii_of_encode_lt (hwritten ▸ hlow)), hwritten]
      · cases hdecode
  | counter | bigint | timestamp =>
      rw [decodeSized, readNumber_eq_ok _ (hlength 8 rfl)] at hdecode
      cases hdecode
      rw [Value.encode, bigEndian_toUInt64 (hlength 8 rfl)]
  | time =>
      rw [decodeSized, readNumber_eq_ok _ (hlength 8 rfl)] at hdecode
      simp only [bind, Except.bind] at hdecode
      split at hdecode
      · rename_i htime
        cases hdecode
        rw [Value.encode, if_pos htime, bigEndian_toUInt64 (hlength 8 rfl)]
      · cases hdecode
  | date =>
      rw [decodeSized, readNumber_eq_ok _ (hlength 4 rfl)] at hdecode
      cases hdecode
      rw [Value.encode, UInt32.toNat_ofNat']
      exact congrArg Except.ok (bigEndian_ofBigEndian_mod (hlength 4 rfl) rfl)
  | double =>
      rw [decodeSized, readNumber_eq_ok _ (hlength 8 rfl)] at hdecode
      cases hdecode
      rw [Value.encode, UInt64.toNat_ofNat']
      exact congrArg Except.ok (bigEndian_ofBigEndian_mod (hlength 8 rfl) rfl)
  | float =>
      rw [decodeSized, readNumber_eq_ok _ (hlength 4 rfl)] at hdecode
      cases hdecode
      rw [Value.encode, UInt32.toNat_ofNat']
      exact congrArg Except.ok (bigEndian_ofBigEndian_mod (hlength 4 rfl) rfl)
  | int =>
      rw [decodeSized, readNumber_eq_ok _ (hlength 4 rfl)] at hdecode
      cases hdecode
      rw [Value.encode, UInt32.toUInt32_toInt32, UInt32.toNat_ofNat']
      exact congrArg Except.ok (bigEndian_ofBigEndian_mod (hlength 4 rfl) rfl)
  | smallint =>
      rw [decodeSized, readNumber_eq_ok _ (hlength 2 rfl)] at hdecode
      cases hdecode
      rw [Value.encode, UInt16.toUInt16_toInt16, UInt16.toNat_ofNat']
      exact congrArg Except.ok (bigEndian_ofBigEndian_mod (hlength 2 rfl) rfl)
  | tinyint =>
      rw [decodeSized, readNumber_eq_ok _ (hlength 1 rfl)] at hdecode
      cases hdecode
      rw [Value.encode, UInt8.toUInt8_toInt8, UInt8.toNat_ofNat']
      exact congrArg Except.ok (bigEndian_ofBigEndian_mod (hlength 1 rfl) rfl)
  | uuid | timeuuid =>
      rw [decodeSized, decodeUuid] at hdecode
      split at hdecode
      · rename_i id hid
        cases hdecode
        exact congrArg Except.ok (toList_of_vector? hid)
      · cases hdecode
  | inet =>
      rw [decodeSized] at hdecode
      split at hdecode
      · rename_i address haddress
        cases hdecode
        exact congrArg Except.ok (Address.octets_of_ofOctets? haddress)
      · cases hdecode

/-- Octets that are read have the width of the type, if it has one; only no octets may be
fewer, and are the empty value. -/
theorem decode_eq_ok {type : ColumnType} {octets : List UInt8} {value : Value}
    (hdecode : type.decode octets = .ok value) :
    (octets = [] ∧ value = .empty) ∨
      (type.decodeSized octets = .ok value ∧
        ∀ width, type.fixedWidth = some width → octets.length = width) := by
  rw [decode] at hdecode
  cases hwidth : type.fixedWidth with
  | none =>
      rw [hwidth] at hdecode
      exact .inr ⟨hdecode, fun width hsome => by cases hsome⟩
  | some width =>
      simp only [hwidth] at hdecode
      split at hdecode
      · rename_i hnone
        cases hdecode
        exact .inl ⟨List.isEmpty_iff.1 hnone, rfl⟩
      · split at hdecode
        · cases hdecode
        · rename_i hlength
          refine .inr ⟨hdecode, fun other hother => ?_⟩
          cases hother
          exact Decidable.not_not.1 hlength

theorem encode_of_decode {type : ColumnType} {octets : List UInt8} {value : Value}
    (hdecode : type.decode octets = .ok value) (hboolean : type ≠ .boolean)
    (hvarint : type ≠ .varint) (hduration : type ≠ .duration) :
    value.encode = .ok octets := by
  rcases decode_eq_ok hdecode with ⟨rfl, rfl⟩ | ⟨hsized, hlength⟩
  · rfl
  · exact encode_of_decodeSized hsized hlength hboolean hvarint hduration

/-! ## Types whose values have other forms -/

/-- A `boolean` is written as zero or one. -/
theorem boolean_of_decode {octets : List UInt8} {value : Value}
    (hdecode : decode .boolean octets = .ok value) :
    value.encode = .ok (octets.map fun octet => if octet = 0 then 0 else 1) ∧
      decode .boolean (octets.map fun octet => if octet = 0 then 0 else 1) = .ok value := by
  rcases decode_eq_ok hdecode with ⟨rfl, rfl⟩ | ⟨hsized, hlength⟩
  · exact ⟨rfl, rfl⟩
  · obtain ⟨octet, rfl⟩ := List.length_eq_one_iff.1 (hlength 1 rfl)
    cases hsized
    by_cases hzero : octet = 0
    · subst hzero
      exact ⟨rfl, rfl⟩
    · rw [bne_iff_ne.2 hzero, List.map_singleton, if_neg hzero]
      exact ⟨rfl, rfl⟩

/-- A `varint` and a `duration` are read from their own form, or from a longer one. -/
theorem encode_shortest {type : ColumnType} (htype : type = .varint ∨ type = .duration)
    {octets : List UInt8} {value : Value} (hdecode : type.decode octets = .ok value) :
    ∃ own, value.encode = .ok own ∧ type.decode own = .ok value ∧
      (octets = own ∨ own.length < octets.length) := by
  have hsized : type.decodeSized octets = .ok value := by
    rcases htype with rfl | rfl <;> exact hdecode
  by_cases hsome : octets = []
  · subst hsome
    refine ⟨[], ?_, hdecode, .inl rfl⟩
    rcases htype with rfl | rfl <;> cases hsized <;> rfl
  rcases htype with rfl | rfl
  · rw [decodeSized, if_neg (by simpa using hsome)] at hsized
    cases hsized
    have hencode : (Value.varint (toInt octets)).encode = .ok (ofInt (toInt octets)) := rfl
    have hread : decodeSized (ofInt (toInt octets)) .varint = .ok (.varint (toInt octets)) :=
      Value.decodeSized_encode rfl hencode
    exact ⟨_, hencode, hread, ofInt_toInt hsome⟩
  · rw [decodeSized, if_neg (by simpa using hsome)] at hsized
    obtain ⟨d, hform, rfl⟩ := Except.map_eq_ok hsized
    have hencode : (Value.duration d).encode = .ok d.encode := rfl
    have hread : decodeSized d.encode .duration = .ok (.duration d) :=
      Value.decodeSized_encode rfl hencode
    exact ⟨_, hencode, hread, Duration.encode_shortest hform⟩

/-- Whatever octets are read as a value: the value is written anew, in no more octets, and
what is written is read as the same value; floating-point values are the same if their bits
are.  The octets are written as they were read under every type but three.  A `boolean` is
written as zero or one.  A `varint` and a `duration` are written in the shortest form that is
read as the value, and every other form is longer. -/
theorem writes_canonical_form {type : ColumnType} {octets : List UInt8} {value : Value}
    (hdecode : type.decode octets = .ok value) :
    ∃ canonical, value.encode = .ok canonical ∧ canonical.length ≤ octets.length ∧
      type.decode canonical = .ok value ∧
      (type ≠ .boolean → type ≠ .varint → type ≠ .duration → canonical = octets) ∧
      (type = .boolean →
        canonical = octets.map fun octet => if octet = 0 then 0 else 1) ∧
      (type = .varint ∨ type = .duration → ∀ other, type.decode other = .ok value →
        other = canonical ∨ canonical.length < other.length) := by
  by_cases hboolean : type = .boolean
  · subst hboolean
    obtain ⟨hencode, hread⟩ := boolean_of_decode hdecode
    refine ⟨_, hencode, by simp, hread, by simp, fun _ => rfl, ?_⟩
    rintro (htype | htype) <;> cases htype
  by_cases hlong : type = .varint ∨ type = .duration
  · obtain ⟨own, hencode, hread, hform⟩ := encode_shortest hlong hdecode
    refine ⟨own, hencode, ?_, hread, ?_, fun htype => absurd htype hboolean, ?_⟩
    · rcases hform with rfl | hlt
      · exact Nat.le_refl _
      · exact Nat.le_of_lt hlt
    · exact fun _ hvarint hduration => absurd hlong (not_or.2 ⟨hvarint, hduration⟩)
    · intro _ other hother
      obtain ⟨same, hsame, -, hotherForm⟩ := encode_shortest hlong hother
      cases Except.ok.inj (hsame.symm.trans hencode)
      exact hotherForm
  · obtain ⟨hvarint, hduration⟩ := not_or.1 hlong
    exact ⟨octets, encode_of_decode hdecode hboolean hvarint hduration, Nat.le_refl _, hdecode,
      fun _ _ _ => rfl, fun htype => absurd htype hboolean, fun htype => absurd htype hlong⟩

/-- A duration whose months take an octet too many is written in three octets, and no other
form is as short. -/
theorem writes_canonical_form_of_long_months : ∃ octets value canonical,
    octets = [0x80, 0x02, 0x01, 0x00] ∧ decode .duration octets = .ok value ∧
      value.encode = .ok canonical ∧ canonical = [0x02, 0x01, 0x00] ∧
      decode .duration canonical = .ok value ∧
      ∀ other, decode .duration other = .ok value →
        other = canonical ∨ canonical.length < other.length := by
  have hdecode : decode .duration [0x80, 0x02, 0x01, 0x00] =
      .ok (.duration ⟨1, -1, 0⟩) := by
    decide +kernel
  obtain ⟨canonical, hencode, -, hread, -, -, hshortest⟩ := writes_canonical_form hdecode
  have hwritten : (Value.duration ⟨1, -1, 0⟩).encode = .ok [0x02, 0x01, 0x00] := by
    decide +kernel
  exact ⟨_, _, canonical, rfl, hdecode, hencode, Except.ok.inj (hencode.symm.trans hwritten),
    hread, hshortest (.inr rfl)⟩

end ColumnType
end RingRouting
