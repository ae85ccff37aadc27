import RingRouting.Proofs.Column.Canonical

/-!
# The grammar of cells

Which octets are a value of a type is said here without a reader: how many there must be, what
a variable-length integer looks like, and which three of them make a duration.  The reader
accepts exactly those, and what it says of all others is settled as well.

Main definitions:

- `Vint.Spells`, `Vint.RunsShort`: variable-length integers, and those cut off by the end.
- `Duration.Verdict`: what is said of octets that are to be a duration.
- `ColumnType.Grammar`: what is said of octets under each type.

Main results:

- Theorem `Vint.decode_eq_some_iff`, `Vint.decode_eq_none_iff`: the reader of one integer.
- Theorem `Duration.verdict_iff`: the reader of a duration.
- Theorem `ColumnType.decode_follows_grammar`: the reader of cells, for all types and octets.
-/

namespace RingRouting

open Octets

/-! ## Variable-length integers -/

namespace Vint

/-- The first octet has `extra` one bits at its top and then, unless it is all ones, a zero
bit. -/
def Announces (first : UInt8) (extra : Nat) : Prop :=
  extra ≤ 8 ∧ 256 - 256 / 2 ^ extra ≤ first.toNat ∧ first.toNat < 256 - 256 / 2 ^ (extra + 1)

/-- The octets are one variable-length integer.  The first octet announces how many follow;
what is left of it and the octets that follow spell the place of the number among
`0, -1, 1, -2, 2, …`. -/
inductive Spells : List UInt8 → Int64 → Prop where
  | intro {first : UInt8} {tail : List UInt8} {number : Int64}
      (hannounced : Announces first tail.length)
      (hplace : (if 0 ≤ number.toInt then 2 * number.toInt else -2 * number.toInt - 1) =
        ((first.toNat - (256 - 256 / 2 ^ tail.length)) * 256 ^ tail.length +
          ofBigEndian tail : Nat)) :
      Spells (first :: tail) number

/-- The octets end before the variable-length integer at their front does. -/
inductive RunsShort : List UInt8 → Prop where
  | nothing : RunsShort []
  | cut {first : UInt8} {tail : List UInt8} {extra : Nat}
      (hannounced : Announces first extra) (hshort : tail.length < extra) :
      RunsShort (first :: tail)

/-- The mark of a number of octets, and the digits that are left under it. -/
theorem announces_octet : ∀ first : UInt8, ∀ extra < 9,
    256 - 256 / 2 ^ extra ≤ first.toNat ∧ first.toNat < 256 - 256 / 2 ^ (extra + 1) ↔
      leadingOnes first = extra :=
  forall_octet (by decide +kernel)

theorem announces_iff (first : UInt8) (extra : Nat) :
    Announces first extra ↔ leadingOnes first = extra := by
  by_cases hextra : extra < 9
  · have hoctet := announces_octet first extra hextra
    rw [Announces, hoctet]
    exact and_iff_right (Nat.le_of_lt_succ hextra)
  · have hlt := leadingOnes_lt first
    constructor
    · exact fun h => absurd (Nat.lt_succ_of_le h.1) hextra
    · omega

/-- The digits that are left in a first octet. -/
theorem digits_of_announces {first : UInt8} {extra : Nat} (h : Announces first extra) :
    first.toNat % (1 <<< (7 - extra)) = first.toNat - (256 - 256 / 2 ^ extra) := by
  have hmark := (octet_eq_mark first).2
  rw [(announces_iff first extra).1 h, mark, Nat.shiftRight_eq_div_pow] at hmark
  omega

/-- What the reader makes of octets is what they spell. -/
theorem spells_cons_iff (first : UInt8) (tail : List UInt8) (number : Int64) :
    Spells (first :: tail) number ↔
      tail.length = leadingOnes first ∧ (interleave number).toNat = spelled first tail := by
  have hplace (hannounced : Announces first tail.length) :
      spelled first tail = (first.toNat - (256 - 256 / 2 ^ tail.length)) * 256 ^ tail.length +
        ofBigEndian tail := by
    rw [spelled, (announces_iff _ _).1 hannounced, digits_of_announces hannounced,
      capacity_eq_two_pow, Nat.pow_mul]
  constructor
  · intro h
    cases h with
    | intro hannounced hnumber =>
        refine ⟨((announces_iff _ _).1 hannounced).symm, ?_⟩
        rw [← toNat_interleave, ← hplace hannounced] at hnumber
        exact Int.ofNat_inj.1 hnumber
  · rintro ⟨hlength, hnumber⟩
    have hannounced : Announces first tail.length := (announces_iff _ _).2 hlength.symm
    apply Spells.intro hannounced
    rw [← toNat_interleave, ← hplace hannounced, hnumber]

/-- The reader finds an integer at the front exactly if one is spelled there, and leaves what
follows it. -/
theorem decode_eq_some_iff {octets rest : List UInt8} {number : Int64} :
    decode octets = some (number, rest) ↔ ∃ used, octets = used ++ rest ∧ Spells used number := by
  rw [decode_eq_some_iff_place, decodeUnsigned_eq_some_iff]
  constructor
  · rintro ⟨first, tail, hoctets, hspelled⟩
    exact ⟨first :: tail, hoctets, (spells_cons_iff _ _ _).2 hspelled⟩
  · rintro ⟨used, hoctets, hused⟩
    cases used with
    | nil => cases hused
    | cons first tail => exact ⟨first, tail, hoctets, (spells_cons_iff _ _ _).1 hused⟩

/-- The reader finds none exactly if the octets run short. -/
theorem decode_eq_none_iff {octets : List UInt8} : decode octets = none ↔ RunsShort octets := by
  rw [decode, Option.map_eq_none_iff]
  constructor
  · intro h
    cases octets with
    | nil => exact .nothing
    | cons first tail =>
        exact .cut ((announces_iff _ _).2 rfl) (decodeUnsigned_cons_eq_none_iff.1 h)
  · intro h
    cases h with
    | nothing => rfl
    | cut hannounced hshort =>
        rw [← (announces_iff _ _).1 hannounced] at hshort
        exact decodeUnsigned_cons_eq_none_iff.2 hshort

end Vint

/-! ## Durations -/

/-- The number is a signed one of 32 digits. -/
def FitsInt32 (number : Int64) : Prop :=
  -2147483648 ≤ number.toInt ∧ number.toInt ≤ 2147483647

/-- What is said of octets that are to be a duration.  The first of the three integers that
runs short is missed; octets that are left are refused before numbers that are too large. -/
inductive Duration.Verdict : List UInt8 → Except DecodingError Duration → Prop where
  | missingMonths {octets : List UInt8} {fault : DurationFault}
      (hshort : Vint.RunsShort octets) (hfault : fault.message = "missing months") :
      Verdict octets (.error (.badDuration fault))
  | missingDays {first rest : List UInt8} {months : Int64} {fault : DurationFault}
      (hmonths : Vint.Spells first months) (hshort : Vint.RunsShort rest)
      (hfault : fault.message = "missing days") :
      Verdict (first ++ rest) (.error (.badDuration fault))
  | missingNanoseconds {first second rest : List UInt8} {months days : Int64}
      {fault : DurationFault} (hmonths : Vint.Spells first months)
      (hdays : Vint.Spells second days) (hshort : Vint.RunsShort rest)
      (hfault : fault.message = "missing nanoseconds") :
      Verdict (first ++ (second ++ rest)) (.error (.badDuration fault))
  | trailing {first second third rest : List UInt8} {months days nanoseconds : Int64}
      {fault : DurationFault} (hmonths : Vint.Spells first months)
      (hdays : Vint.Spells second days) (hnanoseconds : Vint.Spells third nanoseconds)
      (hrest : rest ≠ []) (hfault : fault.message = "trailing bytes") :
      Verdict (first ++ (second ++ (third ++ rest))) (.error (.badDuration fault))
  | overflow {first second third : List UInt8} {months days nanoseconds : Int64}
      (hmonths : Vint.Spells first months) (hdays : Vint.Spells second days)
      (hnanoseconds : Vint.Spells third nanoseconds)
      (hlarge : ¬ (FitsInt32 months ∧ FitsInt32 days)) :
      Verdict (first ++ (second ++ third)) (.error (.valueOverflow .duration))
  | accepted {first second third : List UInt8} {duration : Duration}
      (hmonths : Vint.Spells first duration.months.toInt64)
      (hdays : Vint.Spells second duration.days.toInt64)
      (hnanoseconds : Vint.Spells third duration.nanoseconds) :
      Verdict (first ++ (second ++ third)) (.ok duration)

namespace Duration

/-- A number is narrowed exactly if it fits. -/
theorem narrow?_eq_none_iff {number : Int64} : narrow? number = none ↔ ¬ FitsInt32 number := by
  unfold narrow? FitsInt32
  split <;> simp_all

/-- No two faults are worded alike. -/
theorem fault_of_message {fault : DurationFault} (other : DurationFault)
    (h : fault.message = other.message) : fault = other := by
  revert h
  cases fault <;> cases other <;> decide

/-- The reader's verdict is the one that is due. -/
theorem verdict_decode (octets : List UInt8) : Verdict octets (Duration.decode octets) := by
  unfold Duration.decode
  split
  · rename_i hnone
    exact .missingMonths (Vint.decode_eq_none_iff.1 hnone) rfl
  rename_i months afterMonths hmonths
  obtain ⟨first, rfl, hfirst⟩ := Vint.decode_eq_some_iff.1 hmonths
  split
  · rename_i hnone
    exact .missingDays hfirst (Vint.decode_eq_none_iff.1 hnone) rfl
  rename_i days afterDays hdays
  obtain ⟨second, rfl, hsecond⟩ := Vint.decode_eq_some_iff.1 hdays
  split
  · rename_i hnone
    exact .missingNanoseconds hfirst hsecond (Vint.decode_eq_none_iff.1 hnone) rfl
  rename_i nanoseconds rest hnanoseconds
  obtain ⟨third, rfl, hthird⟩ := Vint.decode_eq_some_iff.1 hnanoseconds
  by_cases hrest : rest = []
  · subst hrest
    simp only [List.isEmpty_nil, Bool.not_true, Bool.false_eq_true, if_false, List.append_nil]
    split
    · rename_i narrowMonths narrowDays hnarrowMonths hnarrowDays
      rw [← toInt64_of_narrow? hnarrowMonths] at hfirst
      rw [← toInt64_of_narrow? hnarrowDays] at hsecond
      exact .accepted hfirst hsecond hthird
    · rename_i hnarrow
      refine .overflow hfirst hsecond hthird ?_
      rintro ⟨hfitsMonths, hfitsDays⟩
      cases hnarrowMonths : narrow? months with
      | none => exact narrow?_eq_none_iff.1 hnarrowMonths hfitsMonths
      | some narrowMonths =>
          cases hnarrowDays : narrow? days with
          | none => exact narrow?_eq_none_iff.1 hnarrowDays hfitsDays
          | some narrowDays => exact hnarrow _ _ hnarrowMonths hnarrowDays
  · rw [if_pos (by simpa using hrest)]
    exact .trailing hfirst hsecond hthird hrest rfl

/-- No other verdict is due. -/
theorem decode_of_verdict {octets : List UInt8} {result : Except DecodingError Duration}
    (h : Verdict octets result) : Duration.decode octets = result := by
  have hread {used : List UInt8} {number : Int64} (hused : Vint.Spells used number)
      (rest : List UInt8) : Vint.decode (used ++ rest) = some (number, rest) :=
    Vint.decode_eq_some_iff.2 ⟨used, rfl, hused⟩
  have hlast {used : List UInt8} {number : Int64} (hused : Vint.Spells used number) :
      Vint.decode used = some (number, []) :=
    Vint.decode_eq_some_iff.2 ⟨used, (List.append_nil used).symm, hused⟩
  cases h with
  | missingMonths hshort hfault =>
      rw [fault_of_message .missingMonths hfault]
      simp only [Duration.decode, Vint.decode_eq_none_iff.2 hshort]
  | missingDays hmonths hshort hfault =>
      rw [fault_of_message .missingDays hfault]
      simp only [Duration.decode, hread hmonths, Vint.decode_eq_none_iff.2 hshort]
  | missingNanoseconds hmonths hdays hshort hfault =>
      rw [fault_of_message .missingNanoseconds hfault]
      simp only [Duration.decode, hread hmonths, hread hdays, Vint.decode_eq_none_iff.2 hshort]
  | trailing hmonths hdays hnanoseconds hrest hfault =>
      rw [fault_of_message .trailingOctets hfault]
      simp only [Duration.decode, hread hmonths, hread hdays, hread hnanoseconds]
      rw [if_pos (by simpa using hrest)]
  | overflow hmonths hdays hnanoseconds hlarge =>
      simp only [Duration.decode, hread hmonths, hread hdays, hlast hnanoseconds]
      rw [if_neg (by simp)]
      split
      · rename_i hnarrowMonths hnarrowDays
        rcases not_and_or.1 hlarge with hmonths | hdays
        · rw [narrow?_eq_none_iff.2 hmonths] at hnarrowMonths
          cases hnarrowMonths
        · rw [narrow?_eq_none_iff.2 hdays] at hnarrowDays
          cases hnarrowDays
      · rfl
  | accepted hmonths hdays hnanoseconds =>
      simp only [Duration.decode, hread hmonths, hread hdays, hlast hnanoseconds,
        narrow?_toInt64]
      rw [if_neg (by simp)]

theorem verdict_iff {octets : List UInt8} {result : Except DecodingError Duration} :
    Verdict octets result ↔ result = Duration.decode octets := by
  constructor
  · exact fun h => (decode_of_verdict h).symm
  · rintro rfl
    exact verdict_decode octets

end Duration

/-! ## Texts -/

namespace Utf8

/-- The octets are UTF-8. -/
def IsValid (octets : List UInt8) : Prop :=
  octets.toByteArray.IsValidUTF8

/-- Octets are UTF-8 exactly if they are those of a text. -/
theorem isValid_iff (octets : List UInt8) : IsValid octets ↔ ∃ text, encode text = octets := by
  constructor
  · rintro ⟨chars, hchars⟩
    refine ⟨String.ofList chars, ?_⟩
    rw [encode, String.toList_ofList]
    exact (List.toByteArray_inj.1 hchars).symm
  · rintro ⟨text, rfl⟩
    exact ⟨text.toList, rfl⟩

/-- Octets are read exactly if they are UTF-8, and then as the text that they are. -/
theorem decode_valid {octets : List UInt8} (h : IsValid octets) :
    ∃ text, encode text = octets ∧ decode octets = .ok text := by
  obtain ⟨text, rfl⟩ := (isValid_iff octets).1 h
  exact ⟨text, rfl, decode_encode text⟩

theorem decode_invalid {octets : List UInt8} (h : ¬ IsValid octets) :
    ∃ fault, decode octets = .error fault := by
  cases hdecode : decode octets with
  | error fault => exact ⟨fault, rfl⟩
  | ok text => exact absurd ((isValid_iff octets).2 ⟨text, encode_of_decode hdecode⟩) h

/-- Octets below `0x80` are UTF-8. -/
theorem isValid_of_lt {octets : List UInt8} (h : ∀ octet ∈ octets, octet < 0x80) :
    IsValid octets := by
  refine ⟨octets.map fun octet => Char.ofNat octet.toNat, congrArg _ ?_⟩
  induction octets with
  | nil => rfl
  | cons octet rest ih =>
      have hlow : octet.toNat < 128 := UInt8.lt_iff_toNat_lt.1 (h octet List.mem_cons_self)
      have hnumber : (Char.ofNat octet.toNat).val.toNat = octet.toNat := val_ofNat (by omega)
      rw [List.map_cons, List.flatMap_cons, encodeChar_one (by omega), hnumber,
        UInt8.ofNat_toNat, ← ih fun other hother => h other (List.mem_cons_of_mem _ hother)]
      rfl

end Utf8

namespace ColumnType

/-! ## Cells -/

/-- Eight octets are one of the nanoseconds of a day. -/
def IsTime (octets : List UInt8) : Prop :=
  0 ≤ toInt octets ∧ toInt octets ≤ 86399999999999

/-- What is said of the octets of a cell: of those of a type of fixed width, and of those of
each other type. -/
structure Grammar (type : ColumnType) (octets : List UInt8)
    (result : Except DecodingError Value) : Prop where
  /-- No octets are the empty value of every type of fixed width. -/
  nothing : ∀ width, type.fixedWidth = some width → octets = [] → result = .ok .empty
  /-- No other number of octets than the width will do. -/
  otherWidth : ∀ width, type.fixedWidth = some width →
    octets.length ≠ 0 → octets.length ≠ width →
      result = .error (.byteLengthMismatch type width octets.length)
  /-- As many octets as the width are a value of the type. -/
  rightWidth : ∀ width, type.fixedWidth = some width → octets.length = width →
    (type = .time → IsTime octets) →
      ∃ value, result = .ok value ∧ value.columnType = some type
  /-- Only a time may lie outside the range of its type. -/
  noTime : type = .time → octets.length = 8 → ¬ IsTime octets →
    result = .error (.valueOverflow .time)
  /-- An `ascii` cell holds octets below `0x80`. -/
  ascii : type = .ascii → (∀ octet ∈ octets, octet < 0x80) →
    ∃ text, result = .ok (.ascii text) ∧ Utf8.encode text = octets
  notAscii : type = .ascii → (∃ octet ∈ octets, 0x80 ≤ octet) → result = .error .expectedAscii
  /-- A `text` cell holds UTF-8. -/
  text : type = .text → Utf8.IsValid octets →
    ∃ text, result = .ok (.text text) ∧ Utf8.encode text = octets
  notText : type = .text → ¬ Utf8.IsValid octets →
    ∃ fault, result = .error (.invalidUtf8 fault)
  /-- All octets are a `blob`. -/
  blob : type = .blob → result = .ok (.blob octets)
  /-- All octets but none are a `varint`. -/
  varint : type = .varint →
    result = .ok (if octets = [] then .empty else .varint (toInt octets))
  /-- An address has four or sixteen octets. -/
  inet : type = .inet → octets.length = 4 ∨ octets.length = 16 →
    ∃ address, result = .ok (.inet address) ∧ address.octets = octets
  notInet : type = .inet → octets.length ≠ 4 → octets.length ≠ 16 →
    result = .error (.badInetLength octets.length)
  /-- No octets are the empty value; on all others there is one verdict. -/
  noDuration : type = .duration → octets = [] → result = .ok .empty
  duration : type = .duration → octets ≠ [] →
    ∃ verdict, result = verdict.map .duration ∧
      ∀ other, Duration.Verdict octets other ↔ other = verdict

/-- A vector of as many octets as there are. -/
theorem exists_vector? {octets : List UInt8} {width : Nat} (hlength : octets.length = width) :
    ∃ v, vector? width octets = some v := by
  rw [vector?, dif_pos hlength]
  exact ⟨_, rfl⟩

/-- As many octets as the width are a value of the type; only a time may not be one. -/
theorem decodeSized_of_width {type : ColumnType} {octets : List UInt8} {width : Nat}
    (hwidth : type.fixedWidth = some width) (hlength : octets.length = width)
    (htime : type = .time → IsTime octets) :
    ∃ value, type.decodeSized octets = .ok value ∧ value.columnType = some type := by
  cases type with
  | ascii | blob | duration | text | inet | varint => cases hwidth
  | boolean =>
      cases hwidth
      obtain ⟨octet, rfl⟩ := List.length_eq_one_iff.1 hlength
      exact ⟨_, rfl, rfl⟩
  | counter | bigint | timestamp | date | double | float | int | smallint | tinyint =>
      cases hwidth
      rw [decodeSized, readNumber_eq_ok _ hlength]
      exact ⟨_, rfl, rfl⟩
  | time =>
      cases hwidth
      have hday : isTimeOfDay (UInt64.ofNat (ofBigEndian octets)).toInt64 = true := by
        rw [Value.isTimeOfDay_iff, toInt64_ofBigEndian hlength]
        exact htime rfl
      simp only [decodeSized, readNumber_eq_ok _ hlength, bind, Except.bind, if_pos hday]
      exact ⟨_, rfl, rfl⟩
  | uuid | timeuuid =>
      cases hwidth
      obtain ⟨id, hid⟩ := exists_vector? hlength
      rw [decodeSized, decodeUuid, hid]
      exact ⟨_, rfl, rfl⟩

/-- Eight octets that are no time lie outside the range of the type. -/
theorem decodeSized_of_not_isTime {octets : List UInt8} (hlength : octets.length = 8)
    (htime : ¬ IsTime octets) : decodeSized octets .time = .error (.valueOverflow .time) := by
  have hday : ¬ isTimeOfDay (UInt64.ofNat (ofBigEndian octets)).toInt64 = true := by
    rw [Value.isTimeOfDay_iff, toInt64_ofBigEndian hlength]
    exact htime
  simp only [decodeSized, readNumber_eq_ok _ hlength, bind, Except.bind, if_neg hday]

/-- An address is read from four or sixteen octets. -/
theorem ofOctets?_of_length {octets : List UInt8}
    (hlength : octets.length = 4 ∨ octets.length = 16) :
    ∃ address, Address.ofOctets? octets = some address := by
  rw [Address.ofOctets?]
  by_cases hfour : octets.length = 4
  · obtain ⟨v, hv⟩ := exists_vector? hfour
    exact ⟨.v4 v, by rw [if_pos hfour, hv]; rfl⟩
  · obtain ⟨v, hv⟩ := exists_vector? (hlength.resolve_left hfour)
    exact ⟨.v6 v, by rw [if_neg hfour, hv]; rfl⟩

/-- A type without a fixed width leaves the number of octets to what is read. -/
theorem decode_of_no_width {type : ColumnType} (hwidth : type.fixedWidth = none)
    (octets : List UInt8) : type.decode octets = type.decodeSized octets := by
  rw [decode, hwidth]

/-- Octets that are as many as the width are looked at. -/
theorem decode_of_width {type : ColumnType} {octets : List UInt8} {width : Nat}
    (hwidth : type.fixedWidth = some width) (hlength : octets.length = width) :
    type.decode octets = type.decodeSized octets := by
  have hpos := fixedWidth_pos hwidth
  have hsome : ¬ octets.isEmpty = true := by
    rw [List.isEmpty_iff_length_eq_zero]
    omega
  simp only [decode, hwidth, if_neg hsome, hlength, ne_eq, not_true_eq_false, if_false]

/-- Octets are read as a value of a type exactly as its grammar says, and refused for the
reason that it gives. -/
theorem decode_follows_grammar (type : ColumnType) (octets : List UInt8) :
    type.Grammar octets (type.decode octets) where
  nothing := by
    rintro width hwidth rfl
    simp only [decode, hwidth, List.isEmpty_nil, if_true]
  otherWidth := by
    intro width hwidth hsome hlength
    have hnone : ¬ octets.isEmpty = true := by rwa [List.isEmpty_iff_length_eq_zero]
    simp only [decode, hwidth, if_neg hnone, if_pos hlength]
  rightWidth := by
    intro width hwidth hlength htime
    rw [decode_of_width hwidth hlength]
    exact decodeSized_of_width hwidth hlength htime
  noTime := by
    rintro rfl hlength htime
    rw [decode_of_width rfl hlength]
    exact decodeSized_of_not_isTime hlength htime
  ascii := by
    rintro rfl hlow
    obtain ⟨text, hwritten, hread⟩ := Utf8.decode_valid (Utf8.isValid_of_lt hlow)
    refine ⟨text, ?_, hwritten⟩
    rw [decode_of_no_width rfl, decodeSized, if_pos (by simpa using hlow), hread]
    rfl
  notAscii := by
    rintro rfl ⟨octet, hoctet, hhigh⟩
    rw [decode_of_no_width rfl, decodeSized, if_neg]
    intro hlow
    have hless := List.all_eq_true.1 hlow octet hoctet
    exact absurd (of_decide_eq_true hless) (UInt8.not_lt.2 hhigh)
  text := by
    rintro rfl hvalid
    obtain ⟨text, hwritten, hread⟩ := Utf8.decode_valid hvalid
    refine ⟨text, ?_, hwritten⟩
    rw [decode_of_no_width rfl, decodeSized, hread]
    rfl
  notText := by
    rintro rfl hinvalid
    obtain ⟨fault, hfault⟩ := Utf8.decode_invalid hinvalid
    refine ⟨fault, ?_⟩
    rw [decode_of_no_width rfl, decodeSized, hfault]
    rfl
  blob := by
    rintro rfl
    rfl
  varint := by
    rintro rfl
    rw [decode_of_no_width rfl, decodeSized]
    simp only [List.isEmpty_iff]
  inet := by
    rintro rfl hlength
    obtain ⟨address, haddress⟩ := ofOctets?_of_length hlength
    refine ⟨address, ?_, Address.octets_of_ofOctets? haddress⟩
    rw [decode_of_no_width rfl, decodeSized, haddress]
  notInet := by
    rintro rfl hfour hsixteen
    have hnone : Address.ofOctets? octets = none := by
      rw [Address.ofOctets?, if_neg hfour, vector?, dif_neg hsixteen]
      rfl
    rw [decode_of_no_width rfl, decodeSized, hnone]
  noDuration := by
    rintro rfl rfl
    rfl
  duration := by
    rintro rfl hsome
    refine ⟨Duration.decode octets, ?_, fun other => Duration.verdict_iff⟩
    rw [decode_of_no_width rfl, decodeSized, if_neg (by simpa using hsome)]

/-- Octets that are left over are noticed before months that are too many. -/
example : decode .duration [0xF1, 0x00, 0x00, 0x00, 0x00, 0x00, 0x00, 0x00] =
    .error (.badDuration .trailingOctets) := by
  decide +kernel

end ColumnType
end RingRouting
