import RingRouting.Column.Encoding

/-!
# Reading a value

A cell's octets are read as a value of the column's type.  No octets at all are
the empty value for every type of fixed width, and for `varint` and `duration`.

Main definitions:

- `ColumnType.decode`: the value of a cell, or why it has none.
-/

namespace RingRouting

/-- What is wrong with the octets of a duration. -/
inductive DurationFault where
  | missingMonths
  | missingDays
  | missingNanoseconds
  | trailingOctets
deriving DecidableEq

/-- The wording of a fault in a duration. -/
def DurationFault.message : DurationFault → String
  | missingMonths => "missing months"
  | missingDays => "missing days"
  | missingNanoseconds => "missing nanoseconds"
  | trailingOctets => "trailing bytes"

/-- Why octets are no value of a type. -/
inductive DecodingError where
  /-- A type of fixed width got another number of octets. -/
  | byteLengthMismatch (type : ColumnType) (expected got : Nat)
  /-- An address has neither four nor sixteen octets. -/
  | badInetLength (got : Nat)
  /-- An `ascii` cell holds an octet past `0x7F`. -/
  | expectedAscii
  /-- A `text` cell is not UTF-8. -/
  | invalidUtf8 (fault : Utf8.Fault)
  /-- A `duration` cell is not three variable-length integers. -/
  | badDuration (fault : DurationFault)
  /-- The octets spell a value outside the type's domain. -/
  | valueOverflow (type : ColumnType)
deriving DecidableEq

/-- The wording of a decoding error. -/
def DecodingError.message : DecodingError → String
  | byteLengthMismatch type expected got =>
    s!"Expected {expected} bytes for CQL type {type.name}, got {got}"
  | badInetLength got => s!"Expected 4 or 16 bytes for inet, got {got}"
  | expectedAscii => "Value of type ascii contains non-ASCII characters"
  | invalidUtf8 fault => "Invalid UTF-8 in text value: " ++ fault.message
  | badDuration fault => "Malformed duration: " ++ fault.message
  | valueOverflow type => s!"Value out of range for CQL type {type.name}"

/-- The number as a 32-bit one, if it fits. -/
def narrow? (n : Int64) : Option Int32 :=
  if -2147483648 ≤ n.toInt ∧ n.toInt ≤ 2147483647 then some (Int32.ofInt n.toInt) else none

/-- Reads a duration.  The fields are looked for one after another; that they are
all there and nothing follows is settled before their ranges are. -/
def Duration.decode (octets : List UInt8) : Except DecodingError Duration :=
  match Vint.decode octets with
  | none => .error (.badDuration .missingMonths)
  | some (months, afterMonths) =>
    match Vint.decode afterMonths with
    | none => .error (.badDuration .missingDays)
    | some (days, afterDays) =>
      match Vint.decode afterDays with
      | none => .error (.badDuration .missingNanoseconds)
      | some (nanoseconds, rest) =>
        if !rest.isEmpty then .error (.badDuration .trailingOctets)
        else match narrow? months, narrow? days with
          | some months, some days => .ok ⟨months, days, nanoseconds⟩
          | _, _ => .error (.valueOverflow .duration)

namespace ColumnType

open Octets

/-- What is said of a read that runs short. -/
def shortRead (type : ColumnType) (octets : List UInt8) : DecodingError :=
  .byteLengthMismatch type (type.fixedWidth.getD 0) octets.length

/-- Reads a number from the first `width` octets. -/
def readNumber (type : ColumnType) (width : Nat) (octets : List UInt8) :
    Except DecodingError Nat :=
  if octets.length < width then .error (shortRead type octets)
  else .ok (ofBigEndian (octets.take width))

/-- A read of all octets does not run short. -/
theorem readNumber_eq_ok (type : ColumnType) {width : Nat} {octets : List UInt8}
    (hlength : octets.length = width) :
    readNumber type width octets = .ok (ofBigEndian octets) := by
  rw [readNumber, if_neg (by omega), List.take_of_length_le (by omega)]

/-- Reads the sixteen octets of an identifier. -/
def decodeUuid (type : ColumnType) (build : Uuid → Value) (octets : List UInt8) :
    Except DecodingError Value :=
  match vector? 16 octets with
  | some id => .ok (build id)
  | none => .error (shortRead type octets)

/-- Reads octets whose number is right for the type.  The reads rely on that; one that runs
short all the same is reported. -/
def decodeSized (octets : List UInt8) : ColumnType → Except DecodingError Value
  | ascii =>
    if octets.all (· < 0x80) then
      (Utf8.decode octets).mapError .invalidUtf8 |>.map .ascii
    else .error .expectedAscii
  | text => (Utf8.decode octets).mapError .invalidUtf8 |>.map .text
  | blob => .ok (.blob octets)
  | boolean =>
    match octets with
    | [] => .error (shortRead boolean octets)
    | first :: _ => .ok (.boolean (first != 0))
  | counter => (readNumber counter 8 octets).map fun n => .counter (UInt64.ofNat n).toInt64
  | bigint => (readNumber bigint 8 octets).map fun n => .bigint (UInt64.ofNat n).toInt64
  | timestamp => (readNumber timestamp 8 octets).map fun n => .timestamp (UInt64.ofNat n).toInt64
  | date => (readNumber date 4 octets).map fun n => .date (UInt32.ofNat n)
  | double => (readNumber double 8 octets).map fun n => .double ⟨UInt64.ofNat n⟩
  | float => (readNumber float 4 octets).map fun n => .float ⟨UInt32.ofNat n⟩
  | int => (readNumber int 4 octets).map fun n => .int (UInt32.ofNat n).toInt32
  | smallint => (readNumber smallint 2 octets).map fun n => .smallint (UInt16.ofNat n).toInt16
  | tinyint => (readNumber tinyint 1 octets).map fun n => .tinyint (UInt8.ofNat n).toInt8
  | time => do
    let nanoseconds := (UInt64.ofNat (← readNumber time 8 octets)).toInt64
    if isTimeOfDay nanoseconds then .ok (.time nanoseconds) else .error (.valueOverflow .time)
  | uuid => decodeUuid uuid .uuid octets
  | timeuuid => decodeUuid timeuuid .timeuuid octets
  | inet =>
    match Address.ofOctets? octets with
    | some address => .ok (.inet address)
    | none => .error (.badInetLength octets.length)
  | varint => .ok (if octets.isEmpty then .empty else .varint (toInt octets))
  | duration =>
    if octets.isEmpty then .ok .empty else (Duration.decode octets).map .duration

/-- Reads a cell of the given type. -/
def decode (type : ColumnType) (octets : List UInt8) : Except DecodingError Value :=
  match type.fixedWidth with
  | some width =>
    if octets.isEmpty then .ok .empty
    else if octets.length ≠ width then
      .error (.byteLengthMismatch type width octets.length)
    else decodeSized octets type
  | none => decodeSized octets type

end ColumnType
end RingRouting
