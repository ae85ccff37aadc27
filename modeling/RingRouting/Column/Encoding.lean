import RingRouting.Column.Value
import RingRouting.Column.Vint
import RingRouting.Text.Utf8

/-!
# The octets of a value

Every value has one canonical octet string, unless it lies outside its type's
domain.  Values of a partition key obey a stricter rule.

Main definitions:

- `Value.encode`: the octets of a cell.
- `Value.encodeKey`: the octets of a partition key component.
-/

namespace RingRouting

/-- Why a value has no octets. -/
inductive EncodingError where
  /-- An `ascii` value has a character past `U+007F`. -/
  | nonAsciiText
  /-- The value lies outside the domain of its type. -/
  | valueOverflow (type : ColumnType)
  /-- The type may not be part of a partition key. -/
  | unsupportedKeyType (type : ColumnType)
  /-- A partition key component may not be the empty value. -/
  | emptyKeyComponent
deriving DecidableEq

/-- The wording of an encoding error. -/
def EncodingError.message : EncodingError → String
  | nonAsciiText => "Value of type ascii contains non-ASCII characters"
  | valueOverflow type => s!"Value out of range for CQL type {type.name}"
  | unsupportedKeyType type =>
    s!"Values of CQL type {type.name} cannot be used as partition key components"
  | emptyKeyComponent => "Partition key component must not be an empty value"

/-- The last nanosecond of a day. -/
def lastNanosecond : Int :=
  86399999999999

/-- Whether a number of nanoseconds since midnight is a time of day. -/
def isTimeOfDay (nanoseconds : Int64) : Bool :=
  decide (0 ≤ nanoseconds.toInt ∧ nanoseconds.toInt ≤ lastNanosecond)

/-- Three variable-length integers: months, days and nanoseconds. -/
def Duration.encode (d : Duration) : List UInt8 :=
  Vint.encode d.months.toInt64 ++ Vint.encode d.days.toInt64 ++ Vint.encode d.nanoseconds

namespace Value

open Octets

/-- The octets of a cell that holds the value. -/
def encode : Value → Except EncodingError (List UInt8)
  | ascii s => if Utf8.isAscii s then .ok (Utf8.encode s) else .error .nonAsciiText
  | text s => .ok (Utf8.encode s)
  | boolean b => .ok [if b then 1 else 0]
  | blob octets => .ok octets
  | counter n | bigint n | timestamp n => .ok (bigEndian 8 n.toUInt64.toNat)
  | date d => .ok (bigEndian 4 d.toNat)
  | double x => .ok (bigEndian 8 x.bits.toNat)
  | float x => .ok (bigEndian 4 x.bits.toNat)
  | duration d => .ok d.encode
  | empty => .ok []
  | int n => .ok (bigEndian 4 n.toUInt32.toNat)
  | inet address => .ok address.octets
  | smallint n => .ok (bigEndian 2 n.toUInt16.toNat)
  | tinyint n => .ok (bigEndian 1 n.toUInt8.toNat)
  | time n =>
    if isTimeOfDay n then .ok (bigEndian 8 n.toUInt64.toNat) else .error (.valueOverflow .time)
  | timeuuid id | uuid id => .ok id.toList
  | varint n => .ok (ofInt n)

/-- The octets of a partition key component.  Durations and the empty value are
refused, since no partition key may hold them. -/
def encodeKey (value : Value) : Except EncodingError (List UInt8) :=
  match value.columnType with
  | none => .error .emptyKeyComponent
  | some .duration => .error (.unsupportedKeyType .duration)
  | some _ => value.encode

end Value
end RingRouting
