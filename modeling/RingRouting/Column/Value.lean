import RingRouting.Address
import RingRouting.Column.Binary
import RingRouting.Column.Type

/-!
# Scalar values

A value carries its column type with it, all but the empty value, which belongs to
no type of its own and is valid for any.

Main definitions:

- `Value`: a scalar; its equality tells floating-point values apart by their bits.
- `Value.equal`: equality of values as numbers and texts compare.
-/

namespace RingRouting

/-- Months, days and nanoseconds, each with a sign of its own. -/
structure Duration where
  months : Int32
  days : Int32
  nanoseconds : Int64
deriving DecidableEq

/-- The sixteen octets of a universally unique identifier. -/
abbrev Uuid := Vector UInt8 16

/-- A single typed scalar. -/
inductive Value where
  | ascii (text : String)
  | boolean (flag : Bool)
  | blob (octets : List UInt8)
  | counter (count : Int64)
  /-- Days, counted from `2 ^ 31` days before the epoch. -/
  | date (days : UInt32)
  | double (number : Binary64)
  | duration (length : Duration)
  /-- The value of no octets, valid for any type. -/
  | empty
  | float (number : Binary32)
  | int (number : Int32)
  | bigint (number : Int64)
  | text (text : String)
  /-- Milliseconds since the epoch. -/
  | timestamp (milliseconds : Int64)
  | inet (address : Address)
  | smallint (number : Int16)
  | tinyint (number : Int8)
  /-- Nanoseconds since midnight. -/
  | time (nanoseconds : Int64)
  | timeuuid (id : Uuid)
  | uuid (id : Uuid)
  | varint (number : Int)
deriving DecidableEq

namespace Value

/-- The type of the value; the empty value has none. -/
def columnType : Value → Option ColumnType
  | ascii _ => some .ascii
  | boolean _ => some .boolean
  | blob _ => some .blob
  | counter _ => some .counter
  | date _ => some .date
  | double _ => some .double
  | duration _ => some .duration
  | empty => none
  | float _ => some .float
  | int _ => some .int
  | bigint _ => some .bigint
  | text _ => some .text
  | timestamp _ => some .timestamp
  | inet _ => some .inet
  | smallint _ => some .smallint
  | tinyint _ => some .tinyint
  | time _ => some .time
  | timeuuid _ => some .timeuuid
  | uuid _ => some .uuid
  | varint _ => some .varint

/-- The text of an `ascii` or `text` value. -/
def asText : Value → Option String
  | ascii s | text s => some s
  | _ => none

/-- The number of a `bigint` or `counter` value. -/
def asBigint : Value → Option Int64
  | bigint n | counter n => some n
  | _ => none

/-- Equality of values.  Floating-point values compare as numbers, all others by
their content; values of different types differ. -/
def equal : Value → Value → Bool
  | double x, double y => x.equal y
  | float x, float y => x.equal y
  | a, b => a == b

end Value
end RingRouting
