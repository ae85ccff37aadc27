/-!
# Column types

The scalar types a column may have, their names, and the sizes of those whose
values all take the same number of octets.
-/

namespace RingRouting

/-- The type of a scalar value, as it appears in a table's schema. -/
inductive ColumnType where
  | ascii
  | boolean
  | blob
  | counter
  | date
  | double
  | duration
  | float
  | int
  | bigint
  | text
  | timestamp
  | inet
  | smallint
  | tinyint
  | time
  | timeuuid
  | uuid
  | varint
deriving DecidableEq

namespace ColumnType

/-- All types, in the order of their declaration. -/
def all : List ColumnType :=
  [ascii, boolean, blob, counter, date, double, duration, float, int, bigint, text,
    timestamp, inet, smallint, tinyint, time, timeuuid, uuid, varint]

/-- The type's name in a schema. -/
def name : ColumnType → String
  | ascii => "ascii"
  | boolean => "boolean"
  | blob => "blob"
  | counter => "counter"
  | date => "date"
  | double => "double"
  | duration => "duration"
  | float => "float"
  | int => "int"
  | bigint => "bigint"
  | text => "text"
  | timestamp => "timestamp"
  | inet => "inet"
  | smallint => "smallint"
  | tinyint => "tinyint"
  | time => "time"
  | timeuuid => "timeuuid"
  | uuid => "uuid"
  | varint => "varint"

/-- The type with the given name. -/
def ofName? (name : String) : Option ColumnType :=
  all.find? fun type => type.name == name

/-- The number of octets every value of the type takes, if it is always the same. -/
def fixedWidth : ColumnType → Option Nat
  | boolean | tinyint => some 1
  | smallint => some 2
  | int | float | date => some 4
  | bigint | counter | double | timestamp | time => some 8
  | uuid | timeuuid => some 16
  | ascii | blob | duration | text | inet | varint => none

end ColumnType
end RingRouting
