import RingRouting.Column.Encoding

/-!
# Partition keys

A partition key holds the values of a table's partition key columns, in order.
What is hashed is its layout: a key of one column is the plain encoding of its
value; in a key of several columns each one contributes the length of its encoding
as a 16-bit number, the encoding, and one zero octet.

Main definitions:

- `PartitionKey`: one or more values.
- `PartitionKey.encode`: the layout of a key, or the error of its first column
  that has none.
-/

namespace RingRouting

/-- Why a partition key has no token. -/
inductive KeyError where
  /-- The component at `index` has no encoding. -/
  | component (index : Nat) (cause : EncodingError)
  /-- A component of a key of several columns is too long for its length field. -/
  | valueTooLong (length : Nat)
  /-- A key holds at least one value. -/
  | noComponents
deriving DecidableEq

/-- The wording of a key error. -/
def KeyError.message : KeyError → String
  | component index cause =>
    s!"Failed to encode partition key component #{index}: " ++ cause.message
  | valueTooLong length =>
    s!"Value of partition key component is too long: {length} bytes, maximum is 65535"
  | noComponents => "Partition key must have at least one component"

/-- The values of a partition key, in column order. -/
structure PartitionKey where
  components : List Value
  components_ne_nil : components ≠ []

namespace PartitionKey

/-- A key of one column. -/
def single (value : Value) : PartitionKey :=
  ⟨[value], List.cons_ne_nil _ _⟩

/-- A key of the given columns. -/
def ofValues (values : List Value) : Except KeyError PartitionKey :=
  if h : values ≠ [] then .ok ⟨values, h⟩ else .error .noComponents

/-- The number of columns. -/
def length (key : PartitionKey) : Nat :=
  key.components.length

/-- Whether the key has more than one column. -/
def isComposite (key : PartitionKey) : Bool :=
  1 < key.length

/-- Equality of keys: as many columns, with equal values. -/
def equal (a b : PartitionKey) : Bool :=
  a.components.length == b.components.length &&
    (a.components.zip b.components).all fun (x, y) => x.equal y

/-! ## Layout -/

/-- The longest encoding that a length field of 16 bits can announce. -/
def maxComponentLength : Nat :=
  65535

/-- The encoding of the component at `index`. -/
def encodeComponent (index : Nat) (value : Value) : Except KeyError (List UInt8) :=
  value.encodeKey.mapError (.component index)

/-- What a component of a composite key contributes: length, encoding, and zero. -/
def frame (encoded : List UInt8) : List UInt8 :=
  Vint.encodeShort (UInt16.ofNat encoded.length) ++ encoded ++ [0]

/-- The frames of the components from `index` on. -/
def encodeFrames (index : Nat) : List Value → Except KeyError (List UInt8)
  | [] => .ok []
  | value :: rest => do
    let encoded ← encodeComponent index value
    if maxComponentLength < encoded.length then throw (.valueTooLong encoded.length)
    let others ← encodeFrames (index + 1) rest
    return frame encoded ++ others

/-- The octets that are hashed for the key. -/
def encode (key : PartitionKey) : Except KeyError (List UInt8) :=
  match key.components with
  | [value] => encodeComponent 0 value
  | values => encodeFrames 0 values

end PartitionKey
end RingRouting
