/-!
# Tokens

A token is a position on the ring: an integer of any size, compared by its value.
-/

namespace RingRouting

/-- A position on the ring. -/
structure Token where
  value : Int
deriving DecidableEq

namespace Token

/-- Whether the position lies strictly before another. -/
def before (a b : Token) : Bool :=
  decide (a.value < b.value)

/-- Whether the position is not behind another. -/
def notAfter (a b : Token) : Bool :=
  decide (a.value ≤ b.value)

/-- How two positions compare. -/
def compare (a b : Token) : Ordering :=
  Ord.compare a.value b.value

/-- Tokens in ring order. -/
def sorted (tokens : List Token) : List Token :=
  tokens.mergeSort notAfter

/-- Whether the position fits a signed 64-bit integer. -/
def fitsInt64 (token : Token) : Bool :=
  decide (Int64.minValue.toInt ≤ token.value ∧ token.value ≤ Int64.maxValue.toInt)

/-- The decimal text of the position. -/
def toText (token : Token) : String :=
  toString token.value

end Token
end RingRouting
