import RingRouting.Random.Pcg32

/-!
# Drawing from random words

Random words come from a seeded generator or, where no seed is given, from any
stream of words.  From them a number below a bound is drawn without bias, an element
of a list is chosen, and a list is shuffled.

Main definitions:

- `WordSource.below`: a number below a bound.
- `WordSource.choose`: an element of a list.
- `WordSource.shuffle`: the elements of a list in a random order.
-/

namespace RingRouting

/-- Where random words come from. -/
inductive WordSource where
  /-- The outputs of a seeded generator. -/
  | seeded (generator : Pcg32)
  /-- A stream of words of which the first `used` were drawn. -/
  | stream (words : Nat → UInt32) (used : Nat)

namespace WordSource

/-- The next word. -/
def next : WordSource → UInt32 × WordSource
  | seeded generator =>
    let (word, generator) := generator.next32
    (word, seeded generator)
  | stream words used => (words used, stream words (used + 1))

/-- A number below `n`, for `n` up to `2 ^ 32`: the integer part of `n` times a
random fraction.  The fraction has 32 digits, or 64 where 32 leave it open which
number is meant. -/
def below (n : Nat) (source : WordSource) : Nat × WordSource :=
  let (word, source) := source.next
  let product := word.toNat * n
  let whole := product / UInt32.size
  let fraction := product % UInt32.size
  if UInt32.size - n < fraction then
    let (word, source) := source.next
    let carry := (fraction + word.toNat * n / UInt32.size) / UInt32.size
    (whole + carry, source)
  else
    (whole, source)

/-- An element of a list; nothing is drawn for an empty one. -/
def choose {α : Type} (list : List α) (source : WordSource) : Option α × WordSource :=
  if list.isEmpty then (none, source)
  else
    let (place, source) := source.below list.length
    (list[place]?, source)

/-! ## Shuffling -/

/-- The state of a run of draws below `1`, `2`, `3`, …: a number still to be split
into draws, and how many draws it holds. -/
structure Chunk where
  rest : Nat
  holds : Nat

/-- The chunk before any draw: the one draw below `1` is zero. -/
def Chunk.initial : Chunk :=
  ⟨0, 1⟩

/-- Multiplies `bound` by `factor` and the numbers after it while the product stays
below `2 ^ 32`.  Gives the product and the first factor left out. -/
def widen (bound factor : Nat) : (steps : Nat) → Nat × Nat
  | 0 => (bound, factor)
  | steps + 1 =>
    if bound * factor < UInt32.size then widen (bound * factor) (factor + 1) steps
    else (bound, factor)

/-- A draw below `n + 1`, the `n`-th of the run. -/
def Chunk.draw (chunk : Chunk) (n : Nat) (source : WordSource) : Nat × Chunk × WordSource :=
  let bound := n + 1
  let (chunk, source) :=
    if chunk.holds = 0 then
      let (product, next) := widen bound (bound + 1) 32
      let (rest, source) := source.below product
      ((⟨rest, next - bound⟩ : Chunk), source)
    else (chunk, source)
  let holds := chunk.holds - 1
  if holds = 0 then (chunk.rest, ⟨chunk.rest, holds⟩, source)
  else (chunk.rest % bound, ⟨chunk.rest / bound, holds⟩, source)

/-- Exchanges two elements, if both places exist. -/
def exchange {α : Type} (array : Array α) (i j : Nat) : Array α :=
  if h : i < array.size ∧ j < array.size then array.swap i j h.1 h.2 else array

/-- Exchanges each of `count` elements from place `n` on with one that is not behind
it. -/
def shuffleFrom {α : Type} (array : Array α) (chunk : Chunk) (n : Nat) (source : WordSource) :
    (count : Nat) → Array α × WordSource
  | 0 => (array, source)
  | count + 1 =>
    let (place, chunk, source) := chunk.draw n source
    shuffleFrom (exchange array n place) chunk (n + 1) source count

/-- The elements of a list in a random order. -/
def shuffle {α : Type} (list : List α) (source : WordSource) : List α × WordSource :=
  let (array, source) := shuffleFrom list.toArray .initial 0 source list.length
  (array.toList, source)

end WordSource
end RingRouting
