import RingRouting.Random.Draw
import RingRouting.Snitch

/-!
# Endpoint selection strategies

A strategy is built over a snapshot of candidate endpoints and says which of them
to contact.  `pick` gives one endpoint; `fallback` lays out the whole snapshot in
the order the strategy would try it.  Both may change the strategy, so both give
the strategy after the call.

Main definitions:

- `Strategy`: random, in rotation, or by proximity.
- `Strategy.pick`, `Strategy.fallback`.
-/

namespace RingRouting

/-- A strategy with an empty snapshot was asked for an endpoint. -/
structure NoEndpoints where
  strategy : String
deriving DecidableEq

/-- The wording of the error. -/
def NoEndpoints.message (e : NoEndpoints) : String :=
  s!"No endpoints available for the {e.strategy} endpoint selection strategy"

/-- A policy that decides which endpoint to contact next.  These are the kinds that the library
has.  A registry takes any factory that builds one of them, from whatever endpoints it likes; a
policy that decides in some other way is not described here. -/
inductive Strategy where
  /-- Any endpoint of the snapshot, each as likely as the others. -/
  | random (endpoints : List Address) (source : WordSource)
  /-- The endpoints in turn; `picks` counts the picks so far. -/
  | roundRobin (endpoints : List Address) (picks : UInt64)
  /-- The endpoints from nearest to farthest. -/
  | nearest (ranked : List Address)

namespace Strategy

/-! ## Building -/

/-- Random picks that a seed makes reproducible. -/
def seededRandom (endpoints : List Address) (seed : UInt64) : Strategy :=
  random endpoints (.seeded (.ofSeed seed))

/-- Random picks from a stream of words. -/
def streamRandom (endpoints : List Address) (words : Nat → UInt32) : Strategy :=
  random endpoints (.stream words 0)

/-- Endpoints in turn, from the first one on. -/
def rotation (endpoints : List Address) : Strategy :=
  roundRobin endpoints 0

/-- Endpoints ranked by how close they are to an address. -/
def byProximity (snitch : Snitch) (origin : Address) (endpoints : List Address) : Strategy :=
  nearest (snitch.sortedByProximity origin endpoints)

/-! ## Answers -/

/-- The strategy's name. -/
def name : Strategy → String
  | random .. => "RandomStrategy"
  | roundRobin .. => "RoundRobinStrategy"
  | nearest _ => "NearestStrategy"

/-- The snapshot; for a strategy by proximity, as it is ranked. -/
def snapshot : Strategy → List Address
  | random endpoints _ => endpoints
  | roundRobin endpoints _ => endpoints
  | nearest ranked => ranked

/-- The number of endpoints in the snapshot. -/
def length (strategy : Strategy) : Nat :=
  strategy.snapshot.length

/-- The place in the snapshot at which a rotation stands. -/
def rotationPlace (endpoints : List Address) (picks : UInt64) : Nat :=
  picks.toNat % endpoints.length

/-- The endpoint to contact, if there is any. -/
def pick? : Strategy → Option Address × Strategy
  | random endpoints source =>
    let (chosen, source) := source.choose endpoints
    (chosen, random endpoints source)
  | roundRobin endpoints picks =>
    if endpoints.isEmpty then (none, roundRobin endpoints picks)
    else (endpoints[rotationPlace endpoints picks]?, roundRobin endpoints (picks + 1))
  | nearest ranked => (ranked.head?, nearest ranked)

/-- The endpoint to contact. -/
def pick (strategy : Strategy) : Except NoEndpoints Address × Strategy :=
  match strategy.pick? with
  | (some endpoint, after) => (.ok endpoint, after)
  | (none, after) => (.error ⟨strategy.name⟩, after)

/-- The endpoints in the order in which the strategy would try them.  A rotation
starts at its next pick and stays where it stands. -/
def fallback : Strategy → List Address × Strategy
  | random endpoints source =>
    let (shuffled, source) := source.shuffle endpoints
    (shuffled, random endpoints source)
  | roundRobin endpoints picks =>
    let place := rotationPlace endpoints picks
    (endpoints.drop place ++ endpoints.take place, roundRobin endpoints picks)
  | nearest ranked => (ranked, nearest ranked)

/-- Several picks in a row; the first that fails ends them. -/
def picks (strategy : Strategy) : (count : Nat) → Except NoEndpoints (List Address) × Strategy
  | 0 => (.ok [], strategy)
  | count + 1 =>
    match strategy.pick with
    | (.error e, after) => (.error e, after)
    | (.ok endpoint, after) =>
      match after.picks count with
      | (.error e, last) => (.error e, last)
      | (.ok endpoints, last) => (.ok (endpoint :: endpoints), last)

end Strategy
end RingRouting
