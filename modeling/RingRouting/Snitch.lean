import RingRouting.Topology.ClusterView

/-!
# Snitches

A snitch tells in which datacenter and which rack an address stands.  Candidates
are ranked by how close they are to a reference: the reference itself first, then
its datacenter before others, and in each its rack before others.

Main definitions:

- `Snitch.compareByProximity`: how two candidates compare.
- `Snitch.sortedByProximity`: candidates from nearest to farthest, stably.
- `Snitch.rackInferring`, `Snitch.simple`, `Snitch.ofPlacement`: the snitches that
  come with the library.
-/

namespace RingRouting

/-- Where addresses stand.  The outline is what a record of the cluster shows. -/
structure Snitch where
  datacenter : Address → String
  rack : Address → String
  outline : String

namespace Snitch

/-! ## Ranking -/

/-- How two flags compare when the set one comes first. -/
def flagFirst (a b : Bool) : Ordering :=
  match a, b with
  | true, false => .lt
  | false, true => .gt
  | _, _ => .eq

/-- How two candidates compare by how close they are to the reference. -/
def compareByProximity (snitch : Snitch) (reference a b : Address) : Ordering :=
  (flagFirst (a == reference) (b == reference)).then <|
    (flagFirst (snitch.datacenter a == snitch.datacenter reference)
      (snitch.datacenter b == snitch.datacenter reference)).then <|
    flagFirst (snitch.rack a == snitch.rack reference) (snitch.rack b == snitch.rack reference)

/-- The candidates from nearest to farthest; those that compare equal keep their
order. -/
def sortedByProximity (snitch : Snitch) (reference : Address) (candidates : List Address) :
    List Address :=
  candidates.mergeSort fun a b => snitch.compareByProximity reference a b != .gt

/-! ## Snitches that read the address -/

/-- An octet of the address as a name. -/
def octetName (place : Nat) (address : Address) : String :=
  toString (address.octets.getD place 0).toNat

/-- Takes the second octet of an address for its datacenter and the third for its
rack. -/
def rackInferring : Snitch :=
  ⟨octetName 1, octetName 2, "RackInferringSnitch"⟩

/-- Puts every address in the same datacenter and rack. -/
def simple : Snitch :=
  ⟨fun _ => "datacenter1", fun _ => "rack1", "SimpleSnitch"⟩

/-! ## Snitches that look addresses up -/

/-- A datacenter and a rack. -/
structure Place where
  datacenter : String
  rack : String
deriving DecidableEq

/-- Where addresses stand that no table lists. -/
def unknownPlace : Place :=
  ⟨"UNKNOWN", "UNKNOWN"⟩

/-- The place of an address in a table whose later rows win. -/
def placeIn (table : List (Address × Place)) (default : Place) (address : Address) : Place :=
  (table.reverse.lookup address).getD default

/-- The rows of a table that hold: for each address its last row. -/
def effectiveRows (table : List (Address × Place)) : List (Address × Place) :=
  (table.map Prod.fst).eraseDups.filterMap fun address =>
    (table.reverse.lookup address).map fun place => (address, place)

/-- A table of places as a record. -/
def tableOutline (table : List (Address × Place)) (default : Place) : String :=
  Outline.record "TopologySnitch" [
    Outline.field "placement" (Outline.map ((effectiveRows table).map fun (address, place) =>
      (address.toText,
        Outline.tuple [Quoted.quote place.datacenter, Quoted.quote place.rack]))),
    Outline.field "default_datacenter" (Quoted.quote default.datacenter),
    Outline.field "default_rack" (Quoted.quote default.rack)]

/-- Looks addresses up in a table; later rows win. -/
def ofTable (table : List (Address × Place)) (default : Place) : Snitch :=
  ⟨fun address => (placeIn table default address).datacenter,
    fun address => (placeIn table default address).rack,
    tableOutline table default⟩

/-- Answers with the place that each member of a view reported. -/
def ofView (view : ClusterView) (default : Place) : Snitch :=
  ofTable (view.peers.map fun peer => (peer.address, ⟨peer.datacenter, peer.rack⟩)) default

end Snitch
end RingRouting
