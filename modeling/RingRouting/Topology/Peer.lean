import RingRouting.Text.AddressText
import RingRouting.Text.Outline
import RingRouting.Text.Quoted
import RingRouting.Token

/-!
# Peers

A peer is a node of the cluster: where it can be reached, where it stands, and
which positions of the ring it owns.  The order in which its tokens are listed and
their repetition do not matter to what it is.

Main definitions:

- `Peer.same`: equality of peers.
- `Peer.hashItems`: what a hash of a peer is computed from.
- `Peer.proximityTo`: the coarse distance between two peers.
-/

namespace RingRouting

/-! ## Proximity -/

/-- The coarse distance between two nodes. -/
inductive Proximity where
  | sameRack
  | sameDatacenter
  | remoteDatacenter
deriving DecidableEq

namespace Proximity

/-- The distance as a number; nearer is less. -/
def value : Proximity → Nat
  | sameRack => 0
  | sameDatacenter => 1
  | remoteDatacenter => 2

/-- The distance in words. -/
def name : Proximity → String
  | sameRack => "SameRack"
  | sameDatacenter => "SameDatacenter"
  | remoteDatacenter => "RemoteDatacenter"

end Proximity

/-! ## Peers -/

/-- A node of the cluster as a metadata refresh reports it. -/
structure Peer where
  address : Address
  datacenter : String
  rack : String
  tokens : List Token
deriving DecidableEq

/-- One item that a hash of a peer takes in. -/
inductive HashItem where
  | address (address : Address)
  | name (name : String)
  | token (token : Token)
deriving DecidableEq

namespace Peer

/-- How far another peer is.  Names are compared as they are written. -/
def proximityTo (peer other : Peer) : Proximity :=
  if peer.datacenter ≠ other.datacenter then .remoteDatacenter
  else if peer.rack ≠ other.rack then .sameDatacenter
  else .sameRack

/-- Whether two peers own the same positions. -/
def sameTokens (peer other : Peer) : Bool :=
  peer.tokens.all (fun token => other.tokens.contains token) &&
    other.tokens.all (fun token => peer.tokens.contains token)

/-- Whether two descriptions are of the same peer in the same place with the same
positions. -/
def same (peer other : Peer) : Bool :=
  peer.address == other.address && peer.datacenter == other.datacenter
    && peer.rack == other.rack && peer.sameTokens other

/-- The peer's positions in order, each once. -/
def distinctTokens (peer : Peer) : List Token :=
  (Token.sorted peer.tokens).eraseReps

/-- What a hash of the peer is computed from, in order. -/
def hashItems (peer : Peer) : List HashItem :=
  .address peer.address :: .name peer.datacenter :: .name peer.rack ::
    peer.distinctTokens.map .token

/-- The peer in a line, for messages. -/
def summary (peer : Peer) : String :=
  s!"{peer.address.toText} (dc: {peer.datacenter}, rack: {peer.rack}, " ++
    s!"{peer.tokens.length} tokens)"

end Peer

/-- A token as a record. -/
def Token.outline (token : Token) : String :=
  Outline.record "Token" [Outline.field "value" token.toText]

/-- The peer as a record. -/
def Peer.outline (peer : Peer) : String :=
  Outline.record "Peer" [
    Outline.field "address" peer.address.toText,
    Outline.field "datacenter" (Quoted.quote peer.datacenter),
    Outline.field "rack" (Quoted.quote peer.rack),
    Outline.field "tokens" (Outline.list (peer.tokens.map Token.outline))]

end RingRouting
