import RingRouting.Topology.Snapshot

/-!
# Views of the cluster

A view is what one metadata refresh says about the cluster: a snapshot whose members own
positions of the ring, each address once, whose table finds exactly the members, and whose ring
is sorted.  Where an address is reported twice, the later report holds, in the place of the
earlier one.  A token belongs to the owner of the first position of the ring that is not before
it, and past the last position the ring begins again.

Main definitions:

- `ClusterView.ofReports`: the view that a list of reports gives.
- `ClusterView.get?`: the member at an address.
- `ClusterView.replicas`: the first distinct peers met from a token on.
-/

namespace RingRouting

/-- A snapshot whose members, table and ring tell the same. -/
structure ClusterView extends Snapshot where
  addresses_nodup : (peers.map Peer.address).Nodup
  tokens_ne_nil : ∀ peer ∈ peers, peer.tokens ≠ []
  knownPeers_iff : ∀ address peer,
    knownPeers.get? address = some peer ↔ peer ∈ peers ∧ peer.address = address
  ring_eq : ring = RingEntry.sorted (RingEntry.ofPeers peers)

namespace ClusterView

/-! ## Building a view -/

/-- A view without members. -/
def empty : ClusterView where
  toSnapshot := .empty
  addresses_nodup := List.nodup_nil
  tokens_ne_nil := by simp [Snapshot.empty]
  knownPeers_iff := by simp [Snapshot.empty, PeerTable.get?]
  ring_eq := List.mergeSort_nil.symm

@[simp]
theorem peers_empty : empty.peers = [] :=
  rfl

/-- The view that the reports of one refresh give.  That its table finds the members is what the
census keeps from report to report. -/
def ofReports (reports : List Peer) : ClusterView where
  toSnapshot := .ofReports reports
  addresses_nodup := by
    have hconsistent := Census.consistent_ofReports reports
    change ((Census.ofReports reports).peers.map Peer.address).Nodup
    rw [hconsistent.map_address_peers]
    exact hconsistent.order_nodup
  tokens_ne_nil := (Census.consistent_ofReports reports).tokens_ne_nil
  knownPeers_iff := (Census.consistent_ofReports reports).get?_eq_some_iff
  ring_eq := rfl

/-! ## Members -/

/-- The addresses of all members, in the order of their first report. -/
def addresses (view : ClusterView) : List Address :=
  view.peers.map Peer.address

/-- The member at an address. -/
def get? (view : ClusterView) (address : Address) : Option Peer :=
  view.knownPeers.get? address

/-- Whether there are no members. -/
def isEmpty (view : ClusterView) : Bool :=
  view.peers.isEmpty

/-! ## The ring -/

/-- The ring from the first position that is not before the token, once around. -/
def walk (view : ClusterView) (token : Token) : List RingEntry :=
  let ring := view.ring
  ring.dropWhile (fun entry => entry.token.before token) ++
    ring.takeWhile (fun entry => entry.token.before token)

/-- The member in a place of the view. -/
def owner? (view : ClusterView) (entry : RingEntry) : Option Peer :=
  view.peers[entry.owner]?

/-- The owner of a token. -/
def primaryReplica (view : ClusterView) (token : Token) : Option Peer :=
  (view.walk token).head?.bind view.owner?

/-- The first `count` distinct members met on the walk from a token.  Room for `count` members is
set aside beforehand, which is taken to succeed. -/
def replicas (view : ClusterView) (token : Token) (count : Nat) : List Peer :=
  let places := ((view.walk token).map RingEntry.owner).eraseDups
  (places.take count).filterMap fun place => view.peers[place]?

end ClusterView

/-! ## Outlines -/

/-- A position of the ring as a pair. -/
def RingEntry.outline (entry : RingEntry) : String :=
  Outline.tuple [entry.token.outline, toString entry.owner]

/-- The view as a record. -/
def ClusterView.outline (view : ClusterView) : String :=
  Outline.record "ClusterState" [
    Outline.field "peers" (Outline.list (view.peers.map Peer.outline)),
    Outline.field "known_peers" (Outline.map (view.knownPeers.map fun (address, peer) =>
      (address.toText, peer.outline))),
    Outline.field "ring" (Outline.list (view.ring.map RingEntry.outline))]

end RingRouting
