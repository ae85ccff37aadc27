import Mathlib.Data.List.Count
import RingRouting.Proofs.Topology.Replicas

/-!
# Members and their reports

A view keeps one report for each address: the last one that has tokens.  The members stand in
the order in which their addresses were first reported, which may have been by a report that
no longer holds.  Looking an address up in the table, listing the members and going along the
ring tell the same members.

Main results:

- Theorem `ClusterView.get?_eq_some_iff`: the member at an address.
- Theorem `ClusterView.get?_ofReports`: what is looked up is the last report of the address.
- Theorem `ClusterView.count_ring`: a position stands in the ring as often as its owner lists it.
- Theorem `ClusterView.ofReports_keeps_last`: members, look-up and ring of every view.
-/

namespace RingRouting
namespace ClusterView

/-! ## Members by address -/

/-- Members are told apart by their addresses. -/
theorem eq_of_address_eq {view : ClusterView} {p q : Peer} (hp : p ∈ view.peers)
    (hq : q ∈ view.peers) (haddress : p.address = q.address) : p = q :=
  List.inj_on_of_nodup_map view.addresses_nodup hp hq haddress

/-- What is looked up is the member that stands at the address. -/
theorem get?_eq_some_iff {view : ClusterView} {address : Address} {peer : Peer} :
    view.get? address = some peer ↔ peer ∈ view.peers ∧ peer.address = address :=
  view.knownPeers_iff address peer

/-- What is looked up for addresses of members is found. -/
theorem exists_members {view : ClusterView} {addresses : List Address}
    (h : ∀ address ∈ addresses, address ∈ view.addresses) :
    ∃ members : List Peer, addresses.map view.get? = members.map some ∧
      members.map Peer.address = addresses ∧ ∀ peer ∈ members, peer ∈ view.peers := by
  induction addresses with
  | nil => exact ⟨[], rfl, rfl, by simp⟩
  | cons address rest ih =>
      obtain ⟨members, hfound, hmembers, hmem⟩ :=
        ih fun other hother => h other (List.mem_cons_of_mem _ hother)
      obtain ⟨peer, hpeer, haddress⟩ := List.mem_map.1 (h address List.mem_cons_self)
      refine ⟨peer :: members, ?_, ?_, ?_⟩
      · rw [List.map_cons, List.map_cons, hfound, get?_eq_some_iff.2 ⟨hpeer, haddress⟩]
      · rw [List.map_cons, hmembers, haddress]
      · exact List.forall_mem_cons.2 ⟨hpeer, hmem⟩

/-! ## The report that holds -/

/-- The last one of the reports with tokens for an address. -/
def lastReport (reports : List Peer) (address : Address) : Option Peer :=
  (reports.filter fun peer => peer.tokens ≠ [] ∧ peer.address = address).getLast?

theorem lastReport_concat (reports : List Peer) (peer : Peer) (address : Address) :
    lastReport (reports ++ [peer]) address =
      if peer.tokens ≠ [] ∧ peer.address = address then some peer
      else lastReport reports address := by
  rw [lastReport, List.filter_append, List.getLast?_append]
  by_cases hholds : peer.tokens ≠ [] ∧ peer.address = address
  · rw [if_pos hholds]
    simp [hholds.1, hholds.2]
  · rw [if_neg hholds, List.filter_eq_nil_iff.2 (by simpa using hholds)]
    rfl

theorem of_lastReport {reports : List Peer} {address : Address} {peer : Peer}
    (h : lastReport reports address = some peer) :
    peer ∈ reports ∧ peer.tokens ≠ [] ∧ peer.address = address := by
  have hmem := List.mem_of_getLast? h
  rw [List.mem_filter, decide_eq_true_eq] at hmem
  exact hmem

/-- The members are the reports that hold. -/
theorem mem_peers_ofReports_iff (reports : List Peer) (peer : Peer) :
    peer ∈ (ofReports reports).peers ↔ lastReport reports peer.address = some peer := by
  induction reports using List.reverseRecOn with
  | nil => simp [peers_ofReports_eq_foldl, lastReport]
  | append_singleton reports last ih =>
      rw [peers_ofReports_concat, Peer.mem_reported_iff, lastReport_concat, ih]
      by_cases htokens : last.tokens = []
      · simp [htokens]
      · by_cases haddress : last.address = peer.address
        · simp [htokens, haddress, eq_comm]
        · have hother : peer ≠ last := fun hsame => haddress (hsame ▸ rfl)
          simp [htokens, haddress, hother, Ne.symm haddress]

/-- What is looked up is the last report of the address. -/
theorem get?_ofReports (reports : List Peer) (address : Address) :
    (ofReports reports).get? address = lastReport reports address := by
  ext peer
  rw [get?_eq_some_iff, mem_peers_ofReports_iff]
  constructor
  · rintro ⟨hlast, rfl⟩
    exact hlast
  · intro hlast
    obtain ⟨-, -, rfl⟩ := of_lastReport hlast
    exact ⟨hlast, rfl⟩

/-! ## Positions of the ring -/

/-- The positions of one member are its tokens beside its place. -/
theorem count_map_position (tokens : List Token) (owner place : Nat) (token : Token) :
    (tokens.map fun token => (⟨token, owner⟩ : RingEntry)).count ⟨token, place⟩ =
      if owner = place then tokens.count token else 0 := by
  by_cases howner : owner = place
  · rw [if_pos howner, ← howner]
    have hinjective : Function.Injective fun token => (⟨token, owner⟩ : RingEntry) :=
      fun _ _ hsame => congrArg RingEntry.token hsame
    exact List.count_map_of_injective tokens _ hinjective token
  · rw [if_neg howner, List.count_eq_zero]
    intro hmem
    obtain ⟨_, -, hsame⟩ := List.mem_map.1 hmem
    exact howner (congrArg RingEntry.owner hsame)

/-- Positions that are listed from some place on. -/
theorem count_positions_from (peers : List Peer) (start place : Nat) (token : Token) :
    ((peers.zipIdx start).flatMap fun (peer, owner) =>
        peer.tokens.map fun token => (⟨token, owner⟩ : RingEntry)).count ⟨token, place⟩ =
      if start ≤ place then
        (peers[place - start]?.map fun peer => peer.tokens.count token).getD 0
      else 0 := by
  induction peers generalizing start with
  | nil => simp
  | cons peer rest ih =>
      rw [List.zipIdx_cons, List.flatMap_cons, List.count_append, count_map_position, ih]
      rcases Nat.lt_trichotomy start place with hafter | rfl | hbefore
      · obtain ⟨steps, rfl⟩ := Nat.exists_eq_add_of_lt hafter
        have hrest : start + steps + 1 - (start + 1) = steps := by omega
        have hall : start + steps + 1 - start = steps + 1 := by omega
        rw [if_neg (by omega), if_pos (by omega), if_pos (by omega), hrest, hall, Nat.zero_add,
          List.getElem?_cons_succ]
      · rw [if_pos rfl, if_neg (by omega), if_pos (Nat.le_refl start), Nat.sub_self]
        rfl
      · rw [if_neg (by omega), if_neg (by omega), if_neg (by omega)]

/-- A position stands in the ring as often as the member in its place lists its token. -/
theorem count_ring (view : ClusterView) (entry : RingEntry) :
    view.ring.count entry =
      (view.peers[entry.owner]?.map fun peer => peer.tokens.count entry.token).getD 0 := by
  rw [view.ring_perm.count_eq, RingEntry.ofPeers]
  exact count_positions_from view.peers 0 entry.owner entry.token

theorem owner_lt_of_mem_ring {view : ClusterView} {entry : RingEntry} (h : entry ∈ view.ring) :
    entry.owner < view.peers.length := by
  obtain ⟨peer, hpeer, -⟩ := (view.mem_ring_iff entry).1 h
  exact (List.getElem?_eq_some_iff.1 hpeer).1

/-! ## Members, look-up and ring -/

/-- Whatever is reported, the list of members, the table and the ring of the snapshot agree.  The
members are what the census has filed under the addresses that it noted, one under each, and the
table is that of the census.  The members have addresses of their own, which stand in the order of
their first reports with tokens; each member is the last report with tokens for its address.  The
table finds for an address the member that stands there, and no other.  Every member has tokens.
The ring holds exactly the tokens of the members, each as often as it is listed, beside the place
of the member; they are in order, the earlier member first where tokens are equal.  The view is
this snapshot, and what is looked up in it is what the table finds. -/
theorem ofReports_keeps_last (reports : List Peer) :
    let census := Census.ofReports reports
    let snapshot := Snapshot.ofReports reports
    (snapshot.peers = census.order.filterMap census.byAddress.get? ∧
      snapshot.peers.map Peer.address = census.order ∧ snapshot.knownPeers = census.byAddress) ∧
      (snapshot.peers.map Peer.address).Nodup ∧
      snapshot.peers.map Peer.address =
        ((reports.filter fun peer => peer.tokens ≠ []).map Peer.address).eraseDups ∧
      (∀ peer ∈ snapshot.peers, lastReport reports peer.address = some peer) ∧
      (∀ address peer, snapshot.knownPeers.get? address = some peer ↔
        peer ∈ snapshot.peers ∧ peer.address = address) ∧
      (∀ address, snapshot.knownPeers.get? address = lastReport reports address) ∧
      (∀ peer ∈ snapshot.peers, peer ∈ reports ∧ peer.tokens ≠ []) ∧
      snapshot.ring.Perm (snapshot.peers.zipIdx.flatMap fun (peer, place) =>
        peer.tokens.map fun token => ⟨token, place⟩) ∧
      (∀ token place, snapshot.ring.count ⟨token, place⟩ =
        (snapshot.peers[place]?.map fun peer => peer.tokens.count token).getD 0) ∧
      (∀ entry ∈ snapshot.ring, entry.owner < snapshot.peers.length) ∧
      (snapshot.ring.Pairwise fun a b =>
        a.token.value < b.token.value ∨ (a.token = b.token ∧ a.owner ≤ b.owner)) ∧
      (ofReports reports).toSnapshot = snapshot ∧
      ∀ address, (ofReports reports).get? address = snapshot.knownPeers.get? address := by
  intro census snapshot
  have hcensus : census.Consistent := Census.consistent_ofReports reports
  let view := ofReports reports
  have hlast : ∀ peer ∈ view.peers, lastReport reports peer.address = some peer :=
    fun peer => (mem_peers_ofReports_iff reports peer).1
  have howner : ∀ entry ∈ view.ring, entry.owner < view.peers.length :=
    fun _ => owner_lt_of_mem_ring
  refine ⟨⟨rfl, hcensus.map_address_peers, rfl⟩, view.addresses_nodup, addresses_ofReports reports,
    hlast, hcensus.get?_eq_some_iff, get?_ofReports reports, ?_, view.ring_perm,
    fun _ _ => view.count_ring _, howner, view.ring_inOrder, rfl, fun _ => rfl⟩
  intro peer hpeer
  obtain ⟨hreported, htokens, -⟩ := of_lastReport (hlast peer hpeer)
  exact ⟨hreported, htokens⟩

/-- The first address keeps its place and is described by its later report; a last report without
tokens takes nothing away. -/
example :
    let first : Peer := ⟨.ofQuad 10 0 0 1, "dc1", "r1", [⟨30⟩]⟩
    let second : Peer := ⟨.ofQuad 10 0 0 2, "dc1", "r1", [⟨20⟩]⟩
    let moved : Peer := { first with tokens := [⟨10⟩, ⟨20⟩] }
    (ofReports [first, second, moved, { second with tokens := [] }]).peers = [moved, second] := by
  decide

end ClusterView
end RingRouting
