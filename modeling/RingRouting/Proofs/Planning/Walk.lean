import RingRouting.Proofs.Repetition
import RingRouting.Topology.ClusterView

/-!
# The walk along the ring

A walk goes once around the ring and meets every member, for each owns a position.  The
replicas of a token are the members in the order in which they are met first, so many of
them as asked for, each once.

Main results:

- Theorem `ClusterView.replicas_eq`: the replicas are the members at the first distinct
  places of the walk.
- Theorem `ClusterView.addresses_replicas_nodup`: no two replicas share an address.
- Theorem `ClusterView.length_replicas`: there are as many as asked for, or all members.
-/

namespace RingRouting
namespace ClusterView

/-! ## Places on the walk -/

/-- The places of the members met on the walk, in the order of the first meeting. -/
def places (view : ClusterView) (token : Token) : List Nat :=
  ((view.walk token).map RingEntry.owner).eraseDups

/-- The ring holds the positions of the members. -/
theorem ring_perm (view : ClusterView) : view.ring.Perm (RingEntry.ofPeers view.peers) := by
  rw [ring_eq]
  exact List.mergeSort_perm _ _

theorem walk_perm (view : ClusterView) (token : Token) :
    (view.walk token).Perm (RingEntry.ofPeers view.peers) := by
  unfold walk
  have hturned : (view.ring.dropWhile (fun entry => entry.token.before token) ++
      view.ring.takeWhile (fun entry => entry.token.before token)).Perm view.ring := by
    refine List.perm_append_comm.trans ?_
    rw [List.takeWhile_append_dropWhile]
  exact hturned.trans view.ring_perm

/-- The owners of positions are the members, for each member owns one. -/
theorem mem_owners_iff (view : ClusterView) (place : Nat) :
    place ∈ (RingEntry.ofPeers view.peers).map RingEntry.owner ↔ place < view.peers.length := by
  constructor
  · intro hmem
    simp only [RingEntry.ofPeers, List.mem_map, List.mem_flatMap] at hmem
    obtain ⟨entry, ⟨⟨peer, index⟩, hindexed, token, -, rfl⟩, rfl⟩ := hmem
    have hget := List.mem_zipIdx_iff_getElem?.1 hindexed
    exact (List.getElem?_eq_some_iff.1 hget).1
  · intro hlt
    have htokens := view.tokens_ne_nil view.peers[place] (List.getElem_mem hlt)
    obtain ⟨token, htoken⟩ := List.exists_mem_of_ne_nil _ htokens
    simp only [RingEntry.ofPeers, List.mem_map, List.mem_flatMap]
    refine ⟨⟨token, place⟩, ⟨(view.peers[place], place), ?_, token, htoken, rfl⟩, rfl⟩
    exact List.mem_zipIdx_iff_getElem?.2 (List.getElem?_eq_getElem hlt)

theorem mem_places_iff (view : ClusterView) (token : Token) (place : Nat) :
    place ∈ view.places token ↔ place < view.peers.length := by
  rw [places, List.mem_eraseDups, ((view.walk_perm token).map RingEntry.owner).mem_iff,
    mem_owners_iff]

theorem places_nodup (view : ClusterView) (token : Token) : (view.places token).Nodup :=
  nodup_eraseDups _

/-- The walk meets every member. -/
theorem places_perm (view : ClusterView) (token : Token) :
    (view.places token).Perm (List.range view.peers.length) := by
  apply (List.perm_ext_iff_of_nodup (view.places_nodup token) List.nodup_range).2
  intro place
  rw [mem_places_iff, List.mem_range]

theorem length_places (view : ClusterView) (token : Token) :
    (view.places token).length = view.peers.length := by
  rw [(view.places_perm token).length_eq, List.length_range]

/-! ## Replicas -/

/-- Views with the same members have the same replicas. -/
theorem replicas_eq_of_peers_eq {view other : ClusterView} (h : view.peers = other.peers) :
    view.replicas = other.replicas := by
  funext token count
  simp only [replicas, walk, ring_eq, h]

/-- The replicas are the members at the first places of the walk. -/
theorem replicas_eq (view : ClusterView) (token : Token) (count : Nat) :
    (view.replicas token count).map some =
      ((view.places token).take count).map fun place => view.peers[place]? := by
  have hall : ∀ place ∈ (view.places token).take count, place < view.peers.length :=
    fun place hplace => (view.mem_places_iff token place).1 (List.mem_of_mem_take hplace)
  have heq : view.replicas token count =
      ((view.places token).take count).filterMap fun place => view.peers[place]? := rfl
  rw [heq]
  generalize (view.places token).take count = places at hall
  induction places with
  | nil => rfl
  | cons place rest ih =>
      have hlt := hall place List.mem_cons_self
      have hrest := ih fun other hother => hall other (List.mem_cons_of_mem _ hother)
      rw [List.filterMap_cons, List.getElem?_eq_getElem hlt, List.map_cons, List.map_cons, hrest,
        List.getElem?_eq_getElem hlt]

theorem length_replicas (view : ClusterView) (token : Token) (count : Nat) :
    (view.replicas token count).length = min count view.peers.length := by
  have hlength := congrArg List.length (view.replicas_eq token count)
  rw [List.length_map, List.length_map, List.length_take, length_places] at hlength
  exact hlength

theorem mem_peers_of_mem_replicas {view : ClusterView} {token : Token} {count : Nat}
    {peer : Peer} (h : peer ∈ view.replicas token count) : peer ∈ view.peers := by
  obtain ⟨place, -, hplace⟩ := List.mem_filterMap.1 h
  exact List.mem_of_getElem? hplace

/-- Replicas are members of the view. -/
theorem mem_addresses_of_mem_replicas {view : ClusterView} {token : Token} {count : Nat}
    {address : Address} (h : address ∈ (view.replicas token count).map Peer.address) :
    address ∈ view.addresses := by
  obtain ⟨peer, hpeer, rfl⟩ := List.mem_map.1 h
  exact List.mem_map.2 ⟨peer, mem_peers_of_mem_replicas hpeer, rfl⟩

/-- No two replicas share an address. -/
theorem addresses_replicas_nodup (view : ClusterView) (token : Token) (count : Nat) :
    ((view.replicas token count).map Peer.address).Nodup := by
  have hplaces : ((view.places token).take count).Nodup :=
    (view.places_nodup token).sublist (List.take_sublist _ _)
  have heq : ((view.replicas token count).map Peer.address).map some =
      ((view.places token).take count).map fun place => view.addresses[place]? := by
    have hmap := congrArg (List.map (Option.map Peer.address)) (view.replicas_eq token count)
    simp only [List.map_map, addresses] at hmap ⊢
    simpa [Function.comp_def] using hmap
  apply List.Nodup.of_map some
  rw [heq]
  refine hplaces.map_on ?_
  intro first hfirst second hsecond hsame
  have hlt := (view.mem_places_iff token first).1 (List.mem_of_mem_take hfirst)
  have hbound : first < view.addresses.length := by
    rw [addresses, List.length_map]
    exact hlt
  exact (List.getElem?_inj hbound view.addresses_nodup).1 hsame

/-- There are no replicas only where there are no members. -/
theorem replicas_eq_nil_iff {view : ClusterView} {token : Token} {count : Nat}
    (hpos : 0 < count) : view.replicas token count = [] ↔ view.peers = [] := by
  rw [← List.length_eq_zero_iff, length_replicas, ← List.length_eq_zero_iff]
  omega

end ClusterView
end RingRouting
