import Mathlib.Data.List.Perm.Subperm
import RingRouting.Proofs.Cluster.Planning
import RingRouting.Proofs.Topology.Members

/-!
# Two notions of distance

Peers tell their distance by the names of their datacenters and racks; a snitch that is built
from a view compares addresses.  It compares racks in other datacenters as well, where peers do
not look at them, so that it tells more candidates apart.  Where peers tell a difference, the
snitch finds the same one.

Main results:

- Theorem `Snitch.compare_of_proximityTo`: what is nearer to a peer is nearer to the snitch.
- Theorem `History.plans_follow_proximity`: the replicas of a plan, by the distances that the
  peer at the local address tells, for every view that a cluster can come to hold.
-/

namespace RingRouting

/-! ## Snitches that are built from a view -/

/-- The distance between peers as a number. -/
theorem Peer.value_proximityTo (peer other : Peer) :
    (peer.proximityTo other).value =
      if other.datacenter != peer.datacenter then 2 else (other.rack != peer.rack).toNat := by
  unfold proximityTo
  by_cases hdatacenter : other.datacenter = peer.datacenter
  · by_cases hrack : other.rack = peer.rack
    · simp [hdatacenter, hrack, Proximity.value]
    · simp [hdatacenter, bne_iff_ne.2 hrack, Ne.symm hrack, Proximity.value]
  · simp [hdatacenter, Ne.symm hdatacenter, Proximity.value]

namespace Snitch

/-- An address that a table lists once stands in the place that is listed. -/
theorem placeIn_of_mem {table : List (Address × Place)} {default place : Place}
    {address : Address} (hnodup : (table.map Prod.fst).Nodup) (h : (address, place) ∈ table) :
    placeIn table default address = place := by
  obtain ⟨before, after, hsplit⟩ := List.append_of_mem (List.mem_reverse.2 h)
  have hkeys : (table.reverse.map Prod.fst).Nodup := by
    rw [List.map_reverse]
    exact List.nodup_reverse.2 hnodup
  have hlookup : table.reverse.lookup address = some place := by
    rw [List.lookup_eq_some_iff]
    refine ⟨before, after, hsplit, ?_⟩
    intro row hrow
    rw [hsplit, List.map_append, List.nodup_append] at hkeys
    have hne := hkeys.2.2 row.1 (List.mem_map_of_mem hrow) address (by simp)
    simpa using hne.symm
  rw [placeIn, hlookup]
  rfl

/-- A member of the view stands where it reported to stand. -/
theorem ofView_of_mem {view : ClusterView} (default : Place) {peer : Peer}
    (h : peer ∈ view.peers) :
    (ofView view default).datacenter peer.address = peer.datacenter ∧
      (ofView view default).rack peer.address = peer.rack := by
  have hplace : placeIn (view.peers.map fun peer =>
      (peer.address, (⟨peer.datacenter, peer.rack⟩ : Place))) default peer.address =
        ⟨peer.datacenter, peer.rack⟩ := by
    apply placeIn_of_mem
    · rw [List.map_map]
      exact view.addresses_nodup
    · exact List.mem_map_of_mem h
  exact ⟨congrArg Place.datacenter hplace, congrArg Place.rack hplace⟩

/-- The distance of a member, by what it and the reference reported. -/
theorem distance_ofView {view : ClusterView} (default : Place) {reference peer : Peer}
    (hreference : reference ∈ view.peers) (hpeer : peer ∈ view.peers) :
    (ofView view default).distance reference.address peer.address =
      4 * (peer.address != reference.address).toNat +
        2 * (peer.datacenter != reference.datacenter).toNat +
        (peer.rack != reference.rack).toNat := by
  obtain ⟨hdatacenter, hrack⟩ := ofView_of_mem default hreference
  obtain ⟨hpeerDatacenter, hpeerRack⟩ := ofView_of_mem default hpeer
  rw [distance, hdatacenter, hrack, hpeerDatacenter, hpeerRack]

/-- What is nearer to a member, by its own account, is nearer to a snitch of the view. -/
theorem distance_lt_of_proximityTo {view : ClusterView} (default : Place)
    {reference a b : Peer} (hreference : reference ∈ view.peers) (ha : a ∈ view.peers)
    (hb : b ∈ view.peers)
    (h : (reference.proximityTo a).value < (reference.proximityTo b).value) :
    (ofView view default).distance reference.address a.address <
      (ofView view default).distance reference.address b.address := by
  -- nothing is nearer than the reference, so that only `a` may stand at its address
  have hother : b.address ≠ reference.address := by
    intro haddress
    rw [ClusterView.eq_of_address_eq hb hreference haddress] at h
    simp [Peer.proximityTo, Proximity.value] at h
  have haddress := Bool.toNat_le (a.address != reference.address)
  have hrack := Bool.toNat_le (a.rack != reference.rack)
  rw [distance_ofView default hreference ha, distance_ofView default hreference hb,
    bne_iff_ne.2 hother]
  rw [Peer.value_proximityTo, Peer.value_proximityTo] at h
  cases hfarA : a.datacenter != reference.datacenter with
  | true =>
      have hnear := Bool.toNat_le (b.rack != reference.rack)
      rw [hfarA, if_pos rfl] at h
      split at h <;> omega
  | false =>
      rw [hfarA, if_neg Bool.false_ne_true] at h
      cases hfarB : b.datacenter != reference.datacenter with
      | true =>
          simp only [Bool.toNat_true, Bool.toNat_false]
          omega
      | false =>
          rw [hfarB, if_neg Bool.false_ne_true] at h
          simp only [Bool.toNat_true, Bool.toNat_false]
          omega

/-- What is nearer to a member, by its own account, compares as nearer. -/
theorem compare_of_proximityTo {view : ClusterView} (default : Place) {reference a b : Peer}
    (hreference : reference ∈ view.peers) (ha : a ∈ view.peers) (hb : b ∈ view.peers)
    (h : (reference.proximityTo a).value < (reference.proximityTo b).value) :
    (ofView view default).compareByProximity reference.address a.address b.address = .lt := by
  rw [compareByProximity_eq, Nat.compare_eq_lt]
  exact distance_lt_of_proximityTo default hreference ha hb h

/-- Members that are ranked by the snitch are in order by the reference's own account. -/
theorem pairwise_proximityTo {view : ClusterView} (default : Place) {reference : Peer}
    (hreference : reference ∈ view.peers) {members : List Peer}
    (hmembers : ∀ peer ∈ members, peer ∈ view.peers)
    (hsorted : (members.map Peer.address).Pairwise fun a b =>
      (ofView view default).distance reference.address a ≤
        (ofView view default).distance reference.address b) :
    members.Pairwise fun a b =>
      (reference.proximityTo a).value ≤ (reference.proximityTo b).value := by
  rw [List.pairwise_map] at hsorted
  apply hsorted.imp_of_mem
  intro a b ha hb hle
  by_contra hless
  exact Nat.not_lt.2 hle (distance_lt_of_proximityTo default hreference (hmembers b hb)
    (hmembers a ha) (Nat.not_le.1 hless))

/-- The reference is ranked before all others. -/
theorem head?_sortedByProximity (snitch : Snitch) {reference : Address}
    {candidates : List Address} (h : reference ∈ candidates) :
    (snitch.sortedByProximity reference candidates).head? = some reference := by
  have hmem := (snitch.sortedByProximity_perm reference candidates).mem_iff.2 h
  have hsorted := snitch.pairwise_sortedByProximity reference candidates
  cases hranked : snitch.sortedByProximity reference candidates with
  | nil =>
      rw [hranked] at hmem
      cases hmem
  | cons first rest =>
      rw [hranked] at hmem hsorted
      rcases List.mem_cons.1 hmem with rfl | hrest
      · rfl
      · have hle := (List.pairwise_cons.1 hsorted).1 reference hrest
        rw [distance_self, Nat.le_zero] at hle
        rw [List.head?_cons, eq_of_distance_eq_zero hle]

end Snitch

/-! ## Plans -/

namespace History

/-- Where members of a view are nearer to one of them by its own account, the snitch of the view
compares them so.  Hence, whatever has happened to a cluster with that snitch: if a member of
its view stands at the local address, each plan's replicas are members, the distances that the
local member tells do not decrease along them, and it comes first if it is one of them. -/
theorem plans_follow_proximity {builder : ClusterBuilder} {entropy : Nat → Nat → UInt32}
    {cluster : Cluster}
    (hsnitch : builder.activator.resolveSnitch builder.config.snitch =
      .ok (some Activator.topologySnitch))
    (hbuild : builder.build entropy = .ok cluster) (events : List Event) :
    let now := ((start cluster).run events).cluster
    (∀ view : ClusterView, ∀ reference ∈ view.peers, ∀ a ∈ view.peers, ∀ b ∈ view.peers,
      (reference.proximityTo a).value < (reference.proximityTo b).value →
        (Snitch.ofView view Snitch.unknownPlace).compareByProximity reference.address a.address
          b.address = .lt) ∧
    ∀ here ∈ now.topology.view.peers, builder.config.origin = some here.address →
      ∀ key plan, (now.plan key).1 = .ok plan →
        (∃ members : List Peer, plan.replicas.map now.topology.view.get? = members.map some ∧
          members.Pairwise fun a b =>
            (here.proximityTo a).value ≤ (here.proximityTo b).value) ∧
        (here.address ∈ plan.replicas → plan.replicas.head? = some here.address) := by
  intro now
  refine ⟨fun view reference hreference a ha b hb h =>
    Snitch.compare_of_proximityTo _ hreference ha hb h, ?_⟩
  intro here hhere horigin key plan hplan
  obtain ⟨hconfigures, hbuilt⟩ : builder.Configures now.settings ∧
      now.SnitchBuilt now.topology := configured_run hbuild events
  clear_value now
  have hfactory : now.snitchFactory = some Activator.topologySnitch :=
    Except.ok.inj (hconfigures.snitch.symm.trans hsnitch)
  have hnowOrigin : now.origin = some here.address := hconfigures.origin.trans horigin
  obtain ⟨snitch, hview, hrank⟩ := Cluster.rank_of_some hbuilt hfactory hnowOrigin
  cases hview
  have hplanned := now.planned key
  rw [hplan] at hplanned
  cases hplanned with
  | @planned token strategy htoken hsome hstrategy =>
      simp only [hrank]
      have hperm := (Snitch.ofView now.topology.view Snitch.unknownPlace).sortedByProximity_perm
        here.address (now.replicas token)
      have hsorted := (Snitch.ofView now.topology.view
        Snitch.unknownPlace).pairwise_sortedByProximity here.address (now.replicas token)
      obtain ⟨members, hfound, haddresses, hmembers⟩ := ClusterView.exists_members
        fun address haddress =>
          ClusterView.mem_addresses_of_mem_replicas (hperm.mem_iff.1 haddress)
      rw [← haddresses] at hsorted
      exact ⟨⟨members, hfound, Snitch.pairwise_proximityTo _ hhere hmembers hsorted⟩,
        fun hlocal => Snitch.head?_sortedByProximity _ (hperm.mem_iff.1 hlocal)⟩

/-- A refresh has put a node into another datacenter.  All three nodes are replicas, and the
local one is the first of them. -/
theorem plans_follow_proximity_of_moved_node : ∃ cluster plan,
    ((ClusterBuilder.unnamed [.numbered 1]).setAll
      [.snitch "TopologySnitch", .origin (Peer.numbered 2).address]).build (fun _ _ => 0) =
        .ok cluster ∧
      let moved : Peer := { Peer.numbered 1 with datacenter := "datacenter2" }
      let now := ((start cluster).run [.refresh [moved, .numbered 2, .numbered 3]]).cluster
      (now.plan (.single (.int 1))).1 = .ok plan ∧
        plan.replicas.Perm ([moved, .numbered 2, .numbered 3].map Peer.address) ∧
        (∃ members : List Peer, plan.replicas.map now.topology.view.get? = members.map some ∧
          members.Pairwise fun a b => ((Peer.numbered 2).proximityTo a).value ≤
            ((Peer.numbered 2).proximityTo b).value) ∧
        plan.replicas.head? = some (Peer.numbered 2).address := by
  have hcourse : (((ClusterBuilder.unnamed [.numbered 1]).setAll
      [.snitch "TopologySnitch", .origin (Peer.numbered 2).address]).build fun _ _ => 0).map
      (fun cluster =>
        let moved : Peer := { Peer.numbered 1 with datacenter := "datacenter2" }
        let now := ((start cluster).run [.refresh [moved, .numbered 2, .numbered 3]]).cluster
        (now.token (.single (.int 1)), now.topology.view.peers)) =
      .ok (.ok ⟨-4069959284402364209⟩,
        [{ Peer.numbered 1 with datacenter := "datacenter2" }, .numbered 2, .numbered 3]) := by
    decide +kernel
  obtain ⟨cluster, hbuild, hfacts⟩ := Except.map_eq_ok hcourse
  obtain ⟨htoken, hpeers⟩ := Prod.mk.inj hfacts
  have hlaw := (plans_follow_proximity rfl hbuild
    [.refresh [{ Peer.numbered 1 with datacenter := "datacenter2" }, .numbered 2,
      .numbered 3]]).2 (.numbered 2) (by rw [hpeers]; decide) rfl (.single (.int 1))
  obtain ⟨hconfigures, hlibrary, hbuilt, hstrategies⟩ := strategy_always_built rfl hbuild
    [.refresh [{ Peer.numbered 1 with datacenter := "datacenter2" }, .numbered 2, .numbered 3]]
  obtain ⟨plan, hplan⟩ := (Cluster.plan_ok_iff hstrategies _).2 ⟨⟨_, htoken⟩, by rw [hpeers]; simp⟩
  have hcorrect := Cluster.correct_of_plan hconfigures hbuilt hlibrary hplan
  have hmembers := hcorrect.members
  have hlength := hcorrect.length
  rw [ClusterView.addresses, hpeers] at hmembers
  rw [hpeers] at hlength
  have hperm : plan.replicas.Perm ([{ Peer.numbered 1 with datacenter := "datacenter2" },
      .numbered 2, .numbered 3].map Peer.address) :=
    (List.subperm_of_subset hcorrect.nodup hmembers).perm_of_length_le (hlength ▸ by decide)
  exact ⟨cluster, plan, hbuild, hplan, hperm, (hlaw plan hplan).1,
    (hlaw plan hplan).2 (hperm.mem_iff.2 (by decide))⟩

end History
end RingRouting
