import Mathlib.Data.List.Basic
import RingRouting.Proofs.Repetition
import RingRouting.Topology.ClusterView

/-!
# Reports one by one

A view is built from a table and an order of addresses.  What its members are can be told without
either: one more report is put into the place of the member at its address, or after all members
if there is none.  So the members of a view come from those of the view before the last report,
and what they are after any reports is shown by induction on the reports.

Main results:

- Theorem `Census.peers_report`: what one more report does to the members of a census.
- Theorem `ClusterView.peers_ofReports_eq_foldl`: the members of a view, told without table and
  order.
- Theorem `ClusterView.addresses_ofReports`: members are listed in the order of their first
  report.
-/

namespace RingRouting

/-! ## Members after a report -/

namespace Peer

/-- The peers with `peer` in the place of the one at its address. -/
def replaced (peers : List Peer) (peer : Peer) : List Peer :=
  peers.map fun old => if old.address = peer.address then peer else old

/-- The members after one more report.  A peer without tokens is no member. -/
def reported (peers : List Peer) (peer : Peer) : List Peer :=
  if peer.tokens = [] then peers
  else if peer.address ∈ peers.map address then replaced peers peer
  else peers ++ [peer]

variable {peers : List Peer} {peer other : Peer}

theorem map_address_replaced (peers : List Peer) (peer : Peer) :
    (replaced peers peer).map address = peers.map address := by
  rw [replaced, List.map_map]
  apply List.map_congr_left
  intro old _
  by_cases h : old.address = peer.address <;> simp [h]

theorem mem_replaced_iff (hknown : peer.address ∈ peers.map address) :
    other ∈ replaced peers peer ↔
      other = peer ∨ (other ∈ peers ∧ other.address ≠ peer.address) := by
  rw [replaced, List.mem_map]
  constructor
  · rintro ⟨old, hold, rfl⟩
    by_cases haddress : old.address = peer.address
    · exact .inl (if_pos haddress)
    · rw [if_neg haddress]
      exact .inr ⟨hold, haddress⟩
  · rintro (rfl | ⟨hother, haddress⟩)
    · obtain ⟨old, hold, haddress⟩ := List.mem_map.1 hknown
      exact ⟨old, hold, if_pos haddress⟩
    · exact ⟨other, hother, if_neg haddress⟩

theorem map_address_reported (peers : List Peer) (peer : Peer) :
    (reported peers peer).map address =
      if peer.tokens = [] ∨ peer.address ∈ peers.map address then peers.map address
      else peers.map address ++ [peer.address] := by
  unfold reported
  by_cases htokens : peer.tokens = []
  · rw [if_pos htokens, if_pos (.inl htokens)]
  · rw [if_neg htokens]
    by_cases hknown : peer.address ∈ peers.map address
    · rw [if_pos hknown, if_pos (.inr hknown), map_address_replaced]
    · rw [if_neg hknown, if_neg (not_or.2 ⟨htokens, hknown⟩), List.map_append,
        List.map_singleton]

/-- A report with tokens holds from then on, instead of the one that held for its address; all
other members stay.  A report without tokens changes nothing. -/
theorem mem_reported_iff (peers : List Peer) (peer other : Peer) :
    other ∈ reported peers peer ↔
      if peer.tokens = [] then other ∈ peers
      else other = peer ∨ (other ∈ peers ∧ other.address ≠ peer.address) := by
  unfold reported
  by_cases htokens : peer.tokens = []
  · simp only [if_pos htokens]
  · rw [if_neg htokens, if_neg htokens]
    by_cases hknown : peer.address ∈ peers.map address
    · rw [if_pos hknown]
      exact mem_replaced_iff hknown
    · rw [if_neg hknown, List.mem_append, List.mem_singleton]
      -- no member stands at an address that is new
      have hnew : other ∈ peers → other.address ≠ peer.address :=
        fun hother haddress => hknown (haddress ▸ List.mem_map_of_mem hother)
      tauto

end Peer

/-! ## Members of a census -/

namespace Census

variable {census : Census} {peer : Peer}

/-- To file a peer is to put it into the place of the member at its address. -/
theorem filterMap_insert (h : census.Consistent) :
    census.order.filterMap (PeerTable.insert peer.address peer census.byAddress).2.get? =
      Peer.replaced census.peers peer := by
  rw [Peer.replaced, peers, List.map_filterMap]
  apply List.filterMap_congr
  intro address hmem
  obtain ⟨old, hold⟩ := Option.isSome_iff_exists.1 ((h.mem_order_iff address).1 hmem)
  rw [PeerTable.get?_insert, hold, Option.map_some, (h.filed address old hold).1]
  split <;> rfl

/-- To file a peer under an address that is new leaves the members as they are. -/
theorem filterMap_insert_of_notMem (hnew : peer.address ∉ census.order) :
    census.order.filterMap (PeerTable.insert peer.address peer census.byAddress).2.get? =
      census.peers := by
  apply List.filterMap_congr
  intro address hmem
  rw [PeerTable.get?_insert, if_neg (ne_of_mem_of_not_mem hmem hnew)]

/-- What one more report does to the members. -/
theorem peers_report (h : census.Consistent) (peer : Peer) :
    (census.report peer).peers = Peer.reported census.peers peer := by
  by_cases htokens : peer.tokens = []
  · rw [report, Peer.reported, if_pos htokens, if_pos htokens]
  · rw [report_of_tokens htokens, Peer.reported, if_neg htokens, h.map_address_peers, peers]
    by_cases hknown : peer.address ∈ census.order
    · rw [if_pos hknown, ← filterMap_insert h,
        if_pos ((h.mem_order_iff peer.address).1 hknown)]
    · have hfiled : (PeerTable.insert peer.address peer census.byAddress).2.get? peer.address =
          some peer := by
        rw [PeerTable.get?_insert, if_pos rfl]
      rw [if_neg hknown, if_neg (mt (h.mem_order_iff peer.address).2 hknown),
        List.filterMap_append, filterMap_insert_of_notMem hknown, List.filterMap_cons_some hfiled,
        List.filterMap_nil]

end Census

namespace ClusterView

/-! ## Members of a view -/

/-- What one more report does to the members. -/
theorem peers_ofReports_concat (reports : List Peer) (peer : Peer) :
    (ofReports (reports ++ [peer])).peers = Peer.reported (ofReports reports).peers peer := by
  have hcensus : Census.ofReports (reports ++ [peer]) = (Census.ofReports reports).report peer := by
    rw [Census.ofReports, List.foldl_append]
    rfl
  change (Census.ofReports (reports ++ [peer])).peers = _
  rw [hcensus]
  exact Census.peers_report (Census.consistent_ofReports reports) peer

/-- The members, told without table and order. -/
theorem peers_ofReports_eq_foldl (reports : List Peer) :
    (ofReports reports).peers = reports.foldl Peer.reported [] := by
  induction reports using List.reverseRecOn with
  | nil => rfl
  | append_singleton reports peer ih =>
      rw [peers_ofReports_concat, List.foldl_append, ih, List.foldl_cons, List.foldl_nil]

/-- Members are listed in the order of their first report, that is the first one with tokens. -/
theorem addresses_ofReports (reports : List Peer) :
    (ofReports reports).addresses =
      ((reports.filter fun peer => peer.tokens ≠ []).map Peer.address).eraseDups := by
  induction reports using List.reverseRecOn with
  | nil => rfl
  | append_singleton reports peer ih =>
      rw [addresses, peers_ofReports_concat, Peer.map_address_reported, ← addresses, ih,
        List.filter_append, List.map_append]
      simp only [List.mem_eraseDups]
      generalize (reports.filter fun peer => peer.tokens ≠ []).map Peer.address = known
      by_cases htokens : peer.tokens = []
      · simp [htokens]
      · simp [htokens, eraseDups_concat]

end ClusterView
end RingRouting
