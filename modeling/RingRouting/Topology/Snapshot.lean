import RingRouting.Topology.Peer

/-!
# Snapshots of the cluster

A metadata refresh reports peers one after another.  A census files each report under its
address, where it takes the place of an earlier one, and notes the addresses in the order in
which they turn up.  When all reports are in, a snapshot is made of the census: the members in
the order of their addresses, the table they are looked up in, and the ring, which lists every
position of every member in the order of tokens.

Main definitions:

- `Census.report`: one more report.
- `Snapshot.ofReports`: the snapshot that a list of reports gives.

Main results:

- Theorem `Census.consistent_report`: one more report keeps table and order together.
- Theorem `Census.consistent_ofReports`: table and order agree, whatever is reported.
-/

namespace RingRouting

/-! ## Tables of peers -/

/-- Peers filed by address.  The first row of an address holds. -/
abbrev PeerTable := List (Address × Peer)

namespace PeerTable

/-- The peer that is filed under an address. -/
def get? (table : PeerTable) (address : Address) : Option Peer :=
  table.lookup address

/-- Files a peer under an address; also the peer that was filed there before. -/
def insert (address : Address) (peer : Peer) : PeerTable → Option Peer × PeerTable
  | [] => (none, [(address, peer)])
  | (known, former) :: rest =>
    if known = address then (some former, (address, peer) :: rest)
    else
      let (replaced, rest) := insert address peer rest
      (replaced, (known, former) :: rest)

variable (table : PeerTable) (address other : Address) (peer : Peer)

theorem insert_fst : (insert address peer table).1 = table.get? address := by
  induction table with
  | nil => rfl
  | cons row rest ih =>
      rcases row with ⟨known, former⟩
      rw [insert, get?, List.lookup_cons]
      by_cases hknown : known = address
      · rw [if_pos hknown, hknown, beq_self_eq_true]
      · rw [if_neg hknown, beq_false_of_ne (Ne.symm hknown)]
        exact ih

theorem get?_insert : (insert address peer table).2.get? other =
    if other = address then some peer else table.get? other := by
  unfold get?
  induction table with
  | nil =>
      by_cases hother : other = address
      · simp [insert, hother]
      · simp [insert, List.lookup_cons, beq_false_of_ne hother, hother]
  | cons row rest ih =>
      rcases row with ⟨known, former⟩
      rw [insert]
      by_cases hknown : known = address
      · rw [if_pos hknown, List.lookup_cons, List.lookup_cons, hknown]
        by_cases hother : other = address
        · simp [hother]
        · simp [beq_false_of_ne hother, hother]
      · rw [if_neg hknown, List.lookup_cons, List.lookup_cons, ih]
        by_cases hrow : other = known
        · simp [hrow, hknown]
        · simp [beq_false_of_ne hrow]

end PeerTable

/-! ## Taking in reports -/

/-- What the reports of a refresh have come to so far: for each address the report that holds,
and the addresses in the order of their first reports. -/
structure Census where
  byAddress : PeerTable
  order : List Address

namespace Census

/-- Nothing has been reported. -/
def empty : Census :=
  ⟨[], []⟩

/-- One more report.  A peer without tokens is left out; an address that is reported again keeps
its place. -/
def report (census : Census) (peer : Peer) : Census :=
  if peer.tokens = [] then census
  else
    let (replaced, byAddress) := PeerTable.insert peer.address peer census.byAddress
    if replaced.isSome then { census with byAddress := byAddress }
    else { byAddress := byAddress, order := census.order ++ [peer.address] }

/-- All reports of a refresh. -/
def ofReports (reports : List Peer) : Census :=
  reports.foldl report empty

/-- What is filed under the addresses, in their order. -/
def peers (census : Census) : List Peer :=
  census.order.filterMap census.byAddress.get?

end Census

/-! ## Snapshots -/

/-- A position of the ring; `owner` is the place of the owning peer in the snapshot. -/
structure RingEntry where
  token : Token
  owner : Nat
deriving DecidableEq

namespace RingEntry

/-- Every position of every peer, peer by peer. -/
def ofPeers (peers : List Peer) : List RingEntry :=
  peers.zipIdx.flatMap fun (peer, place) => peer.tokens.map fun token => ⟨token, place⟩

/-- Positions in ring order.  Equal tokens keep the order of their owners. -/
def sorted (entries : List RingEntry) : List RingEntry :=
  entries.mergeSort fun a b => a.token.notAfter b.token

end RingEntry

/-- What one refresh says about the cluster: the members of the ring, the same by address, and
the positions of the ring. -/
structure Snapshot where
  peers : List Peer
  knownPeers : PeerTable
  ring : List RingEntry

namespace Snapshot

/-- The snapshot without members. -/
def empty : Snapshot :=
  ⟨[], [], []⟩

/-- The snapshot that the reports of one refresh give. -/
def ofReports (reports : List Peer) : Snapshot :=
  let census := Census.ofReports reports
  { peers := census.peers
    knownPeers := census.byAddress
    ring := RingEntry.sorted (RingEntry.ofPeers census.peers) }

end Snapshot

/-! ## Table and order -/

namespace Census

/-- The addresses are those under which a peer is filed, each once, and every peer is filed under
its own address and has tokens. -/
structure Consistent (census : Census) : Prop where
  order_nodup : census.order.Nodup
  mem_order_iff : ∀ address, address ∈ census.order ↔ (census.byAddress.get? address).isSome
  filed : ∀ address peer, census.byAddress.get? address = some peer →
    peer.address = address ∧ peer.tokens ≠ []

theorem consistent_empty : empty.Consistent where
  order_nodup := List.nodup_nil
  mem_order_iff := by simp [empty, PeerTable.get?]
  filed := by simp [empty, PeerTable.get?]

variable {census : Census} {peer : Peer}

/-- What a report with tokens leaves: it is filed under its address, and the address stands last
if it is new. -/
theorem report_of_tokens (htokens : peer.tokens ≠ []) :
    census.report peer =
      { byAddress := (PeerTable.insert peer.address peer census.byAddress).2
        order :=
          if (census.byAddress.get? peer.address).isSome then census.order
          else census.order ++ [peer.address] } := by
  simp only [report, if_neg htokens, PeerTable.insert_fst]
  split <;> rfl

/-- One more report keeps table and order together. -/
theorem consistent_report (h : census.Consistent) (peer : Peer) :
    (census.report peer).Consistent := by
  by_cases htokens : peer.tokens = []
  · rwa [report, if_pos htokens]
  · rw [report_of_tokens htokens]
    have hknown := h.mem_order_iff peer.address
    refine ⟨?_, fun address => ?_, fun address other hother => ?_⟩
    · split
      next => exact h.order_nodup
      next hnew =>
        rw [← hknown] at hnew
        rw [List.nodup_append]
        refine ⟨h.order_nodup, List.nodup_cons.2 ⟨List.not_mem_nil, List.nodup_nil⟩, ?_⟩
        intro address hmem other hother hsame
        rw [List.mem_singleton.1 hother] at hsame
        exact hnew (hsame ▸ hmem)
    · rw [PeerTable.get?_insert]
      by_cases hsame : address = peer.address
      · subst hsame
        split <;> simp_all
      · split <;> simp [hsame, h.mem_order_iff]
    · rw [PeerTable.get?_insert] at hother
      split at hother
      next hsame =>
        cases hother
        exact ⟨hsame.symm, htokens⟩
      next => exact h.filed address other hother

/-- Table and order agree, whatever is reported. -/
theorem consistent_ofReports (reports : List Peer) : (ofReports reports).Consistent := by
  have hrun : ∀ census : Census, census.Consistent → (reports.foldl report census).Consistent := by
    induction reports with
    | nil => exact fun _ h => h
    | cons peer rest ih => exact fun census h => ih _ (consistent_report h peer)
  exact hrun empty consistent_empty

namespace Consistent

variable (h : census.Consistent)
include h

/-- No look-up fails: the members stand at the addresses, in their order. -/
theorem map_address_peers : census.peers.map Peer.address = census.order := by
  have hfound : ∀ address ∈ census.order,
      (census.byAddress.get? address).map Peer.address = some address := by
    intro address hmem
    obtain ⟨peer, hpeer⟩ := Option.isSome_iff_exists.1 ((h.mem_order_iff address).1 hmem)
    rw [hpeer, Option.map_some, (h.filed address peer hpeer).1]
  calc census.peers.map Peer.address
      = (census.order.map fun address =>
          (census.byAddress.get? address).map Peer.address).filterMap id := by
        rw [peers, List.map_filterMap, List.filterMap_map]
        rfl
    _ = (census.order.map some).filterMap id := by rw [List.map_congr_left hfound]
    _ = census.order := by simp

/-- A look-up finds the member that stands at the address. -/
theorem get?_eq_some_iff (address : Address) (peer : Peer) :
    census.byAddress.get? address = some peer ↔ peer ∈ census.peers ∧ peer.address = address := by
  rw [peers, List.mem_filterMap]
  constructor
  · intro hpeer
    refine ⟨⟨address, ?_, hpeer⟩, (h.filed address peer hpeer).1⟩
    rw [h.mem_order_iff, hpeer]
    rfl
  · rintro ⟨⟨known, -, hpeer⟩, rfl⟩
    rwa [(h.filed known peer hpeer).1]

theorem tokens_ne_nil (peer : Peer) (hpeer : peer ∈ census.peers) : peer.tokens ≠ [] := by
  have hfiled := (h.get?_eq_some_iff peer.address peer).2 ⟨hpeer, rfl⟩
  exact (h.filed peer.address peer hfiled).2

end Consistent
end Census

end RingRouting
