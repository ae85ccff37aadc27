import RingRouting.Proofs.Topology.Joining
import RingRouting.Proofs.Topology.Members

/-!
# Listing does not matter

Descriptions of the same peers may list their tokens in another order or more than once.  The
ring then holds other positions, but without repetition they are the same ones in the same
order, so that a walk meets the members in the same order.  Peers may also be reported in
another order.  This matters only to tokens that several of them claim: where no token is shared,
the claims have one order on the ring.

Main results:

- Theorem `Peer.same_iff`: descriptions of the same peer.
- Theorem `ClusterView.alike_ofReports`: reports of the same peers give the same members.
- Theorem `ClusterView.places_of_alike`: the same members are met in the same order.
- Theorem `ClusterView.met_of_perm`: members that share no token are met in one order.
- Theorem `ClusterView.replicas_ignore_listing`: replicas of two listings of the same peers.
-/

namespace RingRouting

/-! ## The same peers -/

namespace Peer

/-- Peers are the same where they have address, names and tokens in common, however often and in
whatever order the tokens are listed. -/
theorem same_iff {peer other : Peer} :
    peer.same other = true ↔
      peer.address = other.address ∧ peer.datacenter = other.datacenter ∧
        peer.rack = other.rack ∧ ∀ token, token ∈ peer.tokens ↔ token ∈ other.tokens := by
  simp only [same, sameTokens, Bool.and_eq_true, beq_iff_eq, List.all_eq_true,
    List.contains_iff_mem, and_assoc, iff_def, forall_and]

theorem tokens_eq_nil_iff_of_same {peer other : Peer} (h : peer.same other = true) :
    peer.tokens = [] ↔ other.tokens = [] := by
  obtain ⟨-, -, -, htokens⟩ := same_iff.1 h
  simp only [List.eq_nil_iff_forall_not_mem, htokens]

/-- Two lists describe the same peers, one by one. -/
abbrev Alike (peers others : List Peer) : Prop :=
  List.Forall₂ (fun peer other => peer.same other = true) peers others

theorem Alike.map_address {peers others : List Peer} (h : Alike peers others) :
    peers.map address = others.map address := by
  rw [← List.forall₂_eq_eq_eq, List.forall₂_map_left_iff, List.forall₂_map_right_iff]
  exact h.imp fun _ _ hsame => (same_iff.1 hsame).1

end Peer

open Peer (Alike)

theorem RingEntry.InOrder.antisymm {a b : RingEntry} (hab : a.InOrder b) (hba : b.InOrder a) :
    a = b := by
  rcases hab with hlt | ⟨htoken, howner⟩
  · exact absurd hba.token_le (Int.not_le.2 hlt)
  · have hplace := Nat.le_antisymm howner (hba.owner_le htoken)
    cases a
    cases b
    simp_all

namespace ClusterView

/-! ## Views of the same peers -/

theorem alike_replaced {peers others : List Peer} {peer other : Peer}
    (hpeers : Alike peers others) (hsame : peer.same other = true) :
    Alike (Peer.replaced peers peer) (Peer.replaced others other) := by
  rw [Peer.replaced, Peer.replaced, Peer.Alike, List.forall₂_map_left_iff,
    List.forall₂_map_right_iff]
  apply hpeers.imp
  intro old former hold
  have hold' := (Peer.same_iff.1 hold).1
  have haddress := (Peer.same_iff.1 hsame).1
  by_cases hreplaced : old.address = peer.address
  · rw [if_pos hreplaced, if_pos (hold' ▸ haddress ▸ hreplaced)]
    exact hsame
  · rw [if_neg hreplaced, if_neg (hold' ▸ haddress ▸ hreplaced)]
    exact hold

/-- One more report of the same peer leaves the same members. -/
theorem alike_reported {peers others : List Peer} {peer former : Peer}
    (hpeers : Alike peers others) (hsame : peer.same former = true) :
    Alike (Peer.reported peers peer) (Peer.reported others former) := by
  have htokens := Peer.tokens_eq_nil_iff_of_same hsame
  have haddress := (Peer.same_iff.1 hsame).1
  have hknown : peer.address ∈ peers.map Peer.address ↔
      former.address ∈ others.map Peer.address := by
    rw [hpeers.map_address, haddress]
  unfold Peer.reported
  by_cases hnone : peer.tokens = []
  · rwa [if_pos hnone, if_pos (htokens.1 hnone)]
  · rw [if_neg hnone, if_neg (mt htokens.2 hnone)]
    by_cases hold : peer.address ∈ peers.map Peer.address
    · rw [if_pos hold, if_pos (hknown.1 hold)]
      exact alike_replaced hpeers hsame
    · rw [if_neg hold, if_neg (mt hknown.2 hold)]
      exact List.rel_append hpeers (.cons hsame .nil)

/-- Reports of the same peers, one by one, give the same members. -/
theorem alike_ofReports {reports others : List Peer} (h : Alike reports others) :
    Alike (ofReports reports).peers (ofReports others).peers := by
  rw [peers_ofReports_eq_foldl, peers_ofReports_eq_foldl]
  have hrun : ∀ {before former : List Peer}, Alike before former →
      Alike (reports.foldl Peer.reported before) (others.foldl Peer.reported former) := by
    induction h with
    | nil => exact id
    | cons hsame _ ih => exact fun hbefore => ih (alike_reported hbefore hsame)
  exact hrun .nil

/-! ## Walks along alike rings -/

section Alike

variable {view other : ClusterView} (halike : Alike view.peers other.peers)

include halike in
/-- The rings of alike views hold the same positions. -/
theorem mem_ring_iff_of_alike (entry : RingEntry) :
    entry ∈ view.ring ↔ entry ∈ other.ring := by
  rw [mem_ring_iff, mem_ring_iff]
  obtain ⟨hlength, hsame⟩ := List.forall₂_iff_get.1 halike
  simp only [List.getElem?_eq_some_iff]
  constructor
  · rintro ⟨peer, ⟨hlt, rfl⟩, htoken⟩
    have hlt' : entry.owner < other.peers.length := hlength ▸ hlt
    exact ⟨_, ⟨hlt', rfl⟩, ((Peer.same_iff.1 (hsame _ hlt hlt')).2.2.2 _).1 htoken⟩
  · rintro ⟨peer, ⟨hlt', rfl⟩, htoken⟩
    have hlt : entry.owner < view.peers.length := hlength ▸ hlt'
    exact ⟨_, ⟨hlt, rfl⟩, ((Peer.same_iff.1 (hsame _ hlt hlt')).2.2.2 _).2 htoken⟩

include halike in
/-- Without their repetitions, the rings of alike views are the same. -/
theorem eraseDups_ring_of_alike : view.ring.eraseDups = other.ring.eraseDups :=
  eraseDups_eq_of_pairwise (fun _ _ => RingEntry.InOrder.antisymm) view.ring_inOrder
    other.ring_inOrder (mem_ring_iff_of_alike halike)

/-- The two parts of a walk have no position in common. -/
theorem eraseDups_walk (view : ClusterView) (token : Token) :
    (view.walk token).eraseDups =
      view.ring.eraseDups.filter (fun entry => !entry.token.before token) ++
        view.ring.eraseDups.filter fun entry => entry.token.before token := by
  have happart : (view.ring.filter fun entry => entry.token.before token).removeAll
      (view.ring.filter fun entry => !entry.token.before token) =
        view.ring.filter fun entry => entry.token.before token := by
    rw [List.removeAll, List.filter_eq_self]
    intro entry hentry
    have hbefore := (List.mem_filter.1 hentry).2
    simp [hbefore]
  rw [walk_eq_filter, List.eraseDups_append, happart, eraseDups_filter, eraseDups_filter]

include halike in
/-- Walks along the rings of alike views come to the members in the same order. -/
theorem places_of_alike (token : Token) : view.places token = other.places token := by
  have hwalk : (view.walk token).eraseDups = (other.walk token).eraseDups := by
    rw [eraseDups_walk, eraseDups_walk, eraseDups_ring_of_alike halike]
  rw [places, ← eraseDups_map_eraseDups, hwalk, eraseDups_map_eraseDups, places]

/-- The addresses of replicas are those in the first places of the walk. -/
theorem addresses_replicas (view : ClusterView) (token : Token) (count : Nat) :
    (view.replicas token count).map Peer.address =
      ((view.places token).take count).filterMap fun place => view.addresses[place]? := by
  simp only [replicas, places, addresses, List.map_filterMap, List.getElem?_map]

include halike in
theorem addresses_replicas_of_alike (token : Token) (count : Nat) :
    (view.replicas token count).map Peer.address =
      (other.replicas token count).map Peer.address := by
  have haddresses : view.addresses = other.addresses := halike.map_address
  rw [addresses_replicas, addresses_replicas, places_of_alike halike, haddresses]

end Alike

/-! ## Members in another order -/

/-- No token is claimed at two addresses. -/
def Unshared (peers : List Peer) : Prop :=
  ∀ first ∈ peers, ∀ second ∈ peers, ∀ token ∈ first.tokens, token ∈ second.tokens →
    first.address = second.address

theorem mem_claims_iff {peers : List Peer} {claim : Peer × Token} :
    claim ∈ claims peers ↔ claim.1 ∈ peers ∧ claim.2 ∈ claim.1.tokens := by
  obtain ⟨owner, token⟩ := claim
  simp [claims]

section Perm

variable {view other : ClusterView} (hperm : view.peers.Perm other.peers)
  (hunshared : Unshared view.peers)

include hunshared in
/-- Where no token is shared, a token tells the claim. -/
theorem claim_eq_of_token_eq {first second : Peer × Token} (hfirst : first ∈ claims view.peers)
    (hsecond : second ∈ claims view.peers) (htoken : first.2 = second.2) : first = second := by
  obtain ⟨hfirstPeer, hfirstToken⟩ := mem_claims_iff.1 hfirst
  obtain ⟨hsecondPeer, hsecondToken⟩ := mem_claims_iff.1 hsecond
  have haddress : first.1.address = second.1.address :=
    hunshared _ hfirstPeer _ hsecondPeer _ hfirstToken (htoken ▸ hsecondToken)
  exact Prod.ext (eq_of_address_eq hfirstPeer hsecondPeer haddress) htoken

theorem pairwise_sorted_claims (list : List (Peer × Token)) :
    (list.mergeSort fun a b => a.2.notAfter b.2).Pairwise fun a b => a.2.value ≤ b.2.value := by
  have hsorted : (list.mergeSort fun a b => a.2.notAfter b.2).Pairwise fun a b =>
      a.2.notAfter b.2 :=
    List.pairwise_mergeSort (fun a b c => Token.notAfter_trans a.2 b.2 c.2)
      (fun a b => Token.notAfter_total a.2 b.2) list
  exact hsorted.imp of_decide_eq_true

include hperm hunshared in
/-- Where no token is shared, claims have one order on the ring. -/
theorem sorted_claims_of_perm :
    ((claims view.peers).mergeSort fun a b => a.2.notAfter b.2) =
      (claims other.peers).mergeSort fun a b => a.2.notAfter b.2 := by
  have hclaims : (claims view.peers).Perm (claims other.peers) := hperm.flatMap_right _
  have hrings := ((List.mergeSort_perm (claims view.peers) fun a b => a.2.notAfter b.2).trans
    hclaims).trans (List.mergeSort_perm _ fun a b => a.2.notAfter b.2).symm
  refine hrings.eq_of_pairwise ?_ (pairwise_sorted_claims _) (pairwise_sorted_claims _)
  intro first second hfirst hsecond hle hge
  rw [List.mem_mergeSort] at hfirst hsecond
  exact claim_eq_of_token_eq hunshared hfirst (hclaims.mem_iff.2 hsecond)
    (Token.eq_of_value_eq (Int.le_antisymm hle hge))

include hperm hunshared in
/-- Where no token is shared, walks meet the members in one order, however they are listed. -/
theorem met_of_perm (token : Token) : view.met token = other.met token := by
  rw [met_eq, met_eq, turn, turn, sorted_claims_of_perm hperm hunshared]

end Perm

/-- Reports in another order, each address once, give the same members in another order. -/
theorem peers_perm_of_perm {reports others : List Peer}
    (hnodup : (reports.map Peer.address).Nodup) (hperm : reports.Perm others) :
    (ofReports reports).peers.Perm (ofReports others).peers := by
  have hothers : (others.map Peer.address).Nodup := (hperm.map _).nodup_iff.1 hnodup
  rw [peers_ofReports_of_nodup hnodup, peers_ofReports_of_nodup hothers]
  exact hperm.filter _

/-! ## Two listings -/

/-- From two lists of reports come the same replicas of every token, in the same order. -/
def SameReplicas (reports others : List Peer) : Prop :=
  ∀ token count, ((ofReports reports).replicas token count).map Peer.address =
    ((ofReports others).replicas token count).map Peer.address

/-- Peers that are reported twice, each time at the same place of the list, though with tokens in
another order or repeated, have the same replicas of every token, however many are asked for.
Where every address is reported once and no token is shared, the peers may be listed in another
order as well. -/
theorem replicas_ignore_listing (reports others : List Peer) :
    (Alike reports others → SameReplicas reports others) ∧
      ((reports.map Peer.address).Nodup → (∃ order, reports.Perm order ∧ Alike order others) →
        Unshared reports → SameReplicas reports others) := by
  refine ⟨fun halike => addresses_replicas_of_alike (alike_ofReports halike), ?_⟩
  rintro hnodup ⟨order, hperm, halike⟩ hunshared token count
  have hmembers : Unshared (ofReports reports).peers := by
    rw [peers_ofReports_of_nodup hnodup]
    intro first hfirst second hsecond
    exact hunshared first (List.mem_filter.1 hfirst).1 second (List.mem_filter.1 hsecond).1
  have hmet := met_of_perm (peers_perm_of_perm hnodup hperm) hmembers token
  rw [replicas_eq_take, hmet, ← replicas_eq_take]
  exact addresses_replicas_of_alike (alike_ofReports halike) token count

/-- A peer lists its tokens in another order and one of them twice.  Beside a peer that shares a
token with it, it has to keep its place; beside one that shares none, it may change it. -/
theorem replicas_ignore_listing_of_relisted_peer : ∃ first relisted sharing apart : Peer,
    first.tokens = [⟨30⟩, ⟨10⟩] ∧ relisted.tokens = [⟨10⟩, ⟨30⟩, ⟨10⟩] ∧
      sharing.tokens = [⟨30⟩] ∧ apart.tokens = [⟨20⟩] ∧
      SameReplicas [first, sharing, first] [relisted, sharing, first] ∧
      SameReplicas [first, apart] [apart, relisted] := by
  let first : Peer := ⟨.ofQuad 10 0 0 1, "dc1", "r1", [⟨30⟩, ⟨10⟩]⟩
  let relisted : Peer := { first with tokens := [⟨10⟩, ⟨30⟩, ⟨10⟩] }
  let sharing : Peer := ⟨.ofQuad 10 0 0 2, "dc1", "r1", [⟨30⟩]⟩
  let apart : Peer := ⟨.ofQuad 10 0 0 3, "dc1", "r1", [⟨20⟩]⟩
  have hfirst : first.same relisted = true := by decide
  have hunshared : Unshared [first, apart] := by
    unfold Unshared
    decide
  refine ⟨first, relisted, sharing, apart, rfl, rfl, rfl, rfl, ?_, ?_⟩
  · exact (replicas_ignore_listing [first, sharing, first] [relisted, sharing, first]).1
      (.cons hfirst (.cons (by decide) (.cons (by decide) .nil)))
  · refine (replicas_ignore_listing [first, apart] [apart, relisted]).2 (by decide) ?_ hunshared
    exact ⟨[apart, first], List.Perm.swap _ _ _, .cons (by decide) (.cons hfirst .nil)⟩

/-- A shared token has the peer that was reported first. -/
example :
    let first : Peer := ⟨.ofQuad 10 0 0 1, "dc1", "r1", [⟨30⟩]⟩
    let second : Peer := ⟨.ofQuad 10 0 0 2, "dc1", "r1", [⟨30⟩]⟩
    (ofReports [first, second]).primaryReplica ⟨11⟩ = some first ∧
      (ofReports [second, first]).primaryReplica ⟨11⟩ = some second := by
  cbv

end ClusterView
end RingRouting
