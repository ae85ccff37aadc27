import RingRouting.Proofs.Topology.Replicas

/-!
# A member joins or leaves

A ring with one more member is the ring without it, with the member's positions put in between.
Sorting is stable, so it makes no difference whether positions are left out before the others
are sorted or after it, and a walk meets all other members in the same order.  When a member
joins or leaves, the replicas of a token change in one place at most.

Main results:

- Theorem `ClusterView.met_eq`: what a walk meets, told by what the members claim.
- Theorem `ClusterView.met_of_joined`: the other members are met in the same order.
- Theorem `ClusterView.replicas_of_joined`: one member more or less changes one replica.
-/

namespace RingRouting

/-! ## Leaving elements out -/

theorem filter_ne_of_notMem {α : Type} [DecidableEq α] {list : List α} {a : α}
    (h : a ∉ list) : list.filter (fun b => b ≠ a) = list :=
  List.filter_eq_self.2 fun _ hb => decide_eq_true (ne_of_mem_of_not_mem hb h)

/-- Without one of its elements, a list begins as its own beginning does. -/
theorem take_filter_take {α : Type} [DecidableEq α] {list : List α} (hnodup : list.Nodup)
    (a : α) (count : Nat) :
    ((list.take (count + 1)).filter fun b => b ≠ a).take count =
      (list.filter fun b => b ≠ a).take count := by
  induction list generalizing count with
  | nil => rfl
  | cons b rest ih =>
      rw [List.nodup_cons] at hnodup
      rw [List.take_succ_cons]
      by_cases hb : b = a
      · subst hb
        have htaken : b ∉ rest.take count := fun h => hnodup.1 (List.mem_of_mem_take h)
        rw [List.filter_cons_of_neg (by simp), List.filter_cons_of_neg (by simp),
          filter_ne_of_notMem hnodup.1, filter_ne_of_notMem htaken, List.take_take,
          Nat.min_self]
      · rw [List.filter_cons_of_pos (by simpa using hb),
          List.filter_cons_of_pos (by simpa using hb)]
        cases count with
        | zero => rfl
        | succ count => rw [List.take_succ_cons, List.take_succ_cons, ih hnodup.2]

namespace ClusterView

/-! ## What members claim -/

/-- Every token of every member, member by member. -/
def claims (peers : List Peer) : List (Peer × Token) :=
  peers.flatMap fun peer => peer.tokens.map fun token => (peer, token)

/-- Whose claims a walk from a token meets, one after another. -/
def turn (token : Token) (claims : List (Peer × Token)) : List Peer :=
  let ring := claims.mergeSort fun a b => a.2.notAfter b.2
  (ring.filter (fun claim => !claim.2.before token) ++
    ring.filter fun claim => claim.2.before token).map Prod.fst

/-- Without the claims of some members a walk meets the others. -/
theorem turn_filter (token : Token) (p : Peer → Bool) (claims : List (Peer × Token)) :
    turn token (claims.filter fun claim => p claim.1) = (turn token claims).filter p := by
  have hring := @filter_mergeSort _ (fun a b : Peer × Token => a.2.notAfter b.2)
    (fun a b c => Token.notAfter_trans a.2 b.2 c.2) (fun a b => Token.notAfter_total a.2 b.2)
    (fun claim => p claim.1) claims
  simp only [turn, ← hring, List.map_append, List.filter_append, List.filter_map,
    List.filter_filter, Function.comp_def, Bool.and_comm]

variable (view : ClusterView)

/-- The owner of a position and its token. -/
def claim? (entry : RingEntry) : Option Peer × Token :=
  (view.owner? entry, entry.token)

theorem map_claim_ofPeers :
    (RingEntry.ofPeers view.peers).map view.claim? =
      (claims view.peers).map fun claim => (some claim.1, claim.2) := by
  have hpeers : claims view.peers =
      view.peers.zipIdx.flatMap fun indexed =>
        indexed.1.tokens.map fun token => (indexed.1, token) := by
    rw [claims, ← view.peers.zipIdx_map_fst 0, List.flatMap_map]
    simp
  rw [hpeers, RingEntry.ofPeers, List.map_flatMap, List.map_flatMap]
  apply List.flatMap_congr
  rintro ⟨peer, place⟩ hindexed
  have howner : view.peers[place]? = some peer := List.mem_zipIdx_iff_getElem?.1 hindexed
  simp [claim?, owner?, howner]

theorem map_claim_ring :
    view.ring.map view.claim? =
      ((claims view.peers).mergeSort fun a b => a.2.notAfter b.2).map fun claim =>
        (some claim.1, claim.2) := by
  have hring := List.map_mergeSort (r := fun a b : RingEntry => a.token.notAfter b.token)
    (s := fun a b => a.2.notAfter b.2) (f := view.claim?) (l := RingEntry.ofPeers view.peers)
    fun _ _ _ _ => rfl
  have hclaims := List.map_mergeSort (r := fun a b : Peer × Token => a.2.notAfter b.2)
    (s := fun a b => a.2.notAfter b.2) (f := fun claim => (some claim.1, claim.2))
    (l := claims view.peers) fun _ _ _ _ => rfl
  rw [ring_eq, RingEntry.sorted, hring, map_claim_ofPeers, hclaims]

/-- A walk meets the owners of the members' claims. -/
theorem owners_eq_turn (token : Token) :
    (view.walk token).filterMap view.owner? = turn token (claims view.peers) := by
  have hparts : ∀ p : Token → Bool,
      (view.ring.filter fun entry => p entry.token).filterMap view.owner? =
        (((claims view.peers).mergeSort fun a b => a.2.notAfter b.2).filter
          fun claim => p claim.2).map Prod.fst := by
    intro p
    have hring := congrArg (fun owned => (owned.filter fun claim => p claim.2).filterMap Prod.fst)
      view.map_claim_ring
    simpa only [List.filter_map, List.filterMap_map, Function.comp_def, claim?,
      List.filterMap_eq_map'] using hring
  rw [walk_eq_filter, List.filterMap_append, hparts fun other => !other.before token,
    hparts fun other => other.before token, ← List.map_append]
  rfl

/-- The members that a walk meets, told by what the members claim. -/
theorem met_eq (token : Token) :
    view.met token = (turn token (claims view.peers)).eraseDups := by
  rw [met, owners_eq_turn]

/-! ## One member more or less -/

/-- The claims of all members but one are those of the others. -/
theorem claims_filter {front back : List Peer} {joined : Peer} (hnew : joined ∉ front ++ back) :
    (claims (front ++ joined :: back)).filter (fun claim => claim.1 ≠ joined) =
      claims (front ++ back) := by
  have hkept : ∀ peers : List Peer, joined ∉ peers →
      (claims peers).filter (fun claim => claim.1 ≠ joined) = claims peers := by
    intro peers hpeers
    refine List.filter_eq_self.2 fun claim hclaim => ?_
    obtain ⟨peer, hpeer, hmem⟩ := List.mem_flatMap.1 hclaim
    obtain ⟨_, -, rfl⟩ := List.mem_map.1 hmem
    exact decide_eq_true (ne_of_mem_of_not_mem hpeer hpeers)
  have hlost : (joined.tokens.map fun token => (joined, token)).filter
      (fun claim => claim.1 ≠ joined) = [] := by
    simp
  rw [List.mem_append, not_or] at hnew
  simp only [claims] at hkept ⊢
  rw [List.flatMap_append, List.flatMap_append, List.flatMap_cons, List.filter_append,
    List.filter_append, hkept front hnew.1, hkept back hnew.2, hlost, List.nil_append]

variable {view} {grown : ClusterView} {front back : List Peer} {joined : Peer}

/-- A member that joins leaves the other members in the order in which they were met. -/
theorem met_of_joined (hpeers : view.peers = front ++ back)
    (hgrown : grown.peers = front ++ joined :: back) (token : Token) :
    view.met token = (grown.met token).filter fun peer => peer ≠ joined := by
  have hnew : joined ∉ front ++ back := by
    have hnodup : grown.peers.Nodup := grown.addresses_nodup.of_map _
    rw [hgrown, List.nodup_middle, List.nodup_cons] at hnodup
    exact hnodup.1
  rw [met_eq, met_eq, hpeers, hgrown, ← claims_filter hnew,
    turn_filter token (fun peer => peer ≠ joined), eraseDups_filter]

/-- Without the member that joined, the replicas of a token are those it had before. -/
theorem replicas_of_joined (hpeers : view.peers = front ++ back)
    (hgrown : grown.peers = front ++ joined :: back) (token : Token) (count : Nat) :
    ((grown.replicas token (count + 1)).filter fun peer => peer ≠ joined).take count =
      view.replicas token count := by
  have hnodup : (grown.met token).Nodup := nodup_eraseDups _
  rw [replicas_eq_take, replicas_eq_take, met_of_joined hpeers hgrown, take_filter_take hnodup]

theorem primaryReplica_eq_head? (view : ClusterView) (token : Token) :
    view.primaryReplica token = (view.met token).head? := by
  rw [← view.head?_replicas token (Nat.le_refl 1), replicas_eq_take, List.head?_take,
    if_neg Nat.one_ne_zero]

/-- A token keeps its owner unless the member that joined takes it. -/
theorem primaryReplica_of_joined (hpeers : view.peers = front ++ back)
    (hgrown : grown.peers = front ++ joined :: back) (token : Token)
    (hother : grown.primaryReplica token ≠ some joined) :
    grown.primaryReplica token = view.primaryReplica token := by
  rw [primaryReplica_eq_head?] at hother
  rw [primaryReplica_eq_head?, primaryReplica_eq_head?, met_of_joined hpeers hgrown]
  cases hmet : grown.met token with
  | nil => rfl
  | cons first rest =>
      rw [hmet, List.head?_cons, ne_eq, Option.some.injEq] at hother
      rw [List.filter_cons_of_pos (by simpa using hother), List.head?_cons, List.head?_cons]

/-! ## Reports of one member more or less -/

/-- Where every address is reported once, the members are the peers reported with tokens. -/
theorem peers_ofReports_of_nodup {reports : List Peer}
    (haddresses : (reports.map Peer.address).Nodup) :
    (ofReports reports).peers = reports.filter fun peer => peer.tokens ≠ [] := by
  induction reports using List.reverseRecOn with
  | nil => rfl
  | append_singleton reports peer ih =>
      rw [List.map_append, List.map_singleton, List.nodup_append] at haddresses
      have hreported := ih haddresses.1
      rw [peers_ofReports_concat, Peer.reported, List.filter_append, ← hreported]
      by_cases htokens : peer.tokens = []
      · simp [htokens]
      · have hnew : peer.address ∉ (ofReports reports).peers.map Peer.address := by
          rw [hreported]
          intro hknown
          have hold := (List.filter_sublist.map Peer.address).subset hknown
          exact haddresses.2.2 _ hold _ List.mem_cons_self rfl
        simp [htokens, hnew]

/-- Where every peer is reported once and with tokens, the members are the peers reported. -/
theorem peers_ofReports {reports : List Peer} (haddresses : (reports.map Peer.address).Nodup)
    (htokens : ∀ peer ∈ reports, peer.tokens ≠ []) : (ofReports reports).peers = reports := by
  rw [peers_ofReports_of_nodup haddresses, List.filter_eq_self]
  exact fun peer hpeer => decide_eq_true (htokens peer hpeer)

/-- Peers are reported, each at an address of its own and with tokens, and then one more among
them, which may share tokens with others.  Without the one more, the replicas of a token are
those among the peers that were reported before, in their order, however many are asked for.
The token has the same owner in both views, unless the one more owns it. -/
theorem joining_moves_little {front back : List Peer} {joined : Peer}
    (haddresses : ((front ++ joined :: back).map Peer.address).Nodup)
    (htokens : ∀ peer ∈ front ++ joined :: back, peer.tokens ≠ []) (token : Token) :
    let view := ofReports (front ++ back)
    let grown := ofReports (front ++ joined :: back)
    (∀ count,
      ((grown.replicas token (count + 1)).filter fun peer =>
        peer.address ≠ joined.address).take count = view.replicas token count) ∧
      (grown.primaryReplica token ≠ some joined →
        grown.primaryReplica token = view.primaryReplica token) := by
  intro view grown
  have hgrown : grown.peers = front ++ joined :: back := peers_ofReports haddresses htokens
  have hothers : (front ++ back).Sublist (front ++ joined :: back) :=
    (List.sublist_cons_self joined back).append_left front
  have hpeers : view.peers = front ++ back :=
    peers_ofReports (haddresses.sublist (hothers.map _)) fun peer hpeer =>
      htokens peer (hothers.subset hpeer)
  refine ⟨fun count => ?_, primaryReplica_of_joined hpeers hgrown token⟩
  rw [← replicas_of_joined hpeers hgrown token count]
  congr 1
  apply List.filter_congr
  intro peer hpeer
  have hmember : peer ∈ front ++ joined :: back := hgrown ▸ mem_peers_of_mem_replicas hpeer
  have hjoined : joined ∈ front ++ joined :: back := by simp
  have hsame : peer.address = joined.address ↔ peer = joined :=
    ⟨List.inj_on_of_nodup_map haddresses hmember hjoined, congrArg Peer.address⟩
  simp only [ne_eq, hsame]

/-- A member joins first and shares the token twenty with another one.  It is put before the
other one where that token is met, and does not own the token that comes next. -/
theorem joining_moves_little_of_shared_token : ∃ first second joined : Peer,
    ∃ view grown : ClusterView,
      first.tokens = [⟨20⟩, ⟨30⟩] ∧ second.tokens = [⟨30⟩] ∧ joined.tokens = [⟨20⟩] ∧
      view = ofReports [first, second] ∧ grown = ofReports [joined, first, second] ∧
      grown.replicas ⟨11⟩ 2 = [joined, first] ∧ view.replicas ⟨11⟩ 1 = [first] ∧
      grown.primaryReplica ⟨21⟩ = some first ∧ view.primaryReplica ⟨21⟩ = some first := by
  let first : Peer := ⟨.ofQuad 10 0 0 1, "dc1", "r1", [⟨20⟩, ⟨30⟩]⟩
  let second : Peer := ⟨.ofQuad 10 0 0 2, "dc1", "r1", [⟨30⟩]⟩
  let joined : Peer := ⟨.ofQuad 10 0 0 3, "dc1", "r1", [⟨20⟩]⟩
  have hjoin := @joining_moves_little [] [first, second] joined (by decide) (by decide)
  rw [List.nil_append, List.nil_append] at hjoin
  have hring : (ofReports [joined, first, second]).ring =
      RingEntry.ofPeers (ofReports [joined, first, second]).peers :=
    List.mergeSort_of_pairwise (by decide)
  have hgrown : (ofReports [joined, first, second]).replicas ⟨11⟩ 2 = [joined, first] := by
    rw [replicas, walk, hring]
    decide
  have howner : (ofReports [joined, first, second]).primaryReplica ⟨21⟩ = some first := by
    rw [primaryReplica, walk, hring]
    decide
  have hkept := (hjoin ⟨11⟩).1 1
  have hstays := (hjoin ⟨21⟩).2 (by rw [howner]; decide)
  rw [hgrown] at hkept
  exact ⟨first, second, joined, _, _, rfl, rfl, rfl, rfl, rfl, hgrown, hkept.symm, howner,
    hstays.symm.trans howner⟩

end ClusterView
end RingRouting
