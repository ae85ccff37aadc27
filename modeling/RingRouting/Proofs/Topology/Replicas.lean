import RingRouting.Proofs.Topology.Reports
import RingRouting.Proofs.Topology.Ring

/-!
# Replicas of a token

From a token on, the ring is walked once around, and the members met are the replicas, each
once, in the order in which they are met first.  The first of them owns the token: of the
members that claim the next token of the ring, the one that was reported first.

Main results:

- Theorem `ClusterView.primaryReplica_eq_some_iff`: who owns a token.
- Theorem `ClusterView.replicas_follow_ring`: the replicas of every token in every view.
-/

namespace RingRouting

/-! ## First occurrences -/

/-- Each element that is kept is the first one that has not been kept before. -/
theorem getElem?_eraseDups {α : Type} [DecidableEq α] (list : List α) (i : Nat) :
    list.eraseDups[i]? = list.find? fun a => a ∉ list.eraseDups.take i := by
  induction i generalizing list with
  | zero => cases list <;> simp [List.eraseDups_cons]
  | succ i ih =>
      cases list with
      | nil => simp
      | cons a rest =>
          rw [List.eraseDups_cons, List.getElem?_cons_succ, ih, List.find?_filter,
            List.take_succ_cons]
          simp [not_or]

/-- What comes of going along a list and choosing each element that has not been chosen yet,
until there are `count`. -/
structure FirstDistinct {α : Type} [DecidableEq α] (list : List α) (count : Nat)
    (chosen : List α) : Prop where
  length_le : chosen.length ≤ count
  getElem?_eq : ∀ i < count, chosen[i]? = list.find? fun a => a ∉ chosen.take i

theorem firstDistinct_take_eraseDups {α : Type} [DecidableEq α] (list : List α) (count : Nat) :
    FirstDistinct list count (list.eraseDups.take count) where
  length_le := List.length_take_le _ _
  getElem?_eq := by
    intro i hi
    rw [List.getElem?_take_of_lt hi, List.take_take, Nat.min_eq_left (Nat.le_of_lt hi)]
    exact getElem?_eraseDups list i

namespace ClusterView

variable (view : ClusterView)

theorem getElem?_peers_inj (place other : Nat) (peer : Peer)
    (hplace : view.peers[place]? = some peer) (hother : view.peers[other]? = some peer) :
    place = other := by
  have hlt := (List.getElem?_eq_some_iff.1 hplace).1
  have hpeers : view.peers.Nodup := view.addresses_nodup.of_map _
  exact (List.getElem?_inj hlt hpeers).1 (hplace.trans hother.symm)

/-! ## Members met on a walk -/

/-- The members in the order in which a walk meets them first. -/
def met (token : Token) : List Peer :=
  ((view.walk token).filterMap view.owner?).eraseDups

theorem replicas_eq_take (token : Token) (count : Nat) :
    view.replicas token count = (view.met token).take count := by
  have hmet : view.met token =
      view.replicas token (view.places token).length := by
    have hreplicas : view.replicas token (view.places token).length =
        (view.places token).filterMap fun place => view.peers[place]? := by
      rw [replicas, ← places, List.take_length]
    rw [hreplicas, places, ← eraseDups_filterMap view.getElem?_peers_inj, List.filterMap_map]
    rfl
  have hall := view.replicas_eq token (view.places token).length
  rw [← hmet, List.take_length] at hall
  apply (List.map_inj_right fun _ _ h => Option.some.inj h).1
  rw [replicas_eq, List.map_take, List.map_take, hall]

theorem firstDistinct_replicas (token : Token) (count : Nat) :
    FirstDistinct ((view.walk token).filterMap view.owner?) count
      (view.replicas token count) := by
  rw [replicas_eq_take]
  exact firstDistinct_take_eraseDups _ count

theorem replicas_prefix (token : Token) {fewer more : Nat} (h : fewer ≤ more) :
    view.replicas token fewer <+: view.replicas token more := by
  rw [replicas_eq_take, replicas_eq_take]
  exact List.take_prefix_take_left h

theorem mem_ring_of_mem_walk {token : Token} {entry : RingEntry}
    (h : entry ∈ view.walk token) : entry ∈ view.ring :=
  view.ring_perm.mem_iff.2 ((view.walk_perm token).mem_iff.1 h)

theorem head?_replicas (token : Token) {count : Nat} (h : 1 ≤ count) :
    (view.replicas token count).head? = view.primaryReplica token := by
  rw [replicas_eq_take, List.head?_take, if_neg (by omega), met, primaryReplica]
  cases hwalk : view.walk token with
  | nil => rfl
  | cons entry rest =>
      have hmem : entry ∈ view.walk token := by simp [hwalk]
      obtain ⟨peer, hpeer, -⟩ := (view.mem_ring_iff entry).1 (view.mem_ring_of_mem_walk hmem)
      have howner : view.owner? entry = some peer := hpeer
      rw [List.filterMap_cons_some howner, List.eraseDups_cons]
      exact howner.symm

/-! ## The owner of a token -/

/-- Some member claims the token. -/
def Claimed (token : Token) : Prop :=
  ∃ peer ∈ view.peers, token ∈ peer.tokens

/-- The token of the ring that comes next: the least one that is not before the token given,
or, where all are before it, the least one. -/
inductive Next (token : Token) : Token → Prop
  | ahead {next : Token} (claimed : view.Claimed next) (notBefore : token.value ≤ next.value)
      (least : ∀ other, view.Claimed other → token.value ≤ other.value →
        next.value ≤ other.value) : Next token next
  | wrapped {next : Token} (claimed : view.Claimed next)
      (allBefore : ∀ other, view.Claimed other → other.value < token.value)
      (least : ∀ other, view.Claimed other → next.value ≤ other.value) : Next token next

variable {view}

theorem claimed_of_mem_ring {entry : RingEntry} (h : entry ∈ view.ring) :
    view.Claimed entry.token := by
  obtain ⟨peer, hpeer, htoken⟩ := (view.mem_ring_iff entry).1 h
  exact ⟨peer, List.mem_of_getElem? hpeer, htoken⟩

theorem Claimed.exists_mem_ring {token : Token} (h : view.Claimed token) :
    ∃ entry ∈ view.ring, entry.token = token := by
  obtain ⟨peer, hpeer, htoken⟩ := h
  obtain ⟨place, hplace⟩ := List.mem_iff_getElem?.1 hpeer
  exact ⟨⟨token, place⟩, (view.mem_ring_iff _).2 ⟨peer, hplace, htoken⟩, rfl⟩

theorem Next.claimed {token next : Token} (h : view.Next token next) : view.Claimed next := by
  cases h with
  | ahead claimed | wrapped claimed => exact claimed

theorem Next.unique {token next other : Token} (h : view.Next token next)
    (hother : view.Next token other) : next = other := by
  apply Token.eq_of_value_eq
  cases h with
  | ahead claimed notBefore least =>
      cases hother with
      | ahead claimed' notBefore' least' =>
          exact Int.le_antisymm (least other claimed' notBefore')
            (least' next claimed notBefore)
      | wrapped claimed' allBefore' least' =>
          have hlt := allBefore' next claimed
          omega
  | wrapped claimed allBefore least =>
      cases hother with
      | ahead claimed' notBefore' least' =>
          have hlt := allBefore other claimed'
          omega
      | wrapped claimed' allBefore' least' =>
          exact Int.le_antisymm (least other claimed') (least' next claimed)

/-- Where no position of the same token has an earlier owner, the owner of a position is the
first member that claims its token. -/
theorem find?_claimant {entry : RingEntry} (hentry : entry ∈ view.ring)
    (hfirst : ∀ other ∈ view.ring, other.token = entry.token → entry.owner ≤ other.owner) :
    view.peers.find? (fun peer => entry.token ∈ peer.tokens) = view.owner? entry := by
  obtain ⟨peer, hpeer, htoken⟩ := (view.mem_ring_iff entry).1 hentry
  obtain ⟨hlt, hget⟩ := List.getElem?_eq_some_iff.1 hpeer
  have howner : view.owner? entry = some peer := hpeer
  rw [howner, List.find?_eq_some_iff_getElem]
  refine ⟨decide_eq_true htoken, entry.owner, hlt, hget, ?_⟩
  intro place hplace
  simp only [Bool.not_eq_true', decide_eq_false_iff_not]
  intro hclaim
  have hplaceLt : place < view.peers.length := Nat.lt_trans hplace hlt
  have hother : (⟨entry.token, place⟩ : RingEntry) ∈ view.ring :=
    (view.mem_ring_iff _).2 ⟨_, List.getElem?_eq_getElem hplaceLt, hclaim⟩
  exact Nat.not_le_of_lt hplace (hfirst _ hother rfl)

/-- Of the positions picked from the ring the first precedes all others. -/
theorem head_filter {p : RingEntry → Bool} {first : RingEntry} {rest : List RingEntry}
    (h : view.ring.filter p = first :: rest) :
    first ∈ view.ring ∧ p first = true ∧
      ∀ other ∈ view.ring, p other = true → first.InOrder other := by
  have hfirst : first ∈ view.ring.filter p := by
    rw [h]
    exact List.mem_cons_self
  have hsorted := view.ring_inOrder.filter p
  rw [h] at hsorted
  refine ⟨(List.mem_filter.1 hfirst).1, (List.mem_filter.1 hfirst).2, fun other hother hp => ?_⟩
  have hpicked : other ∈ first :: rest := h ▸ List.mem_filter.2 ⟨hother, hp⟩
  rcases List.mem_cons.1 hpicked with rfl | hrest
  · exact .inr ⟨rfl, Nat.le_refl _⟩
  · exact List.rel_of_pairwise_cons hsorted hrest

/-- A walk begins with the next token of the ring, in the hands of its first claimant. -/
theorem head_walk {token : Token} {entry : RingEntry} {rest : List RingEntry}
    (h : view.walk token = entry :: rest) :
    view.Next token entry.token ∧
      view.peers.find? (fun peer => entry.token ∈ peer.tokens) = view.owner? entry := by
  rw [walk_eq_filter] at h
  cases hahead : view.ring.filter fun entry => !entry.token.before token with
  | cons first others =>
      rw [hahead, List.cons_append, List.cons.injEq] at h
      obtain ⟨rfl, -⟩ := h
      obtain ⟨hentry, hfirst, hinOrder⟩ := head_filter hahead
      simp only [Token.not_before, decide_eq_true_eq] at hfirst hinOrder
      constructor
      · refine .ahead (claimed_of_mem_ring hentry) hfirst fun other hother hle => ?_
        obtain ⟨position, hposition, rfl⟩ := hother.exists_mem_ring
        exact (hinOrder position hposition hle).token_le
      · refine find?_claimant hentry fun other hother hsame => ?_
        exact (hinOrder other hother (hsame ▸ hfirst)).owner_le hsame
  | nil =>
      rw [hahead, List.nil_append] at h
      obtain ⟨hentry, -, hinOrder⟩ := head_filter h
      simp only [List.filter_eq_nil_iff, Token.not_before, decide_eq_true_eq,
        Int.not_le] at hahead
      have hprecedes : ∀ other ∈ view.ring, entry.InOrder other := fun other hother =>
        hinOrder other hother (decide_eq_true (hahead other hother))
      constructor
      · refine .wrapped (claimed_of_mem_ring hentry) (fun other hother => ?_)
          fun other hother => ?_
        · obtain ⟨position, hposition, rfl⟩ := hother.exists_mem_ring
          exact hahead position hposition
        · obtain ⟨position, hposition, rfl⟩ := hother.exists_mem_ring
          exact (hprecedes position hposition).token_le
      · exact find?_claimant hentry fun other hother hsame =>
          (hprecedes other hother).owner_le hsame

/-- The owner of a token is the first of the members that claim the next token of the ring. -/
theorem primaryReplica_eq_some_iff (token : Token) (peer : Peer) :
    view.primaryReplica token = some peer ↔
      ∃ next, view.Next token next ∧
        view.peers.find? (fun peer => next ∈ peer.tokens) = some peer := by
  rw [primaryReplica]
  constructor
  · intro howner
    cases hwalk : view.walk token with
    | nil => simp [hwalk] at howner
    | cons entry rest =>
        obtain ⟨hnext, hfind⟩ := head_walk hwalk
        rw [hwalk] at howner
        exact ⟨entry.token, hnext, hfind.trans howner⟩
  · rintro ⟨next, hnext, hfind⟩
    cases hwalk : view.walk token with
    | nil =>
        obtain ⟨entry, hentry, -⟩ := hnext.claimed.exists_mem_ring
        have hmem := (view.walk_perm token).mem_iff.2 (view.ring_perm.mem_iff.1 hentry)
        rw [hwalk] at hmem
        exact absurd hmem List.not_mem_nil
    | cons entry rest =>
        obtain ⟨hnext', hfind'⟩ := head_walk hwalk
        obtain rfl := hnext.unique hnext'
        exact hfind'.symm.trans hfind

/-- Where no token is claimed in between, two tokens have the same replicas. -/
theorem replicas_congr {first second : Token} (hle : first.value ≤ second.value)
    (hnone : ∀ token, view.Claimed token →
      token.value < first.value ∨ second.value ≤ token.value) (count : Nat) :
    view.replicas first count = view.replicas second count := by
  have hbefore : ∀ entry ∈ view.ring,
      entry.token.before first = entry.token.before second := by
    intro entry hentry
    have hcases := hnone entry.token (claimed_of_mem_ring hentry)
    simp only [Token.before, decide_eq_decide]
    omega
  have hwalk : view.walk first = view.walk second := by
    rw [walk_eq_filter, walk_eq_filter, List.filter_congr hbefore,
      List.filter_congr fun entry hentry => congrArg not (hbefore entry hentry)]
  simp only [replicas, hwalk]

/-! ## Replicas in every view -/

/-- Whatever is reported: members are listed in the order of their first report, and the ring
holds their tokens in order.  The replicas of a token are the first distinct members on the
ring turned to the first position not before the token, as many as asked for or all; more
replicas only continue fewer.  The first replica owns the token: it is the first reported of
the members that claim the next token of the ring.  Tokens with no claimed token between
them have the same replicas. -/
theorem replicas_follow_ring (reports : List Peer) (token : Token) :
    let view := ofReports reports
    let turned :=
      view.ring.rotate (view.ring.findIdx fun entry => token.value ≤ entry.token.value)
    view.addresses =
        ((reports.filter fun peer => peer.tokens ≠ []).map Peer.address).eraseDups ∧
      view.ring.Pairwise RingEntry.InOrder ∧
      (∀ entry, entry ∈ view.ring ↔
        ∃ peer, view.peers[entry.owner]? = some peer ∧ entry.token ∈ peer.tokens) ∧
      (∀ count,
        FirstDistinct (turned.filterMap fun entry => view.peers[entry.owner]?) count
            (view.replicas token count) ∧
          (view.replicas token count).length = min count view.peers.length ∧
          ((view.replicas token count).map Peer.address).Nodup) ∧
      (∀ fewer more, fewer ≤ more →
        view.replicas token fewer <+: view.replicas token more) ∧
      (∀ count, 1 ≤ count →
        (view.replicas token count).head? = view.primaryReplica token) ∧
      (∀ peer, view.primaryReplica token = some peer ↔
        ∃ next, view.Next token next ∧
          view.peers.find? (fun peer => next ∈ peer.tokens) = some peer) ∧
      ∀ other, token.value ≤ other.value →
        (∀ claimed, view.Claimed claimed →
          claimed.value < token.value ∨ other.value ≤ claimed.value) →
        ∀ count, view.replicas token count = view.replicas other count := by
  intro view turned
  have hwalk : view.walk token = turned := view.walk_eq_rotate token
  refine ⟨addresses_ofReports reports, view.ring_inOrder, view.mem_ring_iff, ?_, ?_, ?_, ?_, ?_⟩
  · intro count
    refine ⟨?_, view.length_replicas token count, view.addresses_replicas_nodup token count⟩
    rw [← hwalk]
    exact view.firstDistinct_replicas token count
  · exact fun fewer more hle => view.replicas_prefix token hle
  · exact fun count hpos => view.head?_replicas token hpos
  · exact primaryReplica_eq_some_iff token
  · exact fun other hle hnone => replicas_congr hle hnone

/-- Two members claim one token, the first of them twice; the second was first reported without
tokens. -/
theorem replicas_follow_ring_of_shared_token : ∃ first second : Peer, ∃ view : ClusterView,
    view = ofReports [{ second with tokens := [] }, first, second] ∧
      first.tokens = [⟨30⟩, ⟨10⟩, ⟨30⟩] ∧ second.tokens = [⟨30⟩] ∧
      view.addresses = [first.address, second.address] ∧
      view.primaryReplica ⟨11⟩ = some first ∧
      (view.replicas ⟨11⟩ 2).head? = some first ∧
      view.replicas ⟨11⟩ 1 <+: view.replicas ⟨11⟩ 2 ∧
      (view.replicas ⟨11⟩ 2).length = 2 ∧
      view.replicas ⟨11⟩ 2 = view.replicas ⟨30⟩ 2 := by
  let first : Peer := ⟨.ofQuad 10 0 0 1, "dc1", "r1", [⟨30⟩, ⟨10⟩, ⟨30⟩]⟩
  let second : Peer := ⟨.ofQuad 10 0 0 2, "dc1", "r1", [⟨30⟩]⟩
  let reports : List Peer := [{ second with tokens := [] }, first, second]
  have hpeers : (ofReports reports).peers = [first, second] := by decide
  have hclaimed : ∀ token, (ofReports reports).Claimed token → token = ⟨10⟩ ∨ token = ⟨30⟩ := by
    rintro token ⟨peer, hpeer, htoken⟩
    simp only [hpeers, List.mem_cons, List.not_mem_nil, or_false] at hpeer
    rcases hpeer with rfl | rfl <;> simp [first, second] at htoken <;> tauto
  have hshared : (ofReports reports).Next ⟨11⟩ ⟨30⟩ := by
    refine .ahead ⟨first, by simp [hpeers], by decide⟩ (by decide) ?_
    intro token htoken hle
    rcases hclaimed token htoken with rfl | rfl
    · exact absurd hle (by decide)
    · exact Int.le_refl _
  obtain ⟨hreported, -, -, hchosen, hprefix, hhead, howner, hsame⟩ :=
    replicas_follow_ring reports ⟨11⟩
  have hfirst : (ofReports reports).primaryReplica ⟨11⟩ = some first :=
    (howner first).2 ⟨⟨30⟩, hshared, by rw [hpeers]; decide⟩
  refine ⟨first, second, _, rfl, rfl, rfl, ?_, hfirst, (hhead 2 (by decide)).trans hfirst,
    hprefix 1 2 (by decide), ?_, ?_⟩
  · exact hreported.trans (by decide)
  · rw [(hchosen 2).2.1, hpeers]
    rfl
  · refine hsame ⟨30⟩ (by decide) (fun token htoken => ?_) 2
    rcases hclaimed token htoken with rfl | rfl <;> simp

end ClusterView
end RingRouting
