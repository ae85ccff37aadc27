import Mathlib.Data.List.Rotate
import RingRouting.Proofs.Planning.Walk
import RingRouting.Proofs.Sorting

/-!
# The order of the ring

The ring holds every token of every member beside the place of its owner, the lesser token
first and, among equal tokens, the earlier member first.  A walk from a token is the ring
turned: first the positions not before the token, then those before it.

Main results:

- Theorem `ClusterView.mem_ring_iff`: the positions are the tokens of the members.
- Theorem `ClusterView.ring_inOrder`: the order of the positions.
- Theorem `ClusterView.walk_eq_filter`: the two parts of a walk.
- Theorem `ClusterView.walk_eq_rotate`: a walk is the ring turned.
-/

namespace RingRouting

/-- Whether one position of the ring may precede another: its token is the lesser one, or
the tokens are equal and its owner is listed no later. -/
def RingEntry.InOrder (a b : RingEntry) : Prop :=
  a.token.value < b.token.value ∨ (a.token = b.token ∧ a.owner ≤ b.owner)

namespace RingEntry

variable {a b : RingEntry}

theorem InOrder.token_le (h : a.InOrder b) : a.token.value ≤ b.token.value := by
  rcases h with hlt | ⟨heq, -⟩
  · exact Int.le_of_lt hlt
  · exact Int.le_of_eq (congrArg Token.value heq)

theorem InOrder.owner_le (h : a.InOrder b) (hsame : b.token = a.token) :
    a.owner ≤ b.owner := by
  rcases h with hlt | ⟨-, hle⟩
  · rw [hsame] at hlt
    exact absurd hlt (Int.lt_irrefl _)
  · exact hle

/-! ## Positions of peers -/

theorem mem_ofPeers_iff {peers : List Peer} {entry : RingEntry} :
    entry ∈ ofPeers peers ↔
      ∃ peer, peers[entry.owner]? = some peer ∧ entry.token ∈ peer.tokens := by
  simp only [ofPeers, List.mem_flatMap, List.mem_map]
  constructor
  · rintro ⟨⟨peer, place⟩, hindexed, token, htoken, rfl⟩
    exact ⟨peer, List.mem_zipIdx_iff_getElem?.1 hindexed, htoken⟩
  · rintro ⟨peer, hpeer, htoken⟩
    exact ⟨(peer, entry.owner), List.mem_zipIdx_iff_getElem?.2 hpeer, entry.token, htoken, rfl⟩

/-- Before they are sorted, positions are listed member by member. -/
theorem ofPeers_pairwise_owner (peers : List Peer) :
    (ofPeers peers).Pairwise fun a b => a.owner ≤ b.owner := by
  rw [ofPeers, List.pairwise_flatMap]
  constructor
  · rintro ⟨_, place⟩ -
    exact List.pairwise_map.2 (List.pairwise_of_forall fun _ _ => Nat.le_refl place)
  · have hplaces : (peers.zipIdx.map Prod.snd).Pairwise (· < ·) := by
      rw [List.zipIdx_map_snd]
      exact List.pairwise_lt_range'
    refine (List.pairwise_map.1 hplaces).imp ?_
    rintro ⟨_, first⟩ ⟨_, second⟩ hlt a ha b hb
    obtain ⟨_, -, rfl⟩ := List.mem_map.1 ha
    obtain ⟨_, -, rfl⟩ := List.mem_map.1 hb
    exact Nat.le_of_lt hlt

end RingEntry

namespace Token

theorem eq_of_value_eq {a b : Token} (h : a.value = b.value) : a = b := by
  cases a
  cases b
  exact congrArg Token.mk h

theorem notAfter_trans (a b c : Token) (hab : a.notAfter b) (hbc : b.notAfter c) :
    a.notAfter c := by
  simp only [notAfter, decide_eq_true_eq] at hab hbc ⊢
  omega

theorem notAfter_total (a b : Token) : a.notAfter b || b.notAfter a := by
  simp only [notAfter, Bool.or_eq_true, decide_eq_true_eq]
  omega

theorem not_before (a b : Token) : (!a.before b) = decide (b.value ≤ a.value) := by
  simp only [before, ← decide_not, Int.not_lt]

end Token

namespace ClusterView

variable (view : ClusterView)

/-! ## Positions -/

/-- The ring holds every token of every member beside the place of the member. -/
theorem mem_ring_iff (entry : RingEntry) :
    entry ∈ view.ring ↔
      ∃ peer, view.peers[entry.owner]? = some peer ∧ entry.token ∈ peer.tokens := by
  rw [view.ring_perm.mem_iff, RingEntry.mem_ofPeers_iff]

/-! ## Order -/

theorem ring_pairwise_token :
    view.ring.Pairwise fun a b => a.token.value ≤ b.token.value := by
  have hsorted : view.ring.Pairwise fun a b => a.token.notAfter b.token := by
    rw [ring_eq]
    exact List.pairwise_mergeSort (fun a b c => Token.notAfter_trans a.token b.token c.token)
      (fun a b => Token.notAfter_total a.token b.token) _
  exact hsorted.imp fun hle => of_decide_eq_true hle

/-- Sorting leaves the positions of one token in the order in which they are listed. -/
theorem ring_filter_token (token : Token) :
    view.ring.filter (fun entry => entry.token = token) =
      (RingEntry.ofPeers view.peers).filter fun entry => entry.token = token := by
  rw [ring_eq, RingEntry.sorted,
    filter_mergeSort (fun a b c => Token.notAfter_trans a.token b.token c.token)
      fun a b => Token.notAfter_total a.token b.token]
  apply List.mergeSort_of_pairwise
  rw [List.pairwise_filter]
  refine List.pairwise_of_forall fun a b ha hb => ?_
  rw [decide_eq_true_eq] at ha hb
  simp [ha, hb, Token.notAfter]

/-- The lesser token first; among equal tokens the earlier member first. -/
theorem ring_inOrder : view.ring.Pairwise RingEntry.InOrder := by
  rw [List.pairwise_iff_forall_sublist]
  intro a b hab
  have hle := List.pairwise_iff_forall_sublist.1 view.ring_pairwise_token hab
  by_cases heq : a.token = b.token
  · refine .inr ⟨heq, ?_⟩
    have hpair := hab.filter fun entry => entry.token = b.token
    rw [ring_filter_token, List.filter_eq_self.2 (by simp [heq])] at hpair
    have hlisted := hpair.trans List.filter_sublist
    exact List.pairwise_iff_forall_sublist.1 (RingEntry.ofPeers_pairwise_owner view.peers) hlisted
  · exact .inl (Int.lt_iff_le_and_ne.2 ⟨hle, fun hvalue => heq (Token.eq_of_value_eq hvalue)⟩)

/-! ## The walk -/

/-- In a sorted ring the positions before a token are the first ones. -/
theorem dropWhile_takeWhile_before {ring : List RingEntry}
    (hsorted : ring.Pairwise fun a b => a.token.value ≤ b.token.value) (token : Token) :
    ring.dropWhile (fun entry => entry.token.before token) =
        ring.filter (fun entry => !entry.token.before token) ∧
      ring.takeWhile (fun entry => entry.token.before token) =
        ring.filter fun entry => entry.token.before token := by
  induction ring with
  | nil => exact ⟨rfl, rfl⟩
  | cons entry rest ih =>
      rw [List.pairwise_cons] at hsorted
      obtain ⟨hdrop, htake⟩ := ih hsorted.2
      by_cases hbefore : entry.token.before token = true
      · simp [hbefore, hdrop, htake]
      · -- where one position is not before the token, none after it is
        have hnone : ∀ other ∈ rest, other.token.before token = false := by
          intro other hother
          have hle := hsorted.1 other hother
          simp only [Token.before, decide_eq_true_eq, decide_eq_false_iff_not] at hbefore ⊢
          omega
        have hkept : rest.filter (fun other => !other.token.before token) = rest :=
          List.filter_eq_self.2 fun other hother => by simp [hnone other hother]
        have hempty : rest.filter (fun other => other.token.before token) = [] :=
          List.filter_eq_nil_iff.2 fun other hother => by simp [hnone other hother]
        simp [hbefore, hkept, hempty]

/-- A walk has two parts: the positions not before the token, and those before it. -/
theorem walk_eq_filter (token : Token) :
    view.walk token =
      view.ring.filter (fun entry => !entry.token.before token) ++
        view.ring.filter fun entry => entry.token.before token := by
  obtain ⟨hdrop, htake⟩ := dropWhile_takeWhile_before view.ring_pairwise_token token
  rw [walk, hdrop, htake]

/-- A walk is the ring turned until the first position that is not before the token comes
first; where there is none, the ring as it is. -/
theorem walk_eq_rotate (token : Token) :
    view.walk token =
      view.ring.rotate (view.ring.findIdx fun entry => token.value ≤ entry.token.value) := by
  rw [walk, List.dropWhile_eq_drop_findIdx_not, List.takeWhile_eq_take_findIdx_not]
  simp only [Token.not_before]
  rw [List.rotate_eq_drop_append_take List.findIdx_le_length]

end ClusterView
end RingRouting
