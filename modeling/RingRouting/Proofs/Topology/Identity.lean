import RingRouting.Proofs.Topology.Listing

/-!
# Which descriptions are of one peer

Two descriptions are of the same peer if address, names and tokens are the same, whatever the
order in which the tokens are listed and however often.  This is an equivalence.  A hash takes in
the tokens in order, each once; so it takes in the same items exactly for descriptions of the
same peer.

Main results:

- Theorem `Peer.mem_distinctTokens`, `Peer.pairwise_distinctTokens`: the tokens in order, each
  once.
- Theorem `Peer.distinctTokens_eq_iff`: which lists of tokens are the same.
- Theorem `Peer.same_equivalence`: sameness is an equivalence.
- Theorem `Peer.hashItems_eq_iff`: what a hash takes in tells peers apart.
- Theorem `Peer.same_peers_hash_alike`: sameness, told by sorted tokens, and hashing agree.
-/

namespace RingRouting

/-! ## Tokens in order -/

theorem Token.pairwise_sorted (tokens : List Token) :
    (Token.sorted tokens).Pairwise fun a b => a.value ≤ b.value := by
  have hsorted := List.pairwise_mergeSort Token.notAfter_trans Token.notAfter_total tokens
  exact hsorted.imp of_decide_eq_true

theorem Token.eq_of_value_le {a b : Token} (hab : a.value ≤ b.value) (hba : b.value ≤ a.value) :
    a = b :=
  Token.eq_of_value_eq (Int.le_antisymm hab hba)

namespace Peer

variable {peer other : Peer}

theorem distinctTokens_eq (peer : Peer) :
    peer.distinctTokens = (Token.sorted peer.tokens).eraseDups :=
  eraseReps_eq_eraseDups (fun _ _ => Token.eq_of_value_le) (Token.pairwise_sorted peer.tokens)

/-- Nothing is lost in order. -/
theorem mem_distinctTokens {token : Token} :
    token ∈ peer.distinctTokens ↔ token ∈ peer.tokens := by
  rw [distinctTokens_eq, List.mem_eraseDups, Token.sorted, List.mem_mergeSort]

/-- In order, each token stands once. -/
theorem pairwise_distinctTokens (peer : Peer) :
    peer.distinctTokens.Pairwise fun a b => a.value < b.value := by
  rw [distinctTokens_eq]
  have hle := (Token.pairwise_sorted peer.tokens).sublist (eraseDups_sublist _)
  have hne := nodup_eraseDups (Token.sorted peer.tokens)
  refine hle.imp₂ (fun a b hle hne => ?_) hne
  have hvalue : a.value ≠ b.value := mt Token.eq_of_value_eq hne
  omega

/-- The order of a list and its repetitions do not matter to the tokens in order. -/
theorem distinctTokens_eq_iff :
    peer.distinctTokens = other.distinctTokens ↔
      ∀ token, token ∈ peer.tokens ↔ token ∈ other.tokens := by
  constructor
  · intro h token
    rw [← mem_distinctTokens, h, mem_distinctTokens]
  · intro h
    rw [distinctTokens_eq, distinctTokens_eq]
    apply eraseDups_eq_of_pairwise (fun _ _ => Token.eq_of_value_le)
      (Token.pairwise_sorted _) (Token.pairwise_sorted _)
    simpa only [Token.sorted, List.mem_mergeSort] using h

/-! ## Sameness -/

theorem same_iff_distinctTokens :
    peer.same other = true ↔
      peer.address = other.address ∧ peer.datacenter = other.datacenter ∧
        peer.rack = other.rack ∧ peer.distinctTokens = other.distinctTokens := by
  rw [same_iff, distinctTokens_eq_iff]

/-- Sameness is that of four parts, and so an equivalence. -/
theorem same_equivalence : Equivalence fun peer other : Peer => peer.same other = true where
  refl peer := by simp [same_iff]
  symm h := by
    obtain ⟨haddress, hdatacenter, hrack, htokens⟩ := same_iff_distinctTokens.1 h
    exact same_iff_distinctTokens.2
      ⟨haddress.symm, hdatacenter.symm, hrack.symm, htokens.symm⟩
  trans h h' := by
    obtain ⟨haddress, hdatacenter, hrack, htokens⟩ := same_iff_distinctTokens.1 h
    obtain ⟨haddress', hdatacenter', hrack', htokens'⟩ := same_iff_distinctTokens.1 h'
    exact same_iff_distinctTokens.2 ⟨haddress.trans haddress', hdatacenter.trans hdatacenter',
      hrack.trans hrack', htokens.trans htokens'⟩

/-! ## Hashing -/

/-- A hash takes in the same items where peers are the same, and only there. -/
theorem hashItems_eq_iff : peer.hashItems = other.hashItems ↔ peer.same other = true := by
  have htokens : peer.distinctTokens.map HashItem.token = other.distinctTokens.map HashItem.token ↔
      peer.distinctTokens = other.distinctTokens :=
    List.map_inj_right fun _ _ => HashItem.token.inj
  simp [same_iff_distinctTokens, hashItems, htokens]

/-- Sameness is an equivalence.  Peers are the same if address, names and sorted tokens, each
taken once, are equal; another listing of its tokens leaves a peer the same.  A hash takes in the
same items for the same peers, and for no others, so that whatever it makes of them is equal. -/
theorem same_peers_hash_alike (peer other : Peer) :
    (Equivalence fun peer other : Peer => peer.same other = true) ∧
    (peer.distinctTokens.Pairwise (fun a b => a.value < b.value) ∧
      ∀ token, token ∈ peer.distinctTokens ↔ token ∈ peer.tokens) ∧
    (peer.same other = true ↔
      peer.address = other.address ∧ peer.datacenter = other.datacenter ∧
        peer.rack = other.rack ∧ peer.distinctTokens = other.distinctTokens) ∧
    (∀ tokens, (∀ token, token ∈ tokens ↔ token ∈ peer.tokens) →
      peer.same { peer with tokens := tokens } = true) ∧
    (peer.hashItems = other.hashItems ↔ peer.same other = true) ∧
    (peer.same other = true →
      ∀ (State : Type) (feed : State → HashItem → State) (state : State),
        peer.hashItems.foldl feed state = other.hashItems.foldl feed state) := by
  refine ⟨same_equivalence, ⟨pairwise_distinctTokens peer, fun _ => mem_distinctTokens⟩,
    same_iff_distinctTokens, ?_, hashItems_eq_iff, ?_⟩
  · intro tokens htokens
    exact same_iff.2 ⟨rfl, rfl, rfl, fun token => (htokens token).symm⟩
  · intro hsame State feed state
    rw [hashItems_eq_iff.2 hsame]

end Peer
end RingRouting
