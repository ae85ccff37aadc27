import RingRouting.Proofs.Cluster.Soundness
import RingRouting.Proofs.Planning.Ranking
import RingRouting.Proofs.Planning.Walk

/-!
# What plans say

A plan fails for one reason each: the key has no encoding, the encoding has no token, the
token has no replicas, or the strategy cannot be built.  With the library's policies the
last reason never occurs, for the strategy was tried out when the cluster was built.  A
plan that succeeds names the replicas of the token, ranked where a snitch and an address
to measure from are configured, and its strategy chooses among exactly these.

Main results:

- Theorem `Cluster.planned`: the outcomes of planning.
- Theorem `Partitioner.hash_eq_none_iff`: which octets have no token.
- Theorem `History.plans_keep_promises`: plans of a cluster with the library's policies, for every
  view that it can come to hold.
-/

namespace RingRouting

/-! ## Tokens -/

/-- Only a hasher that takes octets as they stand can be left waiting for more. -/
theorem Hasher.of_finish_eq_none {hasher : Hasher} (h : hasher.finish = none) :
    ∃ received, hasher = .cdc (.feeding received) := by
  cases hasher with
  | murmur3 => cases h
  | random => cases h
  | cdc state =>
      cases state with
      | feeding received => exact ⟨received, rfl⟩
      | computed => cases h

/-- Only the partitioner that takes octets as they stand gives no token, and only to fewer
than eight octets. -/
theorem Partitioner.hash_eq_none_iff (partitioner : Partitioner) (octets : List UInt8) :
    partitioner.hash octets = none ↔ partitioner = .cdc ∧ octets.length < 8 := by
  cases partitioner with
  | murmur3 =>
      constructor
      · intro h
        rcases Hasher.of_finish_eq_none h with ⟨received, hfed⟩
        simp only [hasher, Hasher.write] at hfed
        split at hfed <;> cases hfed
      · rintro ⟨h, -⟩
        cases h
  | random =>
      constructor
      · intro h
        rcases Hasher.of_finish_eq_none h with ⟨received, hfed⟩
        cases hfed
      · rintro ⟨h, -⟩
        cases h
  | cdc =>
      simp only [hash, hasher, Hasher.write, VerbatimHasher.write, VerbatimHasher.tokenSize,
        List.nil_append, List.length_nil, List.length_take, Nat.sub_zero, true_and]
      by_cases hshort : octets.length < 8
      · have hmin : ¬ min 8 octets.length = 8 := by omega
        rw [if_neg hmin]
        simp [Hasher.finish, VerbatimHasher.finish, hshort]
      · have hmin : min 8 octets.length = 8 := by omega
        rw [if_pos hmin]
        simp [Hasher.finish, VerbatimHasher.finish, hshort]

namespace Cluster

/-! ## Outcomes of planning -/

/-- The outcomes of planning, each with its cause. -/
inductive Planned (cluster : Cluster) (key : PartitionKey) :
    Except RouteError Plan → Prop where
  /-- The key has no encoding. -/
  | key {e : KeyError} (hencode : key.encode = .error e) :
      Planned cluster key (.error (.key e))
  /-- The encoding has no token. -/
  | noToken {octets : List UInt8} (hencode : key.encode = .ok octets)
      (hhash : cluster.partitioner.hash octets = none) :
      Planned cluster key (.error .noToken)
  /-- The token has no replicas. -/
  | noReplicas {token : Token} (htoken : cluster.token key = .ok token)
      (hnone : cluster.replicas token = []) :
      Planned cluster key (.error (.noReplicas token))
  /-- The strategy cannot be built. -/
  | configuration {token : Token} {e : ConfigurationError}
      (htoken : cluster.token key = .ok token) (hsome : cluster.replicas token ≠ [])
      (hstrategy : (cluster.buildStrategy cluster.topology.snitch
        (cluster.rank (cluster.replicas token))).1 = .error e) :
      Planned cluster key (.error (.configuration e))
  /-- There is a plan. -/
  | planned {token : Token} {strategy : Strategy} (htoken : cluster.token key = .ok token)
      (hsome : cluster.replicas token ≠ [])
      (hstrategy : (cluster.buildStrategy cluster.topology.snitch
        (cluster.rank (cluster.replicas token))).1 = .ok strategy) :
      Planned cluster key (.ok ⟨token, cluster.rank (cluster.replicas token), strategy⟩)

/-- The token of a key, or why it has none. -/
theorem token_cases (cluster : Cluster) (key : PartitionKey) :
    (∃ e, key.encode = .error e ∧ cluster.token key = .error (.key e)) ∨
      ∃ octets, key.encode = .ok octets ∧
        (cluster.partitioner.hash octets = none ∧ cluster.token key = .error .noToken ∨
          ∃ token, cluster.partitioner.hash octets = some token ∧
            cluster.token key = .ok token) := by
  unfold token Partitioner.token
  cases hencode : key.encode with
  | error e => exact .inl ⟨e, rfl, rfl⟩
  | ok octets =>
      right
      refine ⟨octets, rfl, ?_⟩
      cases hhash : cluster.partitioner.hash octets with
      | none =>
          left
          simp [Except.map, hhash]
      | some token =>
          right
          simp [Except.map, hhash]

/-- A token belongs to an encoding. -/
theorem token_eq_ok {cluster : Cluster} {key : PartitionKey} {token : Token}
    (h : cluster.token key = .ok token) :
    ∃ octets, key.encode = .ok octets ∧ cluster.partitioner.hash octets = some token := by
  rcases cluster.token_cases key with
    ⟨e, -, htoken⟩ | ⟨octets, hencode, ⟨-, htoken⟩ | ⟨found, hhash, htoken⟩⟩
  · rw [h] at htoken
    cases htoken
  · rw [h] at htoken
    cases htoken
  · rw [h] at htoken
    cases htoken
    exact ⟨octets, hencode, hhash⟩

theorem planned (cluster : Cluster) (key : PartitionKey) :
    Planned cluster key (cluster.plan key).1 := by
  rcases cluster.token_cases key with
    ⟨e, hencode, htoken⟩ | ⟨octets, hencode, ⟨hhash, htoken⟩ | ⟨token, hhash, htoken⟩⟩
  · simp only [plan, htoken]
    exact .key hencode
  · simp only [plan, htoken]
    exact .noToken hencode hhash
  · simp only [plan, htoken]
    split
    · rename_i hempty
      exact .noReplicas htoken (List.isEmpty_iff.1 hempty)
    · rename_i hempty
      have hsome : cluster.replicas token ≠ [] := fun hnil => hempty (List.isEmpty_iff.2 hnil)
      split
      · rename_i e after hstrategy
        exact .configuration htoken hsome (congrArg Prod.fst hstrategy)
      · rename_i strategy after hstrategy
        exact .planned htoken hsome (congrArg Prod.fst hstrategy)

/-- There are replicas of a token unless the view has no members. -/
theorem replicas_eq_nil_iff (cluster : Cluster) (token : Token) :
    cluster.replicas token = [] ↔ cluster.topology.view.peers = [] := by
  rw [replicas, List.map_eq_nil_iff]
  exact ClusterView.replicas_eq_nil_iff cluster.replicationFactor.count_pos

/-- Planning fails with the error of the encoding exactly where there is one. -/
theorem plan_eq_key_iff (cluster : Cluster) (key : PartitionKey) (e : KeyError) :
    (cluster.plan key).1 = .error (.key e) ↔ key.encode = .error e := by
  have hplanned := cluster.planned key
  constructor
  · intro h
    rw [h] at hplanned
    cases hplanned with
    | key hencode => exact hencode
  · intro h
    have hno : ∀ token, cluster.token key ≠ .ok token := by
      intro token htoken
      rcases token_eq_ok htoken with ⟨octets, hencode, -⟩
      rw [h] at hencode
      cases hencode
    generalize (cluster.plan key).1 = result at hplanned
    cases hplanned with
    | key hencode =>
        rw [h] at hencode
        cases hencode
        rfl
    | noToken hencode =>
        rw [h] at hencode
        cases hencode
    | noReplicas htoken => exact absurd htoken (hno _)
    | configuration htoken => exact absurd htoken (hno _)
    | planned htoken => exact absurd htoken (hno _)

/-- Planning finds no token exactly for an encoding that is too short to be taken as it
stands. -/
theorem plan_eq_noToken_iff (cluster : Cluster) (key : PartitionKey) :
    (cluster.plan key).1 = .error .noToken ↔
      ∃ octets, key.encode = .ok octets ∧ cluster.partitioner = .cdc ∧ octets.length < 8 := by
  have hplanned := cluster.planned key
  constructor
  · intro h
    rw [h] at hplanned
    cases hplanned with
    | noToken hencode hhash =>
        exact ⟨_, hencode, (Partitioner.hash_eq_none_iff _ _).1 hhash⟩
  · rintro ⟨octets, h, hshort⟩
    have hnone := (Partitioner.hash_eq_none_iff _ _).2 hshort
    have hno : ∀ token, cluster.token key ≠ .ok token := by
      intro token htoken
      rcases token_eq_ok htoken with ⟨other, hencode, hhash⟩
      rw [h] at hencode
      cases hencode
      rw [hnone] at hhash
      cases hhash
    generalize (cluster.plan key).1 = result at hplanned
    cases hplanned with
    | key hencode =>
        rw [h] at hencode
        cases hencode
    | noToken => rfl
    | noReplicas htoken => exact absurd htoken (hno _)
    | configuration htoken => exact absurd htoken (hno _)
    | planned htoken => exact absurd htoken (hno _)

/-- Planning finds no replicas exactly where there is a token and the view is empty. -/
theorem plan_eq_noReplicas_iff (cluster : Cluster) (key : PartitionKey) (token : Token) :
    (cluster.plan key).1 = .error (.noReplicas token) ↔
      cluster.token key = .ok token ∧ cluster.topology.view.peers = [] := by
  rw [← cluster.replicas_eq_nil_iff token]
  constructor
  · intro h
    have hplanned := cluster.planned key
    rw [h] at hplanned
    cases hplanned with
    | noReplicas htoken hnone => exact ⟨htoken, hnone⟩
  · rintro ⟨htoken, hnone⟩
    simp [plan, htoken, hnone]

/-- Where strategies can be built, planning succeeds exactly for a token over a view that
is not empty. -/
theorem plan_ok_iff {cluster : Cluster}
    (hstrategies : ∀ ranked, ∃ strategy,
      (cluster.buildStrategy cluster.topology.snitch ranked).1 = .ok strategy)
    (key : PartitionKey) :
    (∃ plan, (cluster.plan key).1 = .ok plan) ↔
      (∃ token, cluster.token key = .ok token) ∧ cluster.topology.view.peers ≠ [] := by
  constructor
  · rintro ⟨plan, h⟩
    have hplanned := cluster.planned key
    rw [h] at hplanned
    cases hplanned with
    | planned htoken hsome =>
        exact ⟨⟨_, htoken⟩, fun hnil => hsome ((cluster.replicas_eq_nil_iff _).2 hnil)⟩
  · rintro ⟨⟨token, htoken⟩, hmembers⟩
    have hsome : cluster.replicas token ≠ [] :=
      fun hnil => hmembers ((cluster.replicas_eq_nil_iff token).1 hnil)
    rcases hstrategies (cluster.rank (cluster.replicas token)) with ⟨strategy, hstrategy⟩
    have hplanned := cluster.planned key
    generalize (cluster.plan key).1 = result at hplanned
    cases hplanned with
    | planned => exact ⟨_, rfl⟩
    | key hencode =>
        rcases token_eq_ok htoken with ⟨octets, hok, -⟩
        rw [hencode] at hok
        cases hok
    | noToken hencode hhash =>
        rcases token_eq_ok htoken with ⟨octets, hok, hsomeToken⟩
        rw [hencode] at hok
        cases hok
        rw [hhash] at hsomeToken
        cases hsomeToken
    | noReplicas hother hnone =>
        rw [htoken] at hother
        cases hother
        exact absurd hnone hsome
    | configuration hother _ hfailed =>
        rw [htoken] at hother
        cases hother
        rw [hstrategy] at hfailed
        cases hfailed

/-! ## Replicas of a plan -/

/-- Ranking is a permutation. -/
theorem rank_perm (cluster : Cluster) (replicas : List Address) :
    (cluster.rank replicas).Perm replicas := by
  unfold rank
  split
  · exact Snitch.sortedByProximity_perm _ _ _
  · exact List.Perm.refl _

/-- The strategy, if there is one, is one of the library's. -/
def HasLibraryStrategy (cluster : Cluster) : Prop :=
  ∀ factory, cluster.strategyFactory = some factory → Activator.LibraryStrategy factory

/-- How strategies are built is a matter of the settings. -/
theorem HasLibraryStrategy.congr {cluster after : Cluster} (h : cluster.HasLibraryStrategy)
    (hsettings : after.settings = cluster.settings) : after.HasLibraryStrategy := by
  have hfactory : after.strategyFactory = cluster.strategyFactory :=
    congrArg Settings.strategyFactory hsettings
  unfold HasLibraryStrategy
  rw [hfactory]
  exact h

/-- A strategy of the library chooses among exactly the candidates. -/
theorem HasLibraryStrategy.snapshot_perm {cluster : Cluster} (h : cluster.HasLibraryStrategy)
    {snitch : Option Snitch} {ranked : List Address} {strategy : Strategy}
    (hbuilt : (cluster.buildStrategy snitch ranked).1 = .ok strategy) :
    strategy.snapshot.Perm ranked := by
  cases hfactory : cluster.strategyFactory with
  | none =>
      rw [buildStrategy_of_none hfactory] at hbuilt
      cases hbuilt
      exact List.Perm.refl _
  | some factory =>
      rcases buildStrategy_of_some hfactory snitch ranked with ⟨seeds, hpair⟩
      rw [hpair] at hbuilt
      exact Activator.snapshot_perm (h factory hfactory) hbuilt

/-- What a plan says about its replicas and its strategy. -/
theorem plan_eq_ok {cluster : Cluster} (hlibrary : cluster.HasLibraryStrategy)
    {key : PartitionKey} {plan : Plan} (hplan : (cluster.plan key).1 = .ok plan) :
    cluster.token key = .ok plan.token ∧
      plan.replicas = cluster.rank (cluster.replicas plan.token) ∧ plan.replicas ≠ [] ∧
      plan.strategy.snapshot.Perm plan.replicas := by
  have hplanned := cluster.planned key
  rw [hplan] at hplanned
  cases hplanned with
  | @planned token strategy htoken hsome hstrategy =>
      refine ⟨htoken, rfl, ?_, hlibrary.snapshot_perm hstrategy⟩
      intro hnil
      have hperm := cluster.rank_perm (cluster.replicas token)
      simp only at hnil
      rw [hnil] at hperm
      exact hsome hperm.symm.eq_nil

/-- A pick is one of the replicas of the key's token. -/
theorem Chooses.replica {cluster : Cluster} (hlibrary : cluster.HasLibraryStrategy)
    {key : PartitionKey} {endpoint : Address} (h : cluster.Chooses key endpoint) :
    ∃ token, cluster.token key = .ok token ∧ endpoint ∈ cluster.replicas token := by
  rcases h with ⟨plan, hplan, hpick⟩
  rcases plan_eq_ok hlibrary hplan with ⟨htoken, hreplicas, hsome, hsnapshot⟩
  have hnonempty : plan.strategy.snapshot ≠ [] := by
    intro hnil
    rw [hnil] at hsnapshot
    exact hsome hsnapshot.symm.eq_nil
  rcases Strategy.pick_mem hnonempty with ⟨picked, hmem, hpicked⟩
  have hsame : plan.pick.1 = .ok picked := by
    simp [Plan.pick, hpicked, Except.mapError]
  rw [hpick] at hsame
  cases hsame
  refine ⟨plan.token, htoken, ?_⟩
  rw [← (cluster.rank_perm _).mem_iff, ← hreplicas]
  exact hsnapshot.mem_iff.1 hmem

end Cluster

/-! ## Plans that are asked -/

namespace Plan

/-- The plan after some picks and fallbacks, in any order. -/
inductive Reached (plan : Plan) : Plan → Prop where
  | refl : Reached plan plan
  | pick {later : Plan} (h : Reached plan later) : Reached plan later.pick.2
  | fallback {later : Plan} (h : Reached plan later) : Reached plan later.fallback.2

/-- Asking a plan changes neither its replicas nor its snapshot. -/
theorem Reached.same {plan later : Plan} (h : Reached plan later) :
    later.replicas = plan.replicas ∧ later.strategy.snapshot = plan.strategy.snapshot := by
  induction h with
  | refl => exact ⟨rfl, rfl⟩
  | pick _ ih =>
      refine ⟨ih.1, ?_⟩
      rw [← ih.2]
      exact Strategy.pick_snapshot _
  | fallback _ ih =>
      refine ⟨ih.1, ?_⟩
      rw [← ih.2]
      exact Strategy.fallback_snapshot _

/-- A plan whose snapshot holds its replicas picks one of them. -/
theorem pick_mem {plan : Plan} (hsome : plan.replicas ≠ [])
    (hsnapshot : plan.strategy.snapshot.Perm plan.replicas) :
    ∃ endpoint ∈ plan.replicas, plan.pick.1 = .ok endpoint := by
  have hnonempty : plan.strategy.snapshot ≠ [] := by
    intro hnil
    rw [hnil] at hsnapshot
    exact hsome hsnapshot.symm.eq_nil
  rcases Strategy.pick_mem hnonempty with ⟨endpoint, hmem, hpick⟩
  refine ⟨endpoint, hsnapshot.mem_iff.1 hmem, ?_⟩
  simp [pick, hpick, Except.mapError]

/-- A plan whose snapshot holds its replicas lays out exactly these. -/
theorem fallback_perm {plan : Plan} (hsnapshot : plan.strategy.snapshot.Perm plan.replicas) :
    plan.fallback.1.Perm plan.replicas :=
  (Strategy.fallback_perm plan.strategy).trans hsnapshot

end Plan

namespace Cluster

/-- The strategy tries its candidates in the order in which they are ranked. -/
def TriesInOrder (cluster : Cluster) : Prop :=
  cluster.strategyFactory = none ∨
    cluster.strategyFactory = some Activator.roundRobinStrategy ∨
    cluster.strategyFactory = some Activator.nearestStrategy

/-- The strategy of a new plan is a rotation or a ranking of the plan's replicas. -/
theorem strategy_of_triesInOrder {cluster : Cluster} (horder : cluster.TriesInOrder)
    {replicas : List Address} {strategy : Strategy}
    (hbuilt : (cluster.buildStrategy cluster.topology.snitch (cluster.rank replicas)).1 =
      .ok strategy) :
    strategy = .rotation (cluster.rank replicas) ∨
      strategy = .nearest (cluster.rank replicas) := by
  rcases horder with hnone | hround | hnearest
  · rw [buildStrategy_of_none hnone] at hbuilt
    cases hbuilt
    exact .inl rfl
  · rcases buildStrategy_of_some hround cluster.topology.snitch (cluster.rank replicas)
      with ⟨seeds, hpair⟩
    rw [hpair] at hbuilt
    cases hbuilt
    exact .inl rfl
  · rcases buildStrategy_of_some hnearest cluster.topology.snitch (cluster.rank replicas)
      with ⟨seeds, hpair⟩
    rw [hpair] at hbuilt
    simp only [Activator.nearestStrategy] at hbuilt
    split at hbuilt
    · cases hbuilt
    · cases hbuilt
    · rename_i snitch origin hsnitch horigin
      cases hbuilt
      right
      have hrank : cluster.rank replicas = snitch.sortedByProximity origin replicas := by
        simp only [rank, hsnitch, horigin]
      rw [hrank, Strategy.byProximity, Snitch.sortedByProximity_idem]

/-- A new plan whose strategy keeps the order lays out its replicas as they are ranked,
and picks the first. -/
theorem plan_inOrder {cluster : Cluster} (horder : cluster.TriesInOrder)
    {key : PartitionKey} {plan : Plan} (hplan : (cluster.plan key).1 = .ok plan) :
    plan.fallback.1 = plan.replicas ∧
      ∃ first rest, plan.replicas = first :: rest ∧ plan.pick.1 = .ok first := by
  have hplanned := cluster.planned key
  rw [hplan] at hplanned
  cases hplanned with
  | @planned token strategy htoken hsome hstrategy =>
      have hperm := cluster.rank_perm (cluster.replicas token)
      cases hranked : cluster.rank (cluster.replicas token) with
      | nil =>
          rw [hranked] at hperm
          exact absurd hperm.symm.eq_nil hsome
      | cons first rest =>
          have hkind := strategy_of_triesInOrder horder hstrategy
          rw [hranked] at hkind
          rcases hkind with rfl | rfl
          · refine ⟨Strategy.fallback_rotation _, first, rest, rfl, ?_⟩
            simp [Plan.pick, Strategy.pick_rotation, Except.mapError]
          · exact ⟨rfl, first, rest, rfl, rfl⟩

/-! ## Ranking by the snitch of the view -/

/-- Without a snitch or without an address to measure from nothing is ranked. -/
theorem rank_of_none {cluster : Cluster} (hbuilt : cluster.SnitchBuilt cluster.topology)
    (hnone : cluster.snitchFactory = none ∨ cluster.origin = none) (replicas : List Address) :
    cluster.rank replicas = replicas := by
  have hsnitches := hbuilt.isSome
  unfold rank
  split
  · rename_i snitch origin hsnitch horigin
    rcases hnone with hnone | hnone
    · rw [hsnitch, hnone] at hsnitches
      cases hsnitches
    · rw [horigin] at hnone
      cases hnone
  · rfl

/-- With both replicas are ranked by the snitch that is built from the view. -/
theorem rank_of_some {cluster : Cluster} (hbuilt : cluster.SnitchBuilt cluster.topology)
    {factory : Factory SnitchArgs Snitch} (hfactory : cluster.snitchFactory = some factory)
    {origin : Address} (horigin : cluster.origin = some origin) :
    ∃ snitch, factory ⟨some cluster.topology.view⟩ = .ok snitch ∧
      ∀ replicas, cluster.rank replicas = snitch.sortedByProximity origin replicas := by
  unfold SnitchBuilt at hbuilt
  rw [hfactory] at hbuilt
  rcases hbuilt with ⟨snitch, hsnitch, hsome⟩
  refine ⟨snitch, hsnitch, ?_⟩
  intro replicas
  simp only [rank, hsome, horigin]

end Cluster

/-! ## Plans of a cluster with the library's policies -/

/-- What the configuration promises about a new plan over a view. -/
structure Plan.Correct (builder : ClusterBuilder) (view : ClusterView) (plan : Plan) :
    Prop where
  /-- Without a snitch or without an address to measure from, replicas are in ring
  order. -/
  inRingOrder : builder.activator.resolveSnitch builder.config.snitch = .ok none ∨
      builder.config.origin = none →
    plan.replicas =
      (view.replicas plan.token builder.config.replicationFactor.count).map Peer.address
  /-- With both they are ranked by the snitch that is built from the view. -/
  ranked : ∀ factory origin,
    builder.activator.resolveSnitch builder.config.snitch = .ok (some factory) →
    builder.config.origin = some origin → ∃ snitch, factory ⟨some view⟩ = .ok snitch ∧
      plan.replicas = snitch.sortedByProximity origin
        ((view.replicas plan.token builder.config.replicationFactor.count).map Peer.address)
  nodup : plan.replicas.Nodup
  length : plan.replicas.length =
    min builder.config.replicationFactor.count view.peers.length
  members : ∀ endpoint ∈ plan.replicas, endpoint ∈ view.addresses
  /-- Whatever the plan was asked before, a pick is a replica, and a fallback lays the
  replicas out. -/
  choices : ∀ later, plan.Reached later →
    (∃ endpoint ∈ plan.replicas, later.pick.1 = .ok endpoint) ∧
      later.fallback.1.Perm plan.replicas
  /-- Strategies that keep the order begin with the first replica. -/
  inOrder : builder.activator.resolveStrategy builder.config.strategy = .ok none ∨
      builder.activator.resolveStrategy builder.config.strategy =
        .ok (some Activator.roundRobinStrategy) ∨
      builder.activator.resolveStrategy builder.config.strategy =
        .ok (some Activator.nearestStrategy) →
    plan.fallback.1 = plan.replicas ∧
      ∃ first rest, plan.replicas = first :: rest ∧ plan.pick.1 = .ok first

namespace Cluster

/-- A plan of a cluster whose settings come from the builder is as promised. -/
theorem correct_of_plan {builder : ClusterBuilder} {cluster : Cluster}
    (hconfigures : builder.Configures cluster.settings)
    (hbuilt : cluster.SnitchBuilt cluster.topology) (hlibrary : cluster.HasLibraryStrategy)
    {key : PartitionKey} {plan : Plan} (hplan : (cluster.plan key).1 = .ok plan) :
    plan.Correct builder cluster.topology.view := by
  rcases plan_eq_ok hlibrary hplan with ⟨-, hreplicas, hsome, hsnapshot⟩
  have hfactor : cluster.replicationFactor = builder.config.replicationFactor :=
    hconfigures.replicationFactor
  have horigin : cluster.origin = builder.config.origin := hconfigures.origin
  have hsnitch : builder.activator.resolveSnitch builder.config.snitch =
      .ok cluster.snitchFactory := hconfigures.snitch
  have hstrategy : builder.activator.resolveStrategy builder.config.strategy =
      .ok cluster.strategyFactory := hconfigures.strategy
  have hring : cluster.replicas plan.token =
      (cluster.topology.view.replicas plan.token
        builder.config.replicationFactor.count).map Peer.address := by
    rw [← hfactor]
    rfl
  have hperm := cluster.rank_perm (cluster.replicas plan.token)
  rw [← hreplicas, hring] at hperm
  refine ⟨?_, ?_, ?_, ?_, ?_, ?_, ?_⟩
  · intro hnone
    rw [hsnitch, ← horigin] at hnone
    rw [hreplicas, hring]
    exact rank_of_none hbuilt (hnone.imp Except.ok.inj id) _
  · intro factory origin hfactory horiginSome
    rw [hsnitch] at hfactory
    rw [← horigin] at horiginSome
    rcases rank_of_some hbuilt (Except.ok.inj hfactory) horiginSome with
      ⟨snitch, hsnitchBuilt, hrank⟩
    exact ⟨snitch, hsnitchBuilt, by rw [hreplicas, hring, hrank]⟩
  · exact hperm.nodup_iff.2 (ClusterView.addresses_replicas_nodup _ _ _)
  · rw [hperm.length_eq, List.length_map, ClusterView.length_replicas]
  · intro endpoint hendpoint
    exact ClusterView.mem_addresses_of_mem_replicas (hperm.mem_iff.1 hendpoint)
  · intro later hlater
    rcases hlater.same with ⟨hsameReplicas, hsameSnapshot⟩
    have hlaterSnapshot : later.strategy.snapshot.Perm later.replicas := by
      rw [hsameReplicas, hsameSnapshot]
      exact hsnapshot
    rw [← hsameReplicas] at hsome ⊢
    exact ⟨Plan.pick_mem hsome hlaterSnapshot, Plan.fallback_perm hlaterSnapshot⟩
  · intro hinOrder
    refine plan_inOrder ?_ hplan
    rw [hstrategy] at hinOrder
    simpa [TriesInOrder] using hinOrder

end Cluster

namespace History

/-- A cluster with the library's policies can build its strategy over any candidates, for
every view that it can come to hold. -/
theorem strategy_always_built {builder : ClusterBuilder} {entropy : Nat → Nat → UInt32}
    {cluster : Cluster} (hactivator : builder.activator = .defaults)
    (hbuild : builder.build entropy = .ok cluster) (events : List Event) :
    let now := ((start cluster).run events).cluster
    builder.Configures now.settings ∧ now.HasLibraryStrategy ∧
      now.SnitchBuilt now.topology ∧ ∀ ranked, ∃ strategy,
        (now.buildStrategy now.topology.snitch ranked).1 = .ok strategy := by
  intro now
  rcases configured_run hbuild events with ⟨hconfigures, hbuilt⟩
  have hunfailing : now.settings.Unfailing := by
    have hsettings : now.settings = cluster.settings := settings_run (start cluster) events
    rw [hsettings]
    exact ClusterBuilder.unfailing_of_build hactivator hbuild
  have hlibrary : now.HasLibraryStrategy := by
    intro factory hfactory
    have hresolved := hconfigures.strategy
    have hsame : now.settings.strategyFactory = some factory := hfactory
    rw [hactivator, hsame] at hresolved
    exact Activator.libraryStrategy_of_resolve hresolved
  exact ⟨hconfigures, hlibrary, hbuilt, hunfailing.buildStrategy hbuilt⟩

/-- Plans of a cluster with the library's policies, for every view that it can come to hold
and every key: planning fails for exactly one reason each, and otherwise gives a plan that
is as the configuration promises. -/
theorem plans_keep_promises {builder : ClusterBuilder} {entropy : Nat → Nat → UInt32}
    {cluster : Cluster} (hactivator : builder.activator = .defaults)
    (hbuild : builder.build entropy = .ok cluster) (events : List Event)
    (key : PartitionKey) :
    let now := ((start cluster).run events).cluster
    (∀ e, (now.plan key).1 = .error (.key e) ↔ key.encode = .error e) ∧
    ((now.plan key).1 = .error .noToken ↔
      ∃ octets, key.encode = .ok octets ∧ now.partitioner = .cdc ∧ octets.length < 8) ∧
    (∀ token, (now.plan key).1 = .error (.noReplicas token) ↔
      now.token key = .ok token ∧ now.topology.view.peers = []) ∧
    ((∃ plan, (now.plan key).1 = .ok plan) ↔
      (∃ token, now.token key = .ok token) ∧ now.topology.view.peers ≠ []) ∧
    ∀ plan, (now.plan key).1 = .ok plan →
      now.token key = .ok plan.token ∧ plan.Correct builder now.topology.view := by
  intro now
  have halways := strategy_always_built hactivator hbuild events
  rcases halways with ⟨hconfigures, hlibrary, hbuilt, hstrategies⟩
  refine ⟨now.plan_eq_key_iff key, now.plan_eq_noToken_iff key,
    now.plan_eq_noReplicas_iff key, Cluster.plan_ok_iff hstrategies key, ?_⟩
  intro plan hplan
  exact ⟨(Cluster.plan_eq_ok hlibrary hplan).1,
    Cluster.correct_of_plan hconfigures hbuilt hlibrary hplan⟩

/-- After a refresh a plan names the one node of the new view. -/
theorem plans_keep_promises_of_one_node : ∃ cluster plan,
    (ClusterBuilder.unnamed [.numbered 1]).build (fun _ _ => 0) = .ok cluster ∧
      (((start cluster).run [.refresh [.numbered 2]]).cluster.plan (.single (.int 1))).1 =
        .ok plan ∧
      plan.replicas.length = 1 ∧
      ∀ endpoint ∈ plan.replicas, endpoint ∈ [(Peer.numbered 2).address] := by
  have hbuild := Eq.refl ((ClusterBuilder.unnamed [.numbered 1]).build fun _ _ => 0)
  have hlaw := plans_keep_promises rfl hbuild [.refresh [.numbered 2]] (.single (.int 1))
  rcases hlaw with ⟨-, -, -, hok, hcorrect⟩
  have hplan := hok.2 ⟨⟨⟨-4069959284402364209⟩, by decide +kernel⟩, by decide +kernel⟩
  rcases hplan with ⟨plan, hplan⟩
  refine ⟨_, plan, hbuild, hplan, ?_, ?_⟩
  · rw [(hcorrect plan hplan).2.length]
    decide +kernel
  · exact (hcorrect plan hplan).2.members

end History
end RingRouting
