import RingRouting.Proofs.Cluster.Failing
import RingRouting.Proofs.Planning.Names

/-!
# Configurations that are sound

A cluster can be built exactly if its configuration is sound: the library knows every name, and
a strategy that ranks has a snitch and an address to measure from.  The snitch and the strategy
are tried out over the empty view only; still, no policy of a cluster that was built ever
refuses what it is asked for.

Main definitions:

- `Settings.Unfailing`: policies that refuse nothing.
- `ClusterConfig.Sound`: which configurations are sound.

Main results:

- Theorems `Settings.Unfailing.buildTopology`, `Settings.Unfailing.buildStrategy` and
  `Settings.Unfailing.publish`: what never fails where no policy refuses.
- Theorem `ClusterBuilder.build_ok_iff`: the configurations that can be built are the sound ones.
- Theorem `ClusterBuilder.unfailing_of_build`: the policies of a cluster that was built.
-/

namespace RingRouting

/-! ## Policies that refuse nothing -/

/-- No policy refuses what a cluster asks it for: a snitch for a view, a pool for an endpoint,
and a strategy over any candidates, with the snitch and the origin that are configured. -/
structure Settings.Unfailing (settings : Settings) : Prop where
  snitch : ∀ factory, settings.snitchFactory = some factory →
    ∀ view, ∃ snitch, factory ⟨some view⟩ = .ok snitch
  pool : ∀ args, ∃ pool, settings.poolFactory args = .ok pool
  strategy : ∀ factory, settings.strategyFactory = some factory → ∀ args : StrategyArgs,
    args.snitch.isSome = settings.snitchFactory.isSome → args.origin = settings.origin →
      ∃ strategy, factory args = .ok strategy

namespace Settings.Unfailing

variable {cluster : Cluster}

/-- A topology is built for every view. -/
theorem buildTopology (h : cluster.settings.Unfailing) (view : ClusterView) :
    ∃ topology, cluster.buildTopology view = .ok topology := by
  cases hbuild : cluster.buildTopology view with
  | ok topology => exact ⟨topology, rfl⟩
  | error e =>
      obtain ⟨factory, hfactory, hrefused⟩ := Cluster.buildTopology_eq_error hbuild
      obtain ⟨snitch, hmade⟩ := h.snitch factory hfactory view
      rw [hrefused] at hmade
      cases hmade

/-- All members of a view get their pools. -/
theorem openMissing (h : cluster.settings.Unfailing) (view : ClusterView) :
    (cluster.pools.openMissing view).1 = .ok () := by
  have hopened := EndpointPools.openedFor view.addresses_nodup cluster.pools
  change cluster.pools.OpenedFor _ (cluster.pools.openMissing view) at hopened
  generalize cluster.pools.lacking (view.peers.map Peer.address) = lacking at hopened
  generalize cluster.pools.openMissing view = outcome at hopened
  cases hopened with
  | all => rfl
  | @refused _ _ endpoint _ _ _ hrefused =>
      obtain ⟨pool, hmade⟩ := h.pool ⟨endpoint, cluster.pools.capacity⟩
      have hsame := hrefused.symm.trans hmade
      cases hsame

/-- A strategy can be built over any candidates, with the snitch of any topology. -/
theorem buildStrategy (h : cluster.settings.Unfailing) {topology : Topology}
    (hbuilt : cluster.SnitchBuilt topology) (ranked : List Address) :
    ∃ strategy, (cluster.buildStrategy topology.snitch ranked).1 = .ok strategy := by
  cases hfactory : cluster.strategyFactory with
  | none => exact ⟨_, by rw [Cluster.buildStrategy_of_none hfactory]⟩
  | some factory =>
      obtain ⟨seeds, hpair⟩ := Cluster.buildStrategy_of_some hfactory topology.snitch ranked
      rw [hpair]
      exact h.strategy factory hfactory _ hbuilt.isSome rfl

/-- Where no policy refuses, trying them out succeeds. -/
theorem tryOut (h : cluster.settings.Unfailing) :
    ∃ after, ClusterBuilder.tryOut cluster = .ok after ∧
      after.settings = cluster.settings := by
  obtain ⟨topology, hbuild⟩ := h.buildTopology .empty
  obtain ⟨strategy, hstrategy⟩ :=
    h.buildStrategy (Cluster.buildTopology_eq_ok hbuild).2.2 []
  have htried : ∃ after, ClusterBuilder.tryOut cluster = .ok after := by
    unfold ClusterBuilder.tryOut
    simp only [hbuild, bind, Except.bind, hstrategy]
    exact ⟨_, rfl⟩
  obtain ⟨after, hafter⟩ := htried
  obtain ⟨_, seeds, built, -, rfl, -⟩ := ClusterBuilder.tryOut_eq_ok hafter
  exact ⟨_, hafter, rfl⟩

/-- Where no policy refuses, every view is published. -/
theorem publish (h : cluster.settings.Unfailing) (view : ClusterView) :
    ∃ after, cluster.publish view = (.ok (), after) := by
  obtain ⟨topology, hbuild⟩ := h.buildTopology view
  have hpair : cluster.pools.openMissing view =
      (.ok (), (cluster.pools.openMissing view).2) := by
    rw [← h.openMissing view]
  unfold Cluster.publish
  rw [hbuild]
  simp only
  rw [hpair]
  exact ⟨_, rfl⟩

end Settings.Unfailing

/-! ## Sound configurations -/

/-- The library knows every name, and a strategy that ranks has a snitch and an address to
measure from. -/
structure ClusterConfig.Sound (config : ClusterConfig) : Prop where
  partitioner : Registry.Known config.partitioner
    ["Murmur3Partitioner", "RandomPartitioner", "CDCPartitioner"]
  snitch : Registry.Known config.snitch
    ["RackInferringSnitch", "SimpleSnitch", "TopologySnitch"]
  strategy : Registry.Known config.strategy
    ["RandomStrategy", "RoundRobinStrategy", "NearestStrategy"]
  pool : Registry.Known config.pool.policy ["BoundedPool", "NoReusePool"]
  nearest : Registry.StandsFor config.strategy "NearestStrategy" →
    Blank.trim config.snitch ≠ "" ∧ config.origin ≠ none

namespace ClusterBuilder

variable {builder : ClusterBuilder} {settings : Settings} {entropy : Nat → Nat → UInt32}
  {cluster : Cluster}

/-- A snitch is configured unless its name is blank. -/
theorem Configures.snitch_isSome_iff (h : builder.Configures settings) :
    settings.snitchFactory.isSome = true ↔ Blank.trim builder.config.snitch ≠ "" := by
  have hsnitch := Except.mapError_eq_ok h.snitch
  cases hfactory : settings.snitchFactory with
  | none =>
      rw [hfactory] at hsnitch
      simp [Registry.resolve_eq_none_iff.1 hsnitch]
  | some factory =>
      rw [hfactory] at hsnitch
      simp only [Option.isSome_some, true_iff]
      intro hblank
      rw [Registry.resolve_eq_none_iff.2 hblank] at hsnitch
      cases hsnitch

/-- The policies of a sound configuration refuse nothing. -/
theorem Configures.unfailing (h : builder.Configures settings)
    (hactivator : builder.activator = .defaults) (hsound : builder.config.Sound) :
    settings.Unfailing where
  snitch := by
    intro factory hfactory view
    have hsnitch := h.snitch
    rw [hactivator, hfactory] at hsnitch
    exact Activator.snitch_made hsnitch view
  pool := by
    intro args
    obtain ⟨found, hpool, hfactory⟩ := h.pool
    rw [hactivator] at hpool
    rw [hfactory]
    exact Activator.pool_made hpool args
  strategy := by
    intro factory hfactory args hsnitch horigin
    have hstrategy := h.strategy
    rw [hactivator, hfactory] at hstrategy
    apply Activator.strategy_made hstrategy
    intro hstands
    obtain ⟨hnamed, hsome⟩ := hsound.nearest hstands
    constructor
    · rw [hsnitch]
      exact h.snitch_isSome_iff.2 hnamed
    · rw [horigin, h.origin]
      exact Option.isSome_iff_ne_none.2 hsome

/-- A sound configuration can be built. -/
theorem build_of_sound (hactivator : builder.activator = .defaults)
    (hsound : builder.config.Sound) (entropy : Nat → Nat → UInt32) :
    ∃ cluster, builder.build entropy = .ok cluster := by
  obtain ⟨partitioner, hpartitioner⟩ := Activator.createPartitioner_ok_iff.2 hsound.partitioner
  obtain ⟨snitch, hsnitch⟩ := Activator.resolveSnitch_ok_iff.2 hsound.snitch
  obtain ⟨strategy, hstrategy⟩ := Activator.resolveStrategy_ok_iff.2 hsound.strategy
  obtain ⟨pool, hpool⟩ := Activator.resolvePool_ok_iff.2 hsound.pool
  rw [← hactivator] at hpartitioner hsnitch hstrategy hpool
  have hconfigures := configures_untried entropy hpartitioner hsnitch hstrategy hpool
  have hunfailing := hconfigures.unfailing hactivator hsound
  obtain ⟨blank, htried, hsettings⟩ := hunfailing.tryOut
  rw [build_of_found entropy hpartitioner hsnitch hstrategy hpool, htried]
  change ∃ cluster, builder.peopled blank = .ok cluster
  unfold peopled
  split
  · exact ⟨blank, rfl⟩
  · rw [← hsettings] at hunfailing
    obtain ⟨after, hpublished⟩ := hunfailing.publish (.ofReports builder.knownPeers)
    rw [hpublished]
    exact ⟨after, rfl⟩

/-- Only a sound configuration can be built: a strategy that ranks is tried out. -/
theorem sound_of_build (hactivator : builder.activator = .defaults)
    (hbuild : builder.build entropy = .ok cluster) : builder.config.Sound := by
  obtain ⟨hconfigures, blank, hblank, hfirst⟩ := build_eq_ok hbuild
  have hsettings : cluster.settings = blank.settings := by
    rcases hfirst with rfl | hpublish
    · rfl
    · exact Cluster.settings_publish hpublish
  have hsnitch := hconfigures.snitch
  have hstrategy := hconfigures.strategy
  obtain ⟨partitioner, hpartitioner, -⟩ := hconfigures.partitioner
  obtain ⟨pool, hpool, -⟩ := hconfigures.pool
  rw [hactivator] at hpartitioner hsnitch hstrategy hpool
  refine ⟨Activator.createPartitioner_ok_iff.1 ⟨_, hpartitioner⟩,
    Activator.resolveSnitch_ok_iff.1 ⟨_, hsnitch⟩,
    Activator.resolveStrategy_ok_iff.1 ⟨_, hstrategy⟩,
    Activator.resolvePool_ok_iff.1 ⟨_, hpool⟩, ?_⟩
  intro hstands
  have hnearest := Activator.resolveStrategy_eq_some_iff.2 (.inr (.inr ⟨hstands, rfl⟩))
  have hfactory : blank.strategyFactory = some Activator.nearestStrategy := by
    rw [hstrategy] at hnearest
    have hsame : cluster.strategyFactory = blank.strategyFactory :=
      congrArg Settings.strategyFactory hsettings
    rw [← hsame]
    exact Except.ok.inj hnearest
  obtain ⟨seed, words, tried, htried⟩ := hblank.strategy _ hfactory
  obtain ⟨hsnitchSome, horigin⟩ := Activator.isSome_of_nearestStrategy htried
  rw [hsettings] at hconfigures
  constructor
  · apply hconfigures.snitch_isSome_iff.1
    rw [← hsnitchSome]
    exact hblank.snitch.isSome.symm
  · rw [← hconfigures.origin]
    exact Option.isSome_iff_ne_none.1 horigin

/-- The configurations that can be built are those that are sound. -/
theorem build_ok_iff (hactivator : builder.activator = .defaults)
    (entropy : Nat → Nat → UInt32) :
    (∃ cluster, builder.build entropy = .ok cluster) ↔ builder.config.Sound := by
  constructor
  · rintro ⟨cluster, hbuild⟩
    exact sound_of_build hactivator hbuild
  · intro hsound
    exact build_of_sound hactivator hsound entropy

/-- The policies of a cluster that was built refuse nothing. -/
theorem unfailing_of_build (hactivator : builder.activator = .defaults)
    (hbuild : builder.build entropy = .ok cluster) : cluster.settings.Unfailing :=
  (build_eq_ok hbuild).1.unfailing hactivator (sound_of_build hactivator hbuild)

end ClusterBuilder

end RingRouting
