import RingRouting.Proofs.Cluster.Steps
import RingRouting.Proofs.Results

/-!
# How a cluster is configured, and how it begins

What was configured stays as it is, whatever happens to the cluster.  A cluster that
was built is one over the empty view whose policies were tried out or, where peers
were known, the one that publishing their view gave.

Main results:

- Theorem `History.settings_run`: no run of events changes the settings.
- Theorem `Cluster.Performed.topology`: what an event can publish.
- Theorem `ClusterBuilder.build_eq_ok`: a cluster that was built and how it began.
- Theorem `History.configured_run`: what a run of events leaves of a cluster's beginning.
-/

namespace RingRouting

/-! ## What stays -/

/-- What a cluster keeps from its configuration. -/
structure Settings where
  partitioner : Partitioner
  snitchFactory : Option (Factory SnitchArgs Snitch)
  strategyFactory : Option (Factory StrategyArgs Strategy)
  origin : Option Address
  replicationFactor : ReplicationFactor
  entropy : Nat → Nat → UInt32
  poolFactory : Factory PoolArgs Pool
  poolCapacity : Nat

namespace Cluster

/-- The settings of a cluster. -/
def settings (cluster : Cluster) : Settings where
  partitioner := cluster.partitioner
  snitchFactory := cluster.snitchFactory
  strategyFactory := cluster.strategyFactory
  origin := cluster.origin
  replicationFactor := cluster.replicationFactor
  entropy := cluster.entropy
  poolFactory := cluster.pools.factory
  poolCapacity := cluster.pools.capacity

/-- Only the pools and the topology change when a view is published. -/
theorem settings_openMissing (cluster : Cluster) (view : ClusterView) :
    (cluster.pools.openMissing view).2.factory = cluster.pools.factory ∧
      (cluster.pools.openMissing view).2.capacity = cluster.pools.capacity := by
  refine EndpointPools.openMissingFor_induction
    (fun pools => pools.factory = cluster.pools.factory ∧
      pools.capacity = cluster.pools.capacity) ?_ view.addresses cluster.pools ⟨rfl, rfl⟩
  intro pools endpoint after hsame _ hopen
  obtain ⟨pool, -, rfl⟩ := EndpointPools.openPool_eq_ok hopen
  exact hsame

theorem settings_endRefresh (cluster : Cluster) (call : CallId) (outcome : Outcome) :
    (cluster.endRefresh call outcome).1.settings = cluster.settings := by
  obtain ⟨queue, requests, hend⟩ := cluster.endRefresh_eq call outcome
  rw [hend]
  rfl

theorem Attempted.settings {cluster : Cluster} {call : CallId} {key : PartitionKey}
    {result : Cluster × ClusterProgress} (h : Attempted cluster call key result) :
    result.1.settings = cluster.settings := by
  cases h <;> rfl

/-- Settings that the pools agree on. -/
theorem settings_withPools {cluster : Cluster} {pools : EndpointPools Purpose}
    (hfactory : pools.factory = cluster.pools.factory)
    (hcapacity : pools.capacity = cluster.pools.capacity) :
    { cluster with pools := pools }.settings = cluster.settings := by
  simp [settings, hfactory, hcapacity]

theorem settings_publish {cluster after : Cluster} {view : ClusterView}
    (h : cluster.publish view = (.ok (), after)) : after.settings = cluster.settings := by
  have hopened := cluster.settings_openMissing view
  obtain ⟨topology, -, -, rfl⟩ := publish_eq_ok h
  exact settings_withPools hopened.1 hopened.2

theorem Refreshed.settings {cluster : Cluster} {call : CallId} {view : ClusterView}
    {result : Cluster × ClusterProgress} (h : Refreshed cluster call view result) :
    result.1.settings = cluster.settings := by
  have hopened := cluster.settings_openMissing view
  cases h with
  | refused => exact settings_endRefresh _ _ _
  | unopened =>
      rw [settings_endRefresh]
      exact settings_withPools hopened.1 hopened.2
  | closing => exact settings_withPools hopened.1 hopened.2
  | published =>
      rw [settings_endRefresh]
      exact settings_withPools hopened.1 hopened.2

theorem Absorbed.settings {cluster : Cluster} {ended : Finished Purpose}
    {result : Cluster × ClusterProgress} (h : Absorbed cluster ended result) :
    result.1.settings = cluster.settings := by
  cases h with
  | direct => rfl
  | concluded => rfl
  | replanned _ _ _ hattempted => exact hattempted.settings
  | refresh => exact settings_endRefresh _ _ _

/-- No event changes the settings. -/
theorem Performed.settings {cluster : Cluster} {event : Event}
    {result : Cluster × ClusterProgress} (h : Performed cluster event result) :
    result.1.settings = cluster.settings := by
  cases h with
  | plan => rfl
  | connect hattempted => exact hattempted.settings
  | release hreleased => cases hreleased <;> rfl
  | queued => rfl
  | refresh _ hrefreshed => exact hrefreshed.settings
  | shutdown hshutDown => cases hshutDown <;> rfl
  | answer hanswered =>
      cases hanswered with
      | ignored => rfl
      | turn _ _ hrefreshed => exact hrefreshed.settings
      | waits => rfl
      | ends _ _ habsorbed => exact habsorbed.settings

/-! ## What is published -/

theorem Refreshed.topology {cluster : Cluster} {call : CallId} {view : ClusterView}
    {result : Cluster × ClusterProgress} (h : Refreshed cluster call view result) :
    result.1.topology = cluster.topology ∨
      cluster.buildTopology view = .ok result.1.topology := by
  cases h with
  | @refused e =>
      rcases cluster.endRefresh_eq call (.unrefreshed e) with ⟨queue, requests, hend⟩
      rw [hend]
      exact .inl rfl
  | @unopened e =>
      rcases endRefresh_eq { cluster with pools := (cluster.pools.openMissing view).2 } call
        (.unrefreshed e) with ⟨queue, requests, hend⟩
      rw [hend]
      exact .inl rfl
  | closing hbuild => exact .inr hbuild
  | @published topology network hbuild =>
      rcases (cluster.withView view topology network).endRefresh_eq call .refreshed
        with ⟨queue, requests, hend⟩
      rw [hend]
      exact .inr hbuild

theorem Absorbed.topology {cluster : Cluster} {ended : Finished Purpose}
    {result : Cluster × ClusterProgress} (h : Absorbed cluster ended result) :
    result.1.topology = cluster.topology := by
  cases h with
  | direct => rfl
  | concluded => rfl
  | replanned _ _ _ hattempted => cases hattempted <;> rfl
  | refresh =>
      rcases cluster.endRefresh_eq ended.call .refreshed with ⟨queue, requests, hend⟩
      rw [hend]
      rfl

/-- An event leaves the topology alone or publishes one that was built. -/
theorem Performed.topology {cluster : Cluster} {event : Event}
    {result : Cluster × ClusterProgress} (h : Performed cluster event result) :
    result.1.topology = cluster.topology ∨
      ∃ view, cluster.buildTopology view = .ok result.1.topology := by
  cases h with
  | plan => exact .inl rfl
  | connect hattempted => cases hattempted <;> exact .inl rfl
  | release hreleased => cases hreleased <;> exact .inl rfl
  | queued => exact .inl rfl
  | refresh _ hrefreshed => exact hrefreshed.topology.imp id fun hbuild => ⟨_, hbuild⟩
  | shutdown hshutDown => cases hshutDown <;> exact .inl rfl
  | answer hanswered =>
      cases hanswered with
      | ignored => exact .inl rfl
      | turn _ _ hrefreshed => exact hrefreshed.topology.imp id fun hbuild => ⟨_, hbuild⟩
      | waits => exact .inl rfl
      | ends _ _ habsorbed => exact .inl habsorbed.topology

/-- The snitch of the current topology was built from its view. -/
theorem Performed.snitchBuilt {cluster : Cluster} {event : Event}
    {result : Cluster × ClusterProgress} (h : Performed cluster event result)
    (hbuilt : cluster.SnitchBuilt cluster.topology) :
    result.1.SnitchBuilt result.1.topology := by
  have hfactory : result.1.snitchFactory = cluster.snitchFactory :=
    congrArg Settings.snitchFactory h.settings
  have hsame : cluster.SnitchBuilt result.1.topology := by
    rcases h.topology with htopology | ⟨view, hbuild⟩
    · rw [htopology]
      exact hbuilt
    · exact (buildTopology_eq_ok hbuild).2.2
  unfold SnitchBuilt at hsame ⊢
  rw [hfactory]
  exact hsame

end Cluster

namespace History

/-- No run of events changes the settings. -/
theorem settings_run (history : History) (events : List Event) :
    (history.run events).cluster.settings = history.cluster.settings := by
  refine run_induction (fun later => later.cluster.settings = history.cluster.settings)
    (fun _ => True) ?_ rfl (fun _ _ => trivial)
  intro later event _ hsame _
  rw [← hsame]
  exact (later.cluster.performed event).settings

/-- In every run of events the snitch is the one built from the current view. -/
theorem snitchBuilt_run {history : History}
    (h : history.cluster.SnitchBuilt history.cluster.topology) (events : List Event) :
    (history.run events).cluster.SnitchBuilt (history.run events).cluster.topology := by
  refine run_induction (fun later => later.cluster.SnitchBuilt later.cluster.topology)
    (fun _ => True) ?_ h (fun _ _ => trivial)
  intro later event _ hbuilt _
  exact (later.cluster.performed event).snitchBuilt hbuilt

end History

/-! ## How a cluster begins -/

/-- A cluster over the empty view, without pools and without calls, whose policies
were tried out. -/
structure Cluster.Blank (cluster : Cluster) : Prop where
  view : cluster.topology.view = .empty
  snitch : cluster.SnitchBuilt cluster.topology
  entries : cluster.pools.entries = []
  network : cluster.pools.network = .empty
  refreshes : cluster.refreshes = .idle
  strategy : ∀ factory, cluster.strategyFactory = some factory →
    ∃ seed words strategy,
      factory ⟨[], cluster.topology.snitch, cluster.origin, seed, words⟩ = .ok strategy

namespace ClusterBuilder

theorem tryOut_eq_ok {cluster after : Cluster} (h : tryOut cluster = .ok after) :
    ∃ topology seeds built, cluster.buildTopology .empty = .ok topology ∧
      after = { cluster.withDraws seeds built with topology := topology } ∧
      ∀ factory, cluster.strategyFactory = some factory → ∃ seed words strategy,
        factory ⟨[], topology.snitch, cluster.origin, seed, words⟩ = .ok strategy := by
  unfold tryOut at h
  cases hbuild : cluster.buildTopology .empty with
  | error e =>
      rw [hbuild] at h
      cases h
  | ok topology =>
      rw [hbuild] at h
      cases hfactory : cluster.strategyFactory with
      | none =>
          simp only [bind, Except.bind, Cluster.buildStrategy_of_none hfactory] at h
          cases h
          refine ⟨topology, cluster.seeds, cluster.strategiesBuilt, rfl, rfl, ?_⟩
          intro factory hsome
          cases hsome
      | some factory =>
          obtain ⟨seeds, hbuilt⟩ :=
            Cluster.buildStrategy_of_some hfactory topology.snitch []
          simp only [bind, Except.bind, hbuilt] at h
          split at h
          · cases h
          · rename_i strategy hstrategy
            cases h
            refine ⟨topology, seeds, cluster.strategiesBuilt + 1, rfl, rfl, ?_⟩
            intro other hsome
            cases hsome
            exact ⟨_, _, strategy, hstrategy⟩

/-- Where the policies of a cluster come from. -/
structure Configures (builder : ClusterBuilder) (settings : Settings) : Prop where
  partitioner : ∃ partitioner,
    builder.activator.createPartitioner builder.config.partitioner = .ok partitioner ∧
      settings.partitioner = partitioner.getD .default
  snitch : builder.activator.resolveSnitch builder.config.snitch = .ok settings.snitchFactory
  strategy : builder.activator.resolveStrategy builder.config.strategy =
    .ok settings.strategyFactory
  pool : ∃ factory, builder.activator.resolvePool builder.config.pool.policy = .ok factory ∧
    settings.poolFactory = factory.getD Activator.boundedPool
  origin : settings.origin = builder.config.origin
  replicationFactor : settings.replicationFactor = builder.config.replicationFactor
  poolCapacity : settings.poolCapacity = builder.config.pool.capacity

/-- The cluster whose policies are tried out, once they were found. -/
def untried (builder : ClusterBuilder) (entropy : Nat → Nat → UInt32)
    (partitioner : Option Partitioner) (snitch : Option (Factory SnitchArgs Snitch))
    (strategy : Option (Factory StrategyArgs Strategy))
    (pool : Option (Factory PoolArgs Pool)) : Cluster where
  partitioner := partitioner.getD .default
  snitchFactory := snitch
  strategyFactory := strategy
  origin := builder.config.origin
  replicationFactor := builder.config.replicationFactor
  seeds := builder.config.strategySeed.map Pcg32.ofSeed
  entropy := entropy
  strategiesBuilt := 0
  topology := ⟨0, .empty, none⟩
  pools :=
    match pool with
    | some factory => .new builder.config.pool.capacity factory
    | none => .bounded builder.config.pool.capacity
  refreshes := .idle

/-- The cluster that was tried out, with the view of the known peers if there are any. -/
def peopled (builder : ClusterBuilder) (cluster : Cluster) :
    Except ConfigurationError Cluster :=
  if builder.knownPeers.isEmpty then .ok cluster
  else
    match cluster.publish (.ofReports builder.knownPeers) with
    | (.error e, _) => .error e
    | (.ok _, cluster) => .ok cluster

/-- Peopling changes nothing, or publishes a view. -/
theorem peopled_eq_ok {builder : ClusterBuilder} {blank cluster : Cluster}
    (h : builder.peopled blank = .ok cluster) :
    cluster = blank ∨ blank.publish (.ofReports builder.knownPeers) = (.ok (), cluster) := by
  unfold peopled at h
  split at h
  · cases h
    exact .inl rfl
  · split at h
    · cases h
    · rename_i hpublish
      cases h
      exact .inr hpublish

section Found

variable {builder : ClusterBuilder} {partitioner : Option Partitioner}
  {snitch : Option (Factory SnitchArgs Snitch)}
  {strategy : Option (Factory StrategyArgs Strategy)} {pool : Option (Factory PoolArgs Pool)}
  (entropy : Nat → Nat → UInt32)
  (hpartitioner : builder.activator.createPartitioner builder.config.partitioner =
    .ok partitioner)
  (hsnitch : builder.activator.resolveSnitch builder.config.snitch = .ok snitch)
  (hstrategy : builder.activator.resolveStrategy builder.config.strategy = .ok strategy)
  (hpool : builder.activator.resolvePool builder.config.pool.policy = .ok pool)

include hpartitioner hsnitch hstrategy hpool

theorem configures_untried :
    builder.Configures (builder.untried entropy partitioner snitch strategy pool).settings :=
  ⟨⟨partitioner, hpartitioner, rfl⟩, hsnitch, hstrategy,
    ⟨pool, hpool, by cases pool <;> rfl⟩, rfl, rfl, by cases pool <;> rfl⟩

/-- Once the policies were found, building is trying them out and publishing a view. -/
theorem build_of_found : builder.build entropy =
    tryOut (builder.untried entropy partitioner snitch strategy pool) >>= builder.peopled := by
  simp only [build, hpartitioner, hsnitch, hstrategy, hpool]
  rfl

end Found

/-- A cluster that was built is blank, or came from a blank one by publishing the view
of the known peers. -/
theorem build_eq_ok {builder : ClusterBuilder} {entropy : Nat → Nat → UInt32}
    {cluster : Cluster} (h : builder.build entropy = .ok cluster) :
    builder.Configures cluster.settings ∧
      ∃ blank : Cluster, blank.Blank ∧
        (cluster = blank ∨ blank.publish (.ofReports builder.knownPeers) = (.ok (), cluster)) := by
  have hbuild := h
  unfold build at h
  obtain ⟨partitioner, hpartitioner, h⟩ := Except.bind_eq_ok h
  obtain ⟨snitch, hsnitch, h⟩ := Except.bind_eq_ok h
  obtain ⟨strategy, hstrategy, h⟩ := Except.bind_eq_ok h
  obtain ⟨pool, hpool, -⟩ := Except.bind_eq_ok h
  rw [build_of_found entropy hpartitioner hsnitch hstrategy hpool] at hbuild
  obtain ⟨blank, htry, hpeopled⟩ := Except.bind_eq_ok hbuild
  have hconfigures := configures_untried entropy hpartitioner hsnitch hstrategy hpool
  have hpools : (builder.untried entropy partitioner snitch strategy pool).pools.entries = [] ∧
      (builder.untried entropy partitioner snitch strategy pool).pools.network = .empty := by
    cases pool <;> exact ⟨rfl, rfl⟩
  obtain ⟨topology, seeds, built, htopology, hblank, htried⟩ := tryOut_eq_ok htry
  obtain ⟨-, hview, hsnitchBuilt⟩ := Cluster.buildTopology_eq_ok htopology
  have hkept : blank.Blank ∧ builder.Configures blank.settings := by
    rw [hblank]
    exact ⟨⟨hview, hsnitchBuilt, hpools.1, hpools.2, rfl, htried⟩, hconfigures⟩
  have hfirst := peopled_eq_ok hpeopled
  refine ⟨?_, blank, hkept.1, hfirst⟩
  rcases hfirst with rfl | hpublish
  · exact hkept.2
  · rw [Cluster.settings_publish hpublish]
    exact hkept.2

/-- A builder that names no policies: Murmur3 tokens, endpoints in turn, one kept
connection for each endpoint, and no ranking. -/
def unnamed (known : List Peer) : ClusterBuilder where
  config := { ClusterConfig.default with partitioner := "", strategy := "", pool := ⟨"", 1⟩ }
  activator := .defaults
  knownPeers := known

end ClusterBuilder

namespace History

/-- Whatever has happened to a cluster that was built: its settings are those of its builder,
and its snitch is the one built from its view. -/
theorem configured_run {builder : ClusterBuilder} {entropy : Nat → Nat → UInt32}
    {cluster : Cluster} (hbuild : builder.build entropy = .ok cluster) (events : List Event) :
    let now := ((start cluster).run events).cluster
    builder.Configures now.settings ∧ now.SnitchBuilt now.topology := by
  intro now
  obtain ⟨hconfigures, blank, hblank, hfirst⟩ := ClusterBuilder.build_eq_ok hbuild
  have hsettings : now.settings = cluster.settings := settings_run (start cluster) events
  have hstart : (start cluster).cluster.SnitchBuilt (start cluster).cluster.topology := by
    rcases hfirst with rfl | hpublish
    · exact hblank.snitch
    · obtain ⟨topology, htopology, -, rfl⟩ := Cluster.publish_eq_ok hpublish
      exact (Cluster.buildTopology_eq_ok htopology).2.2
  rw [hsettings]
  exact ⟨hconfigures, snitchBuilt_run hstart events⟩

end History

/-- A node at `10.0.0.number` that owns one position of the ring. -/
def Peer.numbered (number : UInt8) : Peer :=
  ⟨.ofQuad 10 0 0 number, "datacenter1", "rack1", [⟨number.toNat⟩]⟩

end RingRouting
