import RingRouting.Proofs.Cluster.History
import RingRouting.Proofs.Network.Standing

/-!
# What the steps of a cluster do

A step of a cluster is made of a few stretches: an attempt to connect, a refresh, the
return of a lease, a shutdown, and the answer to a call that waits.  This module says
once what each of them can do, so that laws about histories go case by case through
these lists.

Main results:

- Theorem `Cluster.plan_snd`: planning changes nothing but what strategies draw.
- Theorems `Cluster.attempted`, `Cluster.released`, `Cluster.refreshed`,
  `Cluster.shutDown`, `Cluster.absorbed` and `Cluster.answered`: the possible effects of
  each stretch.
- Theorem `Cluster.performed`: the possible effects of an event.
-/

namespace RingRouting

namespace Cluster

/-! ## Planning -/

/-- The cluster with another state of its seeds and another count of strategies. -/
def withDraws (cluster : Cluster) (seeds : Option Pcg32) (built : Nat) : Cluster :=
  { cluster with seeds := seeds, strategiesBuilt := built }

theorem nextSeed_snd (cluster : Cluster) :
    ∃ seeds, cluster.nextSeed.2 = cluster.withDraws seeds cluster.strategiesBuilt := by
  unfold nextSeed
  split
  · exact ⟨cluster.seeds, rfl⟩
  · exact ⟨_, rfl⟩

/-- Without a configured strategy the candidates are tried in turn. -/
theorem buildStrategy_of_none {cluster : Cluster} (hnone : cluster.strategyFactory = none)
    (snitch : Option Snitch) (ranked : List Address) :
    cluster.buildStrategy snitch ranked = (.ok (.rotation ranked), cluster) := by
  unfold buildStrategy
  rw [hnone]

/-- A configured strategy is built over the candidates, and draws a seed. -/
theorem buildStrategy_of_some {cluster : Cluster} {factory : Factory StrategyArgs Strategy}
    (hsome : cluster.strategyFactory = some factory) (snitch : Option Snitch)
    (ranked : List Address) :
    ∃ seeds, cluster.buildStrategy snitch ranked =
      (factory ⟨ranked, snitch, cluster.origin, cluster.nextSeed.1,
          cluster.entropy cluster.strategiesBuilt⟩,
        cluster.withDraws seeds (cluster.strategiesBuilt + 1)) := by
  obtain ⟨seeds, hseed⟩ := cluster.nextSeed_snd
  refine ⟨seeds, ?_⟩
  have hpair : cluster.nextSeed =
      (cluster.nextSeed.1, cluster.withDraws seeds cluster.strategiesBuilt) := by
    rw [← hseed]
  unfold buildStrategy
  rw [hsome, hpair]
  rfl

/-- Planning changes nothing but what strategies draw. -/
theorem plan_snd (cluster : Cluster) (key : PartitionKey) :
    ∃ seeds built, (cluster.plan key).2 = cluster.withDraws seeds built := by
  have hsame : cluster = cluster.withDraws cluster.seeds cluster.strategiesBuilt := rfl
  have hstrategy : ∀ ranked, ∃ seeds built,
      (cluster.buildStrategy cluster.topology.snitch ranked).2 =
        cluster.withDraws seeds built := by
    intro ranked
    cases hfactory : cluster.strategyFactory with
    | none =>
        rw [buildStrategy_of_none hfactory]
        exact ⟨_, _, hsame⟩
    | some factory =>
        obtain ⟨seeds, hbuilt⟩ := buildStrategy_of_some hfactory cluster.topology.snitch ranked
        exact ⟨seeds, _, by rw [hbuilt]⟩
  unfold plan
  split
  · exact ⟨_, _, hsame⟩
  · rename_i token htoken
    simp only
    split
    · exact ⟨_, _, hsame⟩
    · obtain ⟨seeds, built, hbuilt⟩ := hstrategy (cluster.rank (cluster.replicas token))
      refine ⟨seeds, built, ?_⟩
      rw [← hbuilt]
      split
      · rename_i heq
        rw [heq]
      · rename_i heq
        rw [heq]

/-! ## Connecting -/

/-- A plan for the key picks the endpoint. -/
def Chooses (cluster : Cluster) (key : PartitionKey) (endpoint : Address) : Prop :=
  ∃ plan, (cluster.plan key).1 = .ok plan ∧ plan.pick.1 = .ok endpoint

/-- Why an attempt to connect fails at once. -/
inductive Fails (cluster : Cluster) (key : PartitionKey) : RouteError → Prop where
  /-- There is no plan. -/
  | plan {e : RouteError} (hplan : (cluster.plan key).1 = .error e) : Fails cluster key e
  /-- The plan picks nothing. -/
  | pick {plan : Plan} {e : RouteError} (hplan : (cluster.plan key).1 = .ok plan)
      (hpick : plan.pick.1 = .error e) : Fails cluster key e
  /-- The endpoint has no pool. -/
  | noPool {endpoint : Address} (hchooses : cluster.Chooses key endpoint)
      (hfind : cluster.pools.find? endpoint = none) :
      Fails cluster key (.pool (.noPool endpoint))
  /-- The endpoint's pool is disposed. -/
  | disposed {endpoint : Address} {id : PoolId} {pool : Pool}
      (hchooses : cluster.Chooses key endpoint)
      (hfind : cluster.pools.find? endpoint = some id)
      (hpool : cluster.pools.network.pools[id]? = some pool)
      (hdisposed : pool.disposed = true) :
      Fails cluster key (.pool (.disposed pool.endpoint))

/-- What an attempt to connect can do. -/
inductive Attempted (cluster : Cluster) (call : CallId) (key : PartitionKey) :
    Cluster × ClusterProgress → Prop where
  /-- It fails. -/
  | failed {seeds : Option Pcg32} {built : Nat} {e : RouteError}
      (hfails : cluster.Fails key e) :
      Attempted cluster call key
        (cluster.withDraws seeds built, .finish call (.unrouted e))
  /-- The map leads to no pool. -/
  | missing {seeds : Option Pcg32} {built : Nat} {endpoint : Address} {id : PoolId}
      (hchooses : cluster.Chooses key endpoint)
      (hfind : cluster.pools.find? endpoint = some id)
      (hpool : cluster.pools.network.pools[id]? = none) :
      Attempted cluster call key (cluster.withDraws seeds built, .none)
  /-- A kept connection is lent. -/
  | reused {seeds : Option Pcg32} {built : Nat} {endpoint : Address} {id : PoolId}
      {pool after : Pool} {connection : Connection}
      (hchooses : cluster.Chooses key endpoint)
      (hfind : cluster.pools.find? endpoint = some id)
      (hpool : cluster.pools.network.pools[id]? = some pool)
      (hreused : pool.acquire = (.reused connection, after)) :
      Attempted cluster call key
        ((cluster.withDraws seeds built).setNetwork (cluster.pools.network.setPool id after),
          .finish call (.leased ⟨endpoint, connection, id⟩))
  /-- The call waits for a new connection. -/
  | opening {seeds : Option Pcg32} {built : Nat} {endpoint : Address} {id : PoolId}
      {pool : Pool} (hchooses : cluster.Chooses key endpoint)
      (hfind : cluster.pools.find? endpoint = some id)
      (hpool : cluster.pools.network.pools[id]? = some pool)
      (hlive : pool.disposed = false) :
      Attempted cluster call key
        ((cluster.withDraws seeds built).setNetwork
            (cluster.pools.network.suspend call
              (.connect key cluster.topology.version endpoint) (.opening id)),
          ⟨[.opening call pool.endpoint], []⟩)

theorem attempted (cluster : Cluster) (call : CallId) (key : PartitionKey) :
    Attempted cluster call key (cluster.attempt call key) := by
  obtain ⟨seeds, built, hafter⟩ := cluster.plan_snd key
  unfold attempt
  split
  · rename_i e after hplan
    rw [hplan] at hafter
    subst hafter
    exact .failed (.plan (congrArg Prod.fst hplan))
  · rename_i plan after hplan
    rw [hplan] at hafter
    subst hafter
    have hok := congrArg Prod.fst hplan
    split
    · rename_i e _ hpick
      exact .failed (.pick hok (congrArg Prod.fst hpick))
    · rename_i endpoint _ hpick
      have hchooses : cluster.Chooses key endpoint := ⟨plan, hok, congrArg Prod.fst hpick⟩
      have hget : (cluster.withDraws seeds built).pools.get endpoint =
          cluster.pools.get endpoint := rfl
      rw [hget]
      cases hfind : cluster.pools.find? endpoint with
      | none =>
          simp only [EndpointPools.get, hfind]
          exact .failed (.noPool hchooses hfind)
      | some id =>
          simp only [EndpointPools.get, hfind]
          have hacquired := cluster.pools.network.acquired call
            (.connect key cluster.topology.version endpoint) id
          have hnetwork : (cluster.withDraws seeds built).pools.network =
              cluster.pools.network := rfl
          have htopology : (cluster.withDraws seeds built).topology = cluster.topology := rfl
          rw [hnetwork, htopology]
          generalize cluster.pools.network.acquireAs call
            (.connect key cluster.topology.version endpoint) id = result at hacquired
          cases hacquired with
          | missing hpool => exact .missing hchooses hfind hpool
          | refused hpool hdisposed =>
              exact .failed (.disposed hchooses hfind hpool hdisposed)
          | reused hpool hreused => exact .reused hchooses hfind hpool hreused
          | opening hpool hlive => exact .opening hchooses hfind hpool hlive

/-- An attempt leaves every pool where it leads, and disposed or not. -/
theorem Attempted.standings {cluster : Cluster} {call : CallId} {key : PartitionKey}
    {result : Cluster × ClusterProgress} (h : Attempted cluster call key result) :
    result.1.pools.network.standings = cluster.pools.network.standings := by
  cases h with
  | failed => rfl
  | missing => rfl
  | opening => rfl
  | reused _ _ hpool hreused =>
      have hacquired : cluster.pools.network.Acquired call .direct _ _ :=
        .reused hpool hreused
      exact hacquired.standings

/-! ## Giving back -/

/-- What the return of a lease can do. -/
inductive Released (cluster : Cluster) (call : CallId) (id : PoolId)
    (connection : Connection) : Cluster × ClusterProgress → Prop where
  /-- There is no such pool. -/
  | missing (hpool : cluster.pools.network.pools[id]? = none) :
      Released cluster call id connection (cluster, .none)
  /-- The connection is kept. -/
  | kept {pool : Pool} (hpool : cluster.pools.network.pools[id]? = some pool)
      (hkept : (pool.release connection).1 = none) :
      Released cluster call id connection
        (cluster.setNetwork
            (cluster.pools.network.setPool id (pool.release connection).2),
          .finish call .done)
  /-- The connection is to be closed. -/
  | closing {pool : Pool} (hpool : cluster.pools.network.pools[id]? = some pool) :
      Released cluster call id connection
        (cluster.setNetwork
            (cluster.pools.network.suspend call .direct (.closing [connection])),
          ⟨[.closing call connection], []⟩)

/-- The return of a lease leaves every pool where it leads, and disposed or not. -/
theorem Released.standings {cluster : Cluster} {call : CallId} {id : PoolId}
    {connection : Connection} {result : Cluster × ClusterProgress}
    (h : Released cluster call id connection result) :
    result.1.pools.network.standings = cluster.pools.network.standings := by
  cases h with
  | missing => rfl
  | closing => rfl
  | @kept pool hpool =>
      apply Network.standings_setPool hpool
      simp [Pool.standing]

theorem released (cluster : Cluster) (id : PoolId) (connection : Connection) :
    Released cluster.newCall.2 cluster.newCall.1 id connection
      (cluster.startRelease id connection).2 := by
  unfold startRelease Network.release Network.releaseAs
  have hnew : cluster.pools.network.newCall.2.pools = cluster.pools.network.pools := rfl
  simp only [hnew]
  cases hpool : cluster.pools.network.pools[id]? with
  | none => exact .missing hpool
  | some pool =>
      rcases pool.release_cases connection with ⟨-, hnone, -⟩ | hclosed
      · simp only [hnone]
        exact .kept hpool hnone
      · simp only [hclosed]
        have hself : cluster.pools.network.newCall.2.setPool id pool =
            cluster.pools.network.newCall.2 :=
          Network.setPool_self hpool
        rw [hself]
        exact .closing hpool

/-! ## Refreshing -/

/-- What building a topology tells: the view it is for, and the snitch made from it. -/
def SnitchBuilt (cluster : Cluster) (topology : Topology) : Prop :=
  match cluster.snitchFactory with
  | none => topology.snitch = none
  | some factory =>
    ∃ snitch, factory ⟨some topology.view⟩ = .ok snitch ∧ topology.snitch = some snitch

theorem buildTopology_eq_ok {cluster : Cluster} {view : ClusterView} {topology : Topology}
    (h : cluster.buildTopology view = .ok topology) :
    topology.version = cluster.topology.version + 1 ∧ topology.view = view ∧
      cluster.SnitchBuilt topology := by
  unfold buildTopology at h
  unfold SnitchBuilt
  cases hfactory : cluster.snitchFactory with
  | none =>
      rw [hfactory] at h
      cases h
      exact ⟨rfl, rfl, rfl⟩
  | some factory =>
      rw [hfactory] at h
      simp only at h
      cases hsnitch : factory ⟨some view⟩ with
      | error e =>
          rw [hsnitch] at h
          cases h
      | ok snitch =>
          rw [hsnitch] at h
          cases h
          exact ⟨rfl, rfl, snitch, hsnitch, rfl⟩

/-- Whether there is a snitch depends on the settings alone. -/
theorem SnitchBuilt.isSome {cluster : Cluster} {topology : Topology}
    (h : cluster.SnitchBuilt topology) :
    topology.snitch.isSome = cluster.snitchFactory.isSome := by
  unfold SnitchBuilt at h
  split at h
  · rename_i hnone
    rw [h, hnone]
    rfl
  · rename_i factory hsome
    rcases h with ⟨snitch, -, hsnitch⟩
    rw [hsnitch, hsome]
    rfl

/-- The cluster with other refreshes that wait. -/
def withQueue (cluster : Cluster) (queue : RefreshQueue) : Cluster :=
  { cluster with refreshes := queue }

/-- The end of a refresh ends its call, and changes nothing but the queue. -/
theorem endRefresh_eq (cluster : Cluster) (call : CallId) (outcome : Outcome) :
    ∃ queue requests, cluster.endRefresh call outcome =
      (cluster.withQueue queue, ⟨requests, [(call, outcome)]⟩) := by
  unfold endRefresh
  split
  · exact ⟨_, _, rfl⟩
  · exact ⟨_, _, rfl⟩

theorem publish_eq_ok {cluster after : Cluster} {view : ClusterView}
    (h : cluster.publish view = (.ok (), after)) :
    ∃ topology, cluster.buildTopology view = .ok topology ∧
      (cluster.pools.openMissing view).1 = .ok () ∧
      after = { cluster with pools := (cluster.pools.openMissing view).2,
                             topology := topology } := by
  unfold publish at h
  split at h
  · cases h
  · rename_i topology hbuild
    split at h
    · cases h
    · rename_i pools hopen
      cases h
      exact ⟨topology, hbuild, congrArg Prod.fst hopen, by rw [hopen]⟩

/-- The cluster with a published view, and pools for its members alone. -/
def withView (cluster : Cluster) (view : ClusterView) (topology : Topology)
    (network : Network Purpose) : Cluster :=
  { cluster with
    pools := (cluster.pools.openMissing view).2.keeping (EndpointPools.isMember view) network
    topology := topology }

/-- What a refresh that has its turn can do. -/
inductive Refreshed (cluster : Cluster) (call : CallId) (view : ClusterView) :
    Cluster × ClusterProgress → Prop where
  /-- The snitch cannot be made. -/
  | refused {e : ConfigurationError} (hbuild : cluster.buildTopology view = .error e) :
      Refreshed cluster call view (cluster.endRefresh call (.unrefreshed e))
  /-- A pool cannot be made. -/
  | unopened {e : ConfigurationError} {topology : Topology}
      (hbuild : cluster.buildTopology view = .ok topology)
      (hopen : (cluster.pools.openMissing view).1 = .error e) :
      Refreshed cluster call view
        ({ cluster with pools := (cluster.pools.openMissing view).2 }.endRefresh call
          (.unrefreshed e))
  /-- The view is published, and connections of pools taken out are to be closed. -/
  | closing {topology : Topology} {network : Network Purpose} {requests : List Request}
      (hbuild : cluster.buildTopology view = .ok topology)
      (hopen : (cluster.pools.openMissing view).1 = .ok ())
      (hdisposed : (cluster.pools.openMissing view).2.network.Disposed call .refresh
        ((cluster.pools.openMissing view).2.dropped (EndpointPools.isMember view))
        (network, .ask requests)) :
      Refreshed cluster call view (cluster.withView view topology network, ⟨requests, []⟩)
  /-- The view is published, and there is nothing to close. -/
  | published {topology : Topology} {network : Network Purpose}
      (hbuild : cluster.buildTopology view = .ok topology)
      (hopen : (cluster.pools.openMissing view).1 = .ok ())
      (hdisposed : (cluster.pools.openMissing view).2.network.Disposed call .refresh
        ((cluster.pools.openMissing view).2.dropped (EndpointPools.isMember view))
        (network, .finish call .refresh .done)) :
      Refreshed cluster call view
        ((cluster.withView view topology network).endRefresh call .refreshed)

theorem refreshed (cluster : Cluster) (call : CallId) (view : ClusterView) :
    Refreshed cluster call view (cluster.runRefresh call view) := by
  unfold runRefresh publish
  cases hbuild : cluster.buildTopology view with
  | error e => exact .refused hbuild
  | ok topology =>
      simp only
      cases hopen : (cluster.pools.openMissing view).1 with
      | error e =>
          have hpair : cluster.pools.openMissing view =
              (.error e, (cluster.pools.openMissing view).2) := by rw [← hopen]
          rw [hpair]
          exact .unopened hbuild hopen
      | ok _ =>
          have hpair : cluster.pools.openMissing view =
              (.ok (), (cluster.pools.openMissing view).2) := by rw [← hopen]
          rw [hpair]
          simp only
          rcases (cluster.pools.openMissing view).2.keeping_cases call Purpose.refresh _
            (EndpointPools.retireAbsentAs_eq _ call _ view)
            with ⟨network, hdisposed, h⟩ | ⟨network, _, hdisposed, h⟩
          · simp only [h]
            exact .published hbuild hopen hdisposed
          · simp only [h]
            exact .closing hbuild hopen hdisposed

/-! ## Shutting down -/

/-- What a shutdown can do. -/
inductive ShutDown (cluster : Cluster) (call : CallId) :
    Cluster × ClusterProgress → Prop where
  /-- No pool keeps anything, and the call ends. -/
  | quiet {network : Network Purpose}
      (hdisposed : cluster.pools.network.Disposed call .direct
        (cluster.pools.dropped fun _ => false) (network, .finish call .direct .done)) :
      ShutDown cluster call
        ({ cluster with pools := cluster.pools.keeping (fun _ => false) network },
          .finish call .done)
  /-- Connections of the pools are to be closed. -/
  | closing {network : Network Purpose} {requests : List Request}
      (hdisposed : cluster.pools.network.Disposed call .direct
        (cluster.pools.dropped fun _ => false) (network, .ask requests)) :
      ShutDown cluster call
        ({ cluster with pools := cluster.pools.keeping (fun _ => false) network },
          ⟨requests, []⟩)

theorem shutDown (cluster : Cluster) :
    ShutDown cluster.newCall.2 cluster.newCall.1 cluster.startShutdown.2 := by
  unfold startShutdown EndpointPools.disposeAll
  have hpools : cluster.pools.newCall.2 = cluster.newCall.2.pools := rfl
  have hcall : cluster.pools.newCall.1 = cluster.newCall.1 := rfl
  simp only [hpools, hcall]
  rcases cluster.newCall.2.pools.keeping_cases cluster.newCall.1 Purpose.direct _
    (EndpointPools.disposeAllAs_eq _ cluster.newCall.1 _)
    with ⟨network, hdisposed, h⟩ | ⟨network, _, hdisposed, h⟩
  · simp only [h]
    exact .quiet hdisposed
  · simp only [h]
    exact .closing hdisposed

/-! ## Answers -/

/-- What the end of a call on the pools can do. -/
inductive Absorbed (cluster : Cluster) (ended : Finished Purpose) :
    Cluster × ClusterProgress → Prop where
  /-- It ends a call that was asked for itself. -/
  | direct (hpurpose : ended.purpose = .direct) :
      Absorbed cluster ended (cluster, .finish ended.call (.ofPools ended.outcome))
  /-- It ends a connect call, with or without a connection. -/
  | concluded {key : PartitionKey} {version : Nat} {endpoint : Address}
      (hpurpose : ended.purpose = .connect key version endpoint)
      (hstay : ∀ e, ended.outcome = .failed e → cluster.replans version e = false) :
      Absorbed cluster ended (cluster, concludeConnect ended.call endpoint ended.outcome)
  /-- A connect call is planned anew. -/
  | replanned {key : PartitionKey} {version : Nat} {endpoint : Address} {e : PoolError}
      {result : Cluster × ClusterProgress}
      (hpurpose : ended.purpose = .connect key version endpoint)
      (houtcome : ended.outcome = .failed e) (hgone : cluster.replans version e = true)
      (hattempted : Attempted cluster ended.call key result) :
      Absorbed cluster ended result
  /-- It ends a refresh. -/
  | refresh (hpurpose : ended.purpose = .refresh) :
      Absorbed cluster ended (cluster.endRefresh ended.call .refreshed)

theorem absorbed (cluster : Cluster) (ended : Finished Purpose) :
    Absorbed cluster ended (cluster.absorb ended) := by
  rcases ended with ⟨call, purpose, outcome⟩
  cases purpose with
  | direct => exact .direct rfl
  | refresh => exact .refresh rfl
  | connect key version endpoint =>
      cases outcome with
      | lent pool connection => exact .concluded rfl (by intro e he; cases he)
      | done => exact .concluded rfl (by intro e he; cases he)
      | failed e =>
          simp only [absorb, resumeConnect]
          split
          · rename_i hgone
            exact .replanned rfl rfl hgone (cluster.attempted call key)
          · rename_i hstay
            refine .concluded rfl ?_
            intro other hother
            cases hother
            exact Bool.eq_false_iff.2 hstay

/-- What the answer to a call that waits can do. -/
inductive Answered (cluster : Cluster) (completion : Completion) :
    Cluster × ClusterProgress → Prop where
  /-- No call waits for it. -/
  | ignored (hnone : (cluster.pools.network.complete completion).2 = .none) :
      Answered cluster completion (cluster, .none)
  /-- A refresh has its turn. -/
  | turn {call : CallId} {view : ClusterView} {result : Cluster × ClusterProgress}
      (hadmitted : cluster.refreshes.admitted = some (call, view))
      (hturn : completion = .turn call)
      (hrefreshed : Refreshed (cluster.withQueue { cluster.refreshes with admitted := none })
        call view result) :
      Answered cluster completion result
  /-- A call on the pools waits again. -/
  | waits {network : Network Purpose} {requests : List Request}
      (hcompleted : cluster.pools.network.Completed (network, .ask requests))
      (hresult : cluster.pools.network.complete completion = (network, .ask requests)) :
      Answered cluster completion (cluster.setNetwork network, ⟨requests, []⟩)
  /-- A call on the pools ends. -/
  | ends {network : Network Purpose} {call : CallId} {purpose : Purpose}
      {outcome : PoolOutcome} {result : Cluster × ClusterProgress}
      (hcompleted : cluster.pools.network.Completed (network, .finish call purpose outcome))
      (hresult : cluster.pools.network.complete completion =
        (network, .finish call purpose outcome))
      (habsorbed : Absorbed (cluster.setNetwork network) ⟨call, purpose, outcome⟩ result) :
      Answered cluster completion result

theorem answered_network {cluster : Cluster} (completion : Completion)
    {result : Network Purpose × Progress Purpose}
    (hcompleted : cluster.pools.network.Completed result)
    (hresult : cluster.pools.network.complete completion = result) :
    Answered cluster completion ((cluster.setNetwork result.1).absorbAll result.2) := by
  have hcase := hcompleted
  cases hcompleted with
  | ignored => exact .ignored (by rw [hresult])
  | lent => exact .ends hcase hresult (absorbed _ _)
  | late => exact .waits hcase hresult
  | unreachable => exact .ends hcase hresult (absorbed _ _)
  | discarded => exact .ends hcase hresult (absorbed _ _)
  | lastClosed => exact .ends hcase hresult (absorbed _ _)
  | oneClosed => exact .waits hcase hresult

theorem answered (cluster : Cluster) (completion : Completion) :
    Answered cluster completion (cluster.complete completion) := by
  have hnetwork := answered_network completion (cluster.pools.network.completed completion) rfl
  cases completion with
  | turn call =>
      unfold complete
      simp only
      split
      · rename_i admitted view hadmitted
        split
        · rename_i hsame
          subst hsame
          exact .turn hadmitted rfl (refreshed _ _ _)
        · exact .ignored rfl
      · exact .ignored rfl
  | «opened» call => exact hnetwork
  | unreachable call cause => exact hnetwork
  | closed call connection => exact hnetwork

/-! ## Events -/

/-- What an event can do. -/
inductive Performed (cluster : Cluster) : Event → Cluster × ClusterProgress → Prop where
  | plan {key : PartitionKey} {seeds : Option Pcg32} {built : Nat} :
      Performed cluster (.plan key) (cluster.withDraws seeds built, .none)
  | connect {key : PartitionKey} {result : Cluster × ClusterProgress}
      (hattempted : Attempted cluster.newCall.2 cluster.newCall.1 key result) :
      Performed cluster (.connect key) result
  | release {lease : Lease} {result : Cluster × ClusterProgress}
      (hreleased : Released cluster.newCall.2 cluster.newCall.1 lease.pool lease.connection
        result) :
      Performed cluster (.release lease) result
  /-- Another refresh is under way; this one waits for its turn. -/
  | queued {reports : List Peer} (hbusy : cluster.refreshes.busy = true) :
      Performed cluster (.refresh reports)
        (cluster.newCall.2.withQueue
            { cluster.refreshes with
              waiting := cluster.refreshes.waiting ++
                [(cluster.newCall.1, .ofReports reports)] }, .none)
  | refresh {reports : List Peer} {result : Cluster × ClusterProgress}
      (hfree : cluster.refreshes.busy = false)
      (hrefreshed : Refreshed
        (cluster.newCall.2.withQueue { cluster.refreshes with busy := true })
        cluster.newCall.1 (.ofReports reports) result) :
      Performed cluster (.refresh reports) result
  | shutdown {result : Cluster × ClusterProgress}
      (hshutDown : ShutDown cluster.newCall.2 cluster.newCall.1 result) :
      Performed cluster .shutdown result
  | answer {completion : Completion} {result : Cluster × ClusterProgress}
      (hanswered : Answered cluster completion result) :
      Performed cluster (.answer completion) result

theorem performed (cluster : Cluster) (event : Event) :
    Performed cluster event (cluster.perform event) := by
  cases event with
  | plan key =>
      obtain ⟨seeds, built, hafter⟩ := cluster.plan_snd key
      simp only [perform, hafter]
      exact .plan
  | connect key => exact .connect (attempted _ _ _)
  | release lease => exact .release (released _ _ _)
  | shutdown => exact .shutdown (shutDown _)
  | answer completion => exact .answer (answered _ _)
  | refresh reports =>
      simp only [perform, startRefresh]
      split
      · rename_i hbusy
        exact .queued hbusy
      · rename_i hfree
        exact .refresh (Bool.eq_false_iff.2 hfree) (refreshed _ _ _)

end Cluster
end RingRouting
