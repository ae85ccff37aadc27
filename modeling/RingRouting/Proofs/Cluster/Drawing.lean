import RingRouting.Proofs.Cluster.Growth
import RingRouting.Proofs.Cluster.Planning

/-!
# What a cluster draws from its generator

Where a seed is configured, a cluster owns a generator and gives the next output of it to every
strategy that it has built.  A request for which planning fails earlier draws nothing: its key
has no encoding or no token, or nobody owns the token.  Nothing else draws.

Main definitions:

- `Pcg32.output64`: the outputs of a generator, by number.
- `Planning`: a request that was planned, with what its strategy was built from.
- `Cluster.planningsBy`: the requests that an event has planned.

Main results:

- Theorem `Cluster.planning_made`: what comes of planning a request is up to the factory.
- Theorem `Cluster.plan_drew`: planning draws once for a strategy, and otherwise not.
- Theorem `Cluster.perform_drew`: what an event draws.
-/

namespace RingRouting

/-! ## Outputs by number -/

namespace Pcg32

/-- The generator after some outputs of 64 bits. -/
def skip (generator : Pcg32) : (count : Nat) → Pcg32
  | 0 => generator
  | count + 1 => (generator.skip count).next64.2

/-- An output of 64 bits, by its number from zero on. -/
def output64 (generator : Pcg32) (place : Nat) : UInt64 :=
  (generator.skip place).next64.1

end Pcg32

/-! ## Requests that are planned -/

/-- The error is found before a strategy is asked for. -/
def RouteError.IsEarly : RouteError → Prop
  | key _ | noToken | noReplicas _ => True
  | _ => False

/-- A request that was planned: what its strategy was built from, if it came to that, and what
came of it. -/
structure Planning where
  args : Option StrategyArgs
  outcome : Except RouteError Plan

/-- What comes of planning a request is up to the factory of strategies, if it comes to that. -/
inductive Planning.Made (factory : Factory StrategyArgs Strategy) : Planning → Prop where
  /-- The request is refused before a strategy is asked for. -/
  | refused {e : RouteError} (hearly : e.IsEarly) : Made factory ⟨none, .error e⟩
  /-- The factory refuses to build a strategy. -/
  | unbuilt {args : StrategyArgs} {e : ConfigurationError} (hrefused : factory args = .error e) :
      Made factory ⟨some args, .error (.configuration e)⟩
  /-- The factory builds a strategy, over the replicas of the plan. -/
  | built {args : StrategyArgs} {strategy : Strategy} {token : Token}
      (hbuilt : factory args = .ok strategy) :
      Made factory ⟨some args, .ok ⟨token, args.endpoints, strategy⟩⟩

namespace Cluster

variable {cluster : Cluster} {key : PartitionKey}

/-- What the strategy for a request is built from, if planning comes to that. -/
def strategyArgs? (cluster : Cluster) (key : PartitionKey) : Option StrategyArgs :=
  match cluster.token key with
  | .error _ => none
  | .ok token =>
    if cluster.replicas token = [] then none
    else some {
      endpoints := cluster.rank (cluster.replicas token)
      snitch := cluster.topology.snitch
      origin := cluster.origin
      seed := cluster.nextSeed.1
      words := cluster.entropy cluster.strategiesBuilt }

/-- A request that the cluster plans now. -/
def planning (cluster : Cluster) (key : PartitionKey) : Planning :=
  ⟨cluster.strategyArgs? key, (cluster.plan key).1⟩

/-- What drawing takes from a generator, if there is one: nothing, or one output that is the seed
of one strategy. -/
inductive Drew (seeds : Option Pcg32) : List StrategyArgs → Option Pcg32 → Prop where
  | nothing : Drew seeds [] seeds
  | one {args : StrategyArgs} (hseed : args.seed = seeds.map fun generator => generator.next64.1) :
      Drew seeds [args] (seeds.map fun generator => generator.next64.2)

theorem nextSeed_fst (cluster : Cluster) :
    cluster.nextSeed.1 = cluster.seeds.map fun generator => generator.next64.1 := by
  unfold nextSeed
  split <;> rename_i hseeds <;> simp [hseeds]

theorem nextSeed_seeds (cluster : Cluster) :
    cluster.nextSeed.2.seeds = cluster.seeds.map fun generator => generator.next64.2 := by
  unfold nextSeed
  split <;> rename_i hseeds <;> simp [hseeds]

/-- A configured strategy is built with the next seed, which is drawn. -/
theorem buildStrategy_of_factory {factory : Factory StrategyArgs Strategy}
    (hfactory : cluster.strategyFactory = some factory) (snitch : Option Snitch)
    (ranked : List Address) :
    cluster.buildStrategy snitch ranked =
      (factory ⟨ranked, snitch, cluster.origin, cluster.nextSeed.1,
          cluster.entropy cluster.strategiesBuilt⟩,
        cluster.withDraws cluster.nextSeed.2.seeds (cluster.strategiesBuilt + 1)) := by
  rcases cluster.nextSeed_snd with ⟨seeds, hseed⟩
  have hpair : cluster.nextSeed =
      (cluster.nextSeed.1, cluster.withDraws seeds cluster.strategiesBuilt) := by
    rw [← hseed]
  unfold buildStrategy
  rw [hfactory, hpair]
  rfl

/-- Why a request has no token. -/
theorem isEarly_of_token {e : RouteError} (h : cluster.token key = .error e) : e.IsEarly := by
  rcases cluster.token_cases key with
    ⟨cause, -, htoken⟩ | ⟨octets, -, ⟨-, htoken⟩ | ⟨token, -, htoken⟩⟩
  · rw [h] at htoken
    cases htoken
    trivial
  · rw [h] at htoken
    cases htoken
    trivial
  · rw [h] at htoken
    cases htoken

/-- Planning refuses a request early and leaves the cluster alone, or hands the request's
arguments to the factory and draws their seed. -/
theorem plan_cases {factory : Factory StrategyArgs Strategy}
    (hfactory : cluster.strategyFactory = some factory) (key : PartitionKey) :
    (∃ e, e.IsEarly ∧ cluster.strategyArgs? key = none ∧
      cluster.plan key = (.error e, cluster)) ∨
    ∃ args token, cluster.strategyArgs? key = some args ∧ args.seed = cluster.nextSeed.1 ∧
      (cluster.plan key).1 = (match factory args with
        | .error e => .error (.configuration e)
        | .ok strategy => .ok ⟨token, args.endpoints, strategy⟩) ∧
      (cluster.plan key).2.seeds = cluster.nextSeed.2.seeds := by
  unfold plan strategyArgs?
  cases htoken : cluster.token key with
  | error e => exact .inl ⟨e, isEarly_of_token htoken, rfl, rfl⟩
  | ok token =>
      by_cases hnone : cluster.replicas token = []
      · left
        exact ⟨.noReplicas token, trivial, by simp [hnone], by simp [hnone]⟩
      · right
        have hbuilt := buildStrategy_of_factory hfactory cluster.topology.snitch
          (cluster.rank (cluster.replicas token))
        refine ⟨_, token, if_neg hnone, rfl, ?_⟩
        generalize factory _ = made at hbuilt
        cases made with
        | error e => simp [hnone, hbuilt, withDraws]
        | ok strategy => simp [hnone, hbuilt, withDraws]

/-- What comes of planning a request is up to the factory. -/
theorem planning_made (cluster : Cluster) {factory : Factory StrategyArgs Strategy}
    (hfactory : cluster.strategyFactory = some factory) (key : PartitionKey) :
    (cluster.planning key).Made factory := by
  rcases plan_cases hfactory key with
    ⟨e, hearly, hargs, hplan⟩ | ⟨args, token, hargs, -, hplan, -⟩
  · rw [planning, hargs, hplan]
    exact .refused hearly
  · rw [planning, hargs, hplan]
    cases hmade : factory args with
    | error e => exact .unbuilt hmade
    | ok strategy => exact .built hmade

/-- Planning draws one output for a strategy that is asked for, and otherwise nothing. -/
theorem plan_drew (cluster : Cluster) {factory : Factory StrategyArgs Strategy}
    (hfactory : cluster.strategyFactory = some factory) (key : PartitionKey) :
    Drew cluster.seeds (cluster.planning key).args.toList (cluster.plan key).2.seeds := by
  rcases plan_cases hfactory key with
    ⟨e, -, hargs, hplan⟩ | ⟨args, token, hargs, hseed, -, hdrawn⟩
  · rw [planning, hargs, hplan]
    exact .nothing
  · rw [planning, hargs, hdrawn, nextSeed_seeds]
    rw [nextSeed_fst] at hseed
    exact .one hseed

/-! ## Events -/

/-- The requests that an event plans: that of a plan or of a connect call, and that of a connect
call whose pool is gone with its view. -/
def planningsBy (cluster : Cluster) : Event → List Planning
  | .plan key => [cluster.planning key]
  | .connect key => [cluster.newCall.2.planning key]
  | .answer completion =>
    let network := (cluster.pools.network.complete completion).1
    (cluster.attemptsBy (.answer completion)).map fun attempt =>
      (cluster.setNetwork network).planning attempt.key
  | _ => []

/-- Numbering a call makes no difference to strategies. -/
theorem buildStrategy_newCall (cluster : Cluster) (snitch : Option Snitch)
    (ranked : List Address) :
    (cluster.newCall.2.buildStrategy snitch ranked).1 =
      (cluster.buildStrategy snitch ranked).1 := by
  cases hfactory : cluster.strategyFactory with
  | none =>
      have hnumbered : cluster.newCall.2.strategyFactory = none := hfactory
      rw [buildStrategy_of_none hfactory, buildStrategy_of_none hnumbered]
  | some factory =>
      have hnumbered : cluster.newCall.2.strategyFactory = some factory := hfactory
      rw [buildStrategy_of_factory hfactory, buildStrategy_of_factory hnumbered, nextSeed_fst,
        nextSeed_fst]
      rfl

/-- Numbering a call makes no difference to planning. -/
theorem plan_newCall (cluster : Cluster) (key : PartitionKey) :
    (cluster.newCall.2.plan key).1 = (cluster.plan key).1 := by
  have htoken : cluster.newCall.2.token key = cluster.token key := rfl
  unfold plan
  rw [htoken]
  cases cluster.token key with
  | error e => rfl
  | ok token =>
      have hreplicas : cluster.newCall.2.replicas token = cluster.replicas token := rfl
      have hrank : cluster.newCall.2.rank = cluster.rank := rfl
      have hbuilt := cluster.buildStrategy_newCall cluster.topology.snitch
        (cluster.rank (cluster.replicas token))
      have hsnitch : cluster.newCall.2.topology.snitch = cluster.topology.snitch := rfl
      simp only [hreplicas, hrank, hsnitch]
      split
      · rfl
      · generalize cluster.newCall.2.buildStrategy _ _ = numbered at hbuilt
        generalize cluster.buildStrategy _ _ = unnumbered at hbuilt
        rcases numbered with ⟨made, _⟩
        rcases unnumbered with ⟨_, _⟩
        cases hbuilt
        cases made <;> rfl

/-- An attempt to connect draws what planning draws. -/
theorem attempt_seeds (cluster : Cluster) (call : CallId) (key : PartitionKey) :
    (cluster.attempt call key).1.seeds = (cluster.plan key).2.seeds := by
  unfold attempt
  split
  · rename_i hplan
    rw [hplan]
  · rename_i hplan
    rw [hplan]
    split
    · rfl
    · split <;> rfl

theorem endRefresh_seeds (cluster : Cluster) (call : CallId) (outcome : Outcome) :
    (cluster.endRefresh call outcome).1.seeds = cluster.seeds := by
  rcases cluster.endRefresh_eq call outcome with ⟨queue, requests, hend⟩
  rw [hend]
  rfl

/-- A refresh draws nothing. -/
theorem Refreshed.seeds {call : CallId} {view : ClusterView} {result : Cluster × ClusterProgress}
    (h : Refreshed cluster call view result) : result.1.seeds = cluster.seeds := by
  cases h with
  | refused => exact endRefresh_seeds _ _ _
  | unopened => exact endRefresh_seeds _ _ _
  | closing => rfl
  | published => exact endRefresh_seeds _ _ _

/-- The end of a call on the pools draws what the attempt draws that follows it. -/
theorem absorb_drew (cluster : Cluster) {factory : Factory StrategyArgs Strategy}
    (hfactory : cluster.strategyFactory = some factory) (ended : Finished Purpose) :
    Drew cluster.seeds
      ((cluster.attemptAfter ended).toList.filterMap fun attempt =>
        (cluster.planning attempt.key).args)
      (cluster.absorb ended).1.seeds := by
  rcases ended with ⟨call, purpose, outcome⟩
  cases purpose with
  | direct => exact .nothing
  | refresh =>
      rw [absorb, endRefresh_seeds]
      exact .nothing
  | connect key version endpoint =>
      cases outcome with
      | lent pool connection => exact .nothing
      | done => exact .nothing
      | failed e =>
          by_cases hgone : cluster.replans version e = true
          · have hdrew := cluster.plan_drew hfactory key
            rw [← attempt_seeds cluster call key] at hdrew
            simp only [attemptAfter, absorb, resumeConnect, hgone, if_true]
            exact hdrew
          · simp only [attemptAfter, absorb, resumeConnect, hgone]
            exact .nothing

/-- Where one call has ended on the pools, that end is all there is to take up. -/
theorem absorbAll_finish (cluster : Cluster) (call : CallId) (purpose : Purpose)
    (outcome : PoolOutcome) :
    (cluster.absorbAll (.finish call purpose outcome)).1 =
      (cluster.absorb ⟨call, purpose, outcome⟩).1 :=
  rfl

/-- An answer draws what the attempt draws that it brings about. -/
theorem complete_drew (cluster : Cluster) {factory : Factory StrategyArgs Strategy}
    (hfactory : cluster.strategyFactory = some factory) (completion : Completion) :
    Drew cluster.seeds ((cluster.planningsBy (.answer completion)).filterMap Planning.args)
      (cluster.complete completion).1.seeds := by
  have hanswered := cluster.answered completion
  generalize hresult : cluster.complete completion = result at hanswered
  cases hanswered with
  | ignored hnone =>
      simp only [planningsBy, attemptsBy, hnone]
      exact .nothing
  | turn _ hturn hrefreshed =>
      subst hturn
      rw [hrefreshed.seeds]
      exact .nothing
  | waits _ hwaits =>
      simp only [planningsBy, attemptsBy, hwaits]
      exact .nothing
  | @ends network call purpose outcome _ _ hends =>
      -- Of all that an answer does, only taking up the end of a call can plan again.
      have habsorbed : cluster.complete completion =
          (cluster.setNetwork network).absorbAll (.finish call purpose outcome) := by
        cases completion with
        | turn => cases hends
        | «opened» => simp only [complete, hends]
        | unreachable => simp only [complete, hends]
        | closed => simp only [complete, hends]
      have hdrew := (cluster.setNetwork network).absorb_drew hfactory ⟨call, purpose, outcome⟩
      rw [← hresult, habsorbed, absorbAll_finish, planningsBy, attemptsBy_of_ends hends, hends,
        List.filterMap_map]
      exact hdrew

/-- An event draws one output for each strategy that it asks for, and else nothing. -/
theorem perform_drew (cluster : Cluster) {factory : Factory StrategyArgs Strategy}
    (hfactory : cluster.strategyFactory = some factory) (event : Event) :
    Drew cluster.seeds ((cluster.planningsBy event).filterMap Planning.args)
      (cluster.perform event).1.seeds := by
  have hperformed := cluster.performed event
  cases event with
  | plan key => exact cluster.plan_drew hfactory key
  | connect key =>
      have hdrew := cluster.newCall.2.plan_drew hfactory key
      rw [← attempt_seeds _ cluster.newCall.1] at hdrew
      exact hdrew
  | answer completion => exact cluster.complete_drew hfactory completion
  | release lease =>
      generalize cluster.perform (.release lease) = result at hperformed ⊢
      cases hperformed with
      | release hreleased => cases hreleased <;> exact .nothing
  | refresh reports =>
      generalize cluster.perform (.refresh reports) = result at hperformed ⊢
      cases hperformed with
      | queued => exact .nothing
      | refresh _ hrefreshed =>
          rw [hrefreshed.seeds]
          exact .nothing
  | shutdown =>
      generalize cluster.perform .shutdown = result at hperformed ⊢
      cases hperformed with
      | shutdown hshutDown => cases hshutDown <;> exact .nothing

/-- Whatever an event plans is up to the factory. -/
theorem made_of_mem_planningsBy {factory : Factory StrategyArgs Strategy}
    (hfactory : cluster.strategyFactory = some factory) {event : Event} {planning : Planning}
    (h : planning ∈ cluster.planningsBy event) : planning.Made factory := by
  cases event with
  | plan key =>
      rw [List.mem_singleton.1 h]
      exact cluster.planning_made hfactory key
  | connect key =>
      rw [List.mem_singleton.1 h]
      exact cluster.newCall.2.planning_made hfactory key
  | answer completion =>
      rcases List.mem_map.1 h with ⟨attempt, -, rfl⟩
      let network := (cluster.pools.network.complete completion).1
      exact (cluster.setNetwork network).planning_made hfactory attempt.key
  | release => cases h
  | refresh => cases h
  | shutdown => cases h

end Cluster

/-! ## Building -/

namespace ClusterBuilder

/-- Trying a strategy out takes one output, which is its seed. -/
theorem seeds_of_tryOut {cluster after : Cluster} {factory : Factory StrategyArgs Strategy}
    (hfactory : cluster.strategyFactory = some factory) (h : tryOut cluster = .ok after) :
    ∃ args strategy, args.endpoints = [] ∧ factory args = .ok strategy ∧
      Cluster.Drew cluster.seeds [args] after.seeds := by
  unfold tryOut at h
  rcases Except.bind_eq_ok h with ⟨topology, -, h⟩
  rw [Cluster.buildStrategy_of_factory hfactory] at h
  rcases Except.bind_eq_ok h with ⟨strategy, hstrategy, h⟩
  cases h
  refine ⟨_, strategy, rfl, hstrategy, ?_⟩
  have hdrawn := cluster.nextSeed_seeds
  simp only [Cluster.withDraws, hdrawn]
  exact .one cluster.nextSeed_fst

/-- A cluster that was built with a seed has given the first output of its generator to the
strategy that was tried out, and the second one comes next. -/
theorem seeds_of_build {builder : ClusterBuilder} {entropy : Nat → Nat → UInt32}
    {cluster : Cluster} {seed : UInt64} {factory : Factory StrategyArgs Strategy}
    (hbuild : builder.build entropy = .ok cluster)
    (hseed : builder.config.strategySeed = some seed)
    (hstrategy : builder.activator.resolveStrategy builder.config.strategy = .ok (some factory)) :
    cluster.seeds = some ((Pcg32.ofSeed seed).skip 1) ∧
      ∃ args strategy, args.endpoints = [] ∧
        args.seed = some ((Pcg32.ofSeed seed).output64 0) ∧ factory args = .ok strategy := by
  have hsteps := hbuild
  unfold build at hsteps
  rcases Except.bind_eq_ok hsteps with ⟨partitioner, hpartitioner, hsteps⟩
  rcases Except.bind_eq_ok hsteps with ⟨snitch, hsnitch, hsteps⟩
  rcases Except.bind_eq_ok hsteps with ⟨found, hfound, hsteps⟩
  rcases Except.bind_eq_ok hsteps with ⟨pool, hpool, -⟩
  rw [hstrategy] at hfound
  cases hfound
  rw [build_of_found entropy hpartitioner hsnitch hstrategy hpool] at hbuild
  rcases Except.bind_eq_ok hbuild with ⟨blank, htry, hpeopled⟩
  rcases seeds_of_tryOut rfl htry with ⟨args, strategy, hendpoints, hmade, hdrew⟩
  have hsame : cluster.seeds = blank.seeds := by
    rcases peopled_eq_ok hpeopled with rfl | hpublish
    · rfl
    · rcases Cluster.publish_eq_ok hpublish with ⟨topology, -, -, rfl⟩
      rfl
  have hgenerator : (builder.untried entropy partitioner snitch (some factory) pool).seeds =
      some (.ofSeed seed) := by
    change builder.config.strategySeed.map Pcg32.ofSeed = _
    rw [hseed, Option.map_some]
  rw [hgenerator] at hdrew
  rw [hsame]
  generalize blank.seeds = seeds at hdrew
  cases hdrew with
  | one hargs => exact ⟨rfl, args, strategy, hendpoints, hargs, hmade⟩

end ClusterBuilder
end RingRouting
