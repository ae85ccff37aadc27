import Mathlib.Data.List.Forall2
import RingRouting.Proofs.Cluster.Drawing
import RingRouting.Proofs.Planning.Questions
import RingRouting.Proofs.Topology.Members

/-!
# Plans that can be reproduced

The callers of a cluster keep the plans that they are given, and ask them for picks and fallbacks
whenever they like.  With a seed and random choice, the plans of a cluster get their seeds one
after another, whatever else happens in between: events that plan nothing, requests that are
refused, and questions to other plans.  So two clusters with the same seed give the same answers
from plans over the same replicas.

Main definitions:

- `HeldPlan`: a plan, with what it was asked and what it answered.
- `Usage.run`: a cluster and the plans that its callers hold, after some uses.
- `Usage.InOrder`: the seeds of strategies are the outputs of one generator in order.

Main results:

- Theorem `Usage.inOrder_run`: seeds are drawn in order.
- Theorem `Usage.random_run`: what random plans answer.
- Theorem `Usage.seeded_choices_reproducible`: seeds, what draws none, and the answers of two
  clusters with the same seed.
-/

namespace RingRouting

/-! ## Plans that are held -/

/-- A plan as it stands, with what it was asked and what it answered, in order. -/
structure HeldPlan where
  plan : Plan
  questions : List Question
  answers : List Reply

namespace HeldPlan

/-- A plan that was asked nothing yet. -/
def new (plan : Plan) : HeldPlan :=
  ⟨plan, [], []⟩

/-- The plan after one more question. -/
def ask (held : HeldPlan) (question : Question) : HeldPlan where
  plan := { held.plan with strategy := (held.plan.strategy.ask question).2 }
  questions := held.questions ++ [question]
  answers := held.answers ++ [(held.plan.strategy.ask question).1]

/-- What the plan has answered is what the strategy answers. -/
structure Follows (held : HeldPlan) (strategy : Strategy) : Prop where
  answers : held.answers = strategy.answers held.questions
  strategy : held.plan.strategy = strategy.after held.questions

theorem follows_new (plan : Plan) : (new plan).Follows plan.strategy :=
  ⟨rfl, rfl⟩

theorem Follows.ask {held : HeldPlan} {strategy : Strategy} (h : held.Follows strategy)
    (question : Question) : (held.ask question).Follows strategy := by
  constructor
  · simp only [HeldPlan.ask, h.answers, h.strategy, Strategy.answers_append]
    rfl
  · simp only [HeldPlan.ask, h.strategy, Strategy.after_append]
    rfl

end HeldPlan

/-! ## Using a cluster -/

/-- What can happen where plans are held. -/
inductive Use where
  /-- Something happens to the cluster. -/
  | event (event : Event)
  /-- A plan is asked; plans are numbered in the order in which they were made. -/
  | ask (place : Nat) (question : Question)

/-- A cluster, and the plans that its callers hold. -/
structure Usage where
  history : History
  /-- The requests that were planned, in order. -/
  plannings : List Planning
  /-- The plans that came of them, in order. -/
  held : List HeldPlan

/-- A new plan as the event leaves it: a connect call has its plan pick once. -/
def Event.handOver : Event → HeldPlan → HeldPlan
  | .plan _, held => held
  | _, held => held.ask .pick

/-- The plan that came of planning a request, if one came. -/
def Event.heldPlan? (event : Event) (planning : Planning) : Option HeldPlan :=
  match planning.outcome with
  | .ok made => some (event.handOver (.new made))
  | .error _ => none

namespace Usage

/-- A cluster that nobody has used. -/
def start (cluster : Cluster) : Usage :=
  ⟨.start cluster, [], []⟩

/-- After one more event that was possible. -/
def extend (usage : Usage) (event : Event) : Usage :=
  let plannings := usage.history.cluster.planningsBy event
  { history := usage.history.extend event
    plannings := usage.plannings ++ plannings
    held := usage.held ++ plannings.filterMap event.heldPlan? }

/-- After one more use; an event that is not possible changes nothing, nor does a question to a
plan that was not made. -/
def step (usage : Usage) : Use → Usage
  | .event event => if event.isPossible usage.history.leases then usage.extend event else usage
  | .ask place question => { usage with held := usage.held.modify place (·.ask question) }

/-- After several uses. -/
def run (usage : Usage) (uses : List Use) : Usage :=
  uses.foldl step usage

/-- What strategies were built from, in order. -/
def drawn (usage : Usage) : List StrategyArgs :=
  usage.plannings.filterMap Planning.args

/-- What one use keeps, several uses keep. -/
theorem run_induction (Holds : Usage → Prop)
    (hextend : ∀ usage event, Holds usage → Holds (usage.extend event))
    (hask : ∀ usage place question, Holds usage → Holds (usage.step (.ask place question)))
    {usage : Usage} (hstart : Holds usage) (uses : List Use) : Holds (usage.run uses) := by
  induction uses generalizing usage with
  | nil => exact hstart
  | cons use uses ih =>
      apply ih
      cases use with
      | ask place question => exact hask usage place question hstart
      | event event =>
          rw [step]
          split
          · exact hextend usage event hstart
          · exact hstart

/-- A request that can be planned adds its plan to those that are held. -/
theorem held_step_plan (usage : Usage) (key : PartitionKey) :
    (usage.step (.event (.plan key))).held =
      usage.held ++ ((usage.history.cluster.plan key).1.toOption.map HeldPlan.new).toList := by
  have hsteps : (usage.step (.event (.plan key))).held =
      usage.held ++ [usage.history.cluster.planning key].filterMap (Event.plan key).heldPlan? := rfl
  rw [hsteps]
  cases hplan : (usage.history.cluster.plan key).1 with
  | error e => simp [Cluster.planning, Event.heldPlan?, hplan, Except.toOption]
  | ok plan => simp [Cluster.planning, Event.heldPlan?, Event.handOver, hplan, Except.toOption]

/-- A plan that is asked for a pick and a fallback, where none was held before. -/
theorem held_run_plan {usage : Usage} {key : PartitionKey} {plan : Plan} (hnone : usage.held = [])
    (hplan : (usage.history.cluster.plan key).1 = .ok plan) :
    (usage.run [.event (.plan key), .ask 0 .pick, .ask 0 .fallback]).held =
      [((HeldPlan.new plan).ask .pick).ask .fallback] := by
  have hstep := usage.held_step_plan key
  rw [hnone, hplan] at hstep
  simp only [run, List.foldl_cons, List.foldl_nil]
  simp [step] at hstep ⊢
  rw [hstep]
  rfl

/-! ## Seeds in order -/

/-- Every strategy was built from the next output of a generator, from the second output on, and
what came of planning is up to the factory. -/
structure InOrder (generator : Pcg32) (factory : Factory StrategyArgs Strategy) (usage : Usage) :
    Prop where
  configured : usage.history.cluster.strategyFactory = some factory
  made : ∀ planning ∈ usage.plannings, planning.Made factory
  seeds : ∀ place args, usage.drawn[place]? = some args →
    args.seed = some (generator.output64 (place + 1))
  next : usage.history.cluster.seeds = some (generator.skip (usage.drawn.length + 1))

variable {generator : Pcg32} {factory : Factory StrategyArgs Strategy} {usage : Usage}

theorem drawn_extend (usage : Usage) (event : Event) :
    (usage.extend event).drawn =
      usage.drawn ++ (usage.history.cluster.planningsBy event).filterMap Planning.args := by
  simp [drawn, extend]

/-- What was drawn in order, and what is drawn next, is in order. -/
theorem seeds_append {drawn new : List StrategyArgs} {after : Option Pcg32}
    (hseeds : ∀ place args, drawn[place]? = some args →
      args.seed = some (generator.output64 (place + 1)))
    (hdrew : Cluster.Drew (some (generator.skip (drawn.length + 1))) new after) :
    (∀ place args, (drawn ++ new)[place]? = some args →
      args.seed = some (generator.output64 (place + 1))) ∧
    after = some (generator.skip ((drawn ++ new).length + 1)) := by
  cases hdrew with
  | nothing => simpa using hseeds
  | one hseed =>
      refine ⟨?_, ?_⟩
      · intro place args hargs
        rw [List.getElem?_append] at hargs
        split at hargs
        · exact hseeds place args hargs
        · rename_i hplace
          rw [List.getElem?_singleton] at hargs
          split at hargs
          · rename_i hlast
            cases hargs
            have hsame : place = drawn.length := by omega
            rw [hseed, hsame]
            rfl
          · cases hargs
      · rw [List.length_append]
        rfl

theorem InOrder.extend (h : usage.InOrder generator factory) (event : Event) :
    (usage.extend event).InOrder generator factory := by
  have hdrew := usage.history.cluster.perform_drew h.configured event
  rw [h.next] at hdrew
  have hseeds := seeds_append h.seeds hdrew
  rw [← usage.drawn_extend event] at hseeds
  refine ⟨?_, ?_, hseeds.1, hseeds.2⟩
  · have hsettings := (usage.history.cluster.performed event).settings
    exact (congrArg Settings.strategyFactory hsettings).trans h.configured
  · intro planning hplanning
    rcases List.mem_append.1 hplanning with hold | hnew
    · exact h.made planning hold
    · exact Cluster.made_of_mem_planningsBy h.configured hnew

/-- Whatever a cluster is used for, its strategies get their seeds in order. -/
theorem inOrder_run (h : usage.InOrder generator factory) (uses : List Use) :
    (usage.run uses).InOrder generator factory := by
  refine run_induction (fun later => later.InOrder generator factory) ?_ ?_ h uses
  · intro later event hlater
    exact hlater.extend event
  · intro later place question hlater
    exact ⟨hlater.configured, hlater.made, hlater.seeds, hlater.next⟩

/-- A cluster that was built with a seed has used one output. -/
theorem inOrder_start {builder : ClusterBuilder} {entropy : Nat → Nat → UInt32}
    {cluster : Cluster} {seed : UInt64} (hbuild : builder.build entropy = .ok cluster)
    (hseed : builder.config.strategySeed = some seed)
    (hstrategy : builder.activator.resolveStrategy builder.config.strategy = .ok (some factory)) :
    (start cluster).InOrder (.ofSeed seed) factory := by
  have hconfigured := (ClusterBuilder.build_eq_ok hbuild).1.strategy
  rw [hstrategy] at hconfigured
  refine ⟨(Except.ok.inj hconfigured).symm, ?_, ?_,
    (ClusterBuilder.seeds_of_build hbuild hseed hstrategy).1⟩
  · intro planning hplanning
    cases hplanning
  · intro place args hargs
    cases hargs

/-! ## Random plans -/

/-- The plan answers as the random strategy that is built from the arguments. -/
structure RandomFrom (args : StrategyArgs) (held : HeldPlan) : Prop where
  replicas : held.plan.replicas = args.endpoints
  follows : ∀ seed, args.seed = some seed → held.Follows (.seededRandom args.endpoints seed)

theorem RandomFrom.ask {args : StrategyArgs} {held : HeldPlan} (h : RandomFrom args held)
    (question : Question) : RandomFrom args (held.ask question) :=
  ⟨h.replicas, fun seed hseed => (h.follows seed hseed).ask question⟩

theorem RandomFrom.handOver {args : StrategyArgs} {held : HeldPlan} (h : RandomFrom args held)
    (event : Event) : RandomFrom args (event.handOver held) := by
  unfold Event.handOver
  split
  · exact h
  · exact h.ask .pick

/-- A request that came to a random strategy has come to a plan. -/
theorem randomFrom_of_made {planning : Planning} (h : planning.Made Activator.randomStrategy)
    (event : Event) :
    planning.args = none ∧ event.heldPlan? planning = none ∨
      ∃ args held, planning.args = some args ∧ event.heldPlan? planning = some held ∧
        RandomFrom args held := by
  cases h with
  | refused => exact .inl ⟨rfl, rfl⟩
  | @unbuilt args e hrefused =>
      cases hseed : args.seed <;> simp [Activator.randomStrategy, hseed] at hrefused
  | @built args strategy token hbuilt =>
      right
      have hstrategy : ∀ seed, args.seed = some seed →
          strategy = .seededRandom args.endpoints seed := by
        intro seed hseed
        simpa [Activator.randomStrategy, hseed, eq_comm] using hbuilt
      have hnew : RandomFrom args (.new ⟨token, args.endpoints, strategy⟩) := by
        refine ⟨rfl, ?_⟩
        intro seed hseed
        rw [← hstrategy seed hseed]
        exact HeldPlan.follows_new _
      exact ⟨args, _, rfl, rfl, hnew.handOver event⟩

section Rows

variable {α β γ : Type} {R : β → γ → Prop}

/-- Two rows that are taken from one list, each element giving to both or to none. -/
theorem forall₂_filterMap {list : List α} {f : α → Option β} {g : α → Option γ}
    (h : ∀ a ∈ list, f a = none ∧ g a = none ∨ ∃ b c, f a = some b ∧ g a = some c ∧ R b c) :
    List.Forall₂ R (list.filterMap f) (list.filterMap g) := by
  induction list with
  | nil => exact .nil
  | cons a list ih =>
      have hrest := ih fun later hlater => h later (List.mem_cons_of_mem _ hlater)
      rcases h a List.mem_cons_self with ⟨hf, hg⟩ | ⟨b, c, hf, hg, hR⟩
      · rwa [List.filterMap_cons_none hf, List.filterMap_cons_none hg]
      · rw [List.filterMap_cons_some hf, List.filterMap_cons_some hg]
        exact .cons hR hrest

/-- Changing one element of the second row in a way that the relation allows. -/
theorem forall₂_modify {change : γ → γ} (hchange : ∀ b c, R b c → R b (change c))
    {bs : List β} {cs : List γ} (h : List.Forall₂ R bs cs) (place : Nat) :
    List.Forall₂ R bs (cs.modify place change) := by
  induction h generalizing place with
  | nil => simp
  | cons hR hrest ih =>
      cases place with
      | zero => exact .cons (hchange _ _ hR) hrest
      | succ place => exact .cons hR (ih place)

/-- The partner of an element of the second row. -/
theorem exists_of_getElem?_right {bs : List β} {cs : List γ} (h : List.Forall₂ R bs cs)
    {place : Nat} {c : γ} (hc : cs[place]? = some c) : ∃ b, bs[place]? = some b ∧ R b c := by
  induction h generalizing place with
  | nil => cases hc
  | cons hR hrest ih =>
      cases place with
      | zero =>
          cases hc
          exact ⟨_, rfl, hR⟩
      | succ place => exact ih hc

end Rows

/-- Under random choice every strategy that was asked for has become the strategy of a plan, and
the plan answers as that strategy does. -/
theorem random_run {usage : Usage} (h : usage.InOrder generator Activator.randomStrategy)
    (hheld : List.Forall₂ RandomFrom usage.drawn usage.held) (uses : List Use) :
    List.Forall₂ RandomFrom (usage.run uses).drawn (usage.run uses).held := by
  -- That the factory stays the configured one is part of what a use keeps: a plan is told by its
  -- arguments only because that factory has built its strategy.
  have hrun : (usage.run uses).InOrder generator Activator.randomStrategy ∧
      List.Forall₂ RandomFrom (usage.run uses).drawn (usage.run uses).held := by
    refine run_induction (fun later => later.InOrder generator Activator.randomStrategy ∧
      List.Forall₂ RandomFrom later.drawn later.held) ?_ ?_ ⟨h, hheld⟩ uses
    · rintro later event ⟨hlater, hplans⟩
      refine ⟨hlater.extend event, ?_⟩
      rw [drawn_extend]
      apply List.rel_append hplans
      apply forall₂_filterMap
      intro planning hplanning
      have hmade := Cluster.made_of_mem_planningsBy hlater.configured hplanning
      exact randomFrom_of_made hmade event
    · rintro later place question ⟨hlater, hplans⟩
      refine ⟨⟨hlater.configured, hlater.made, hlater.seeds, hlater.next⟩, ?_⟩
      exact forall₂_modify (fun _ _ hkept => hkept.ask question) hplans place
  exact hrun.2

/-- The answers of a random plan are told by its replicas and its number. -/
theorem InOrder.follows (h : usage.InOrder generator Activator.randomStrategy)
    (hheld : List.Forall₂ RandomFrom usage.drawn usage.held) {place : Nat} {held : HeldPlan}
    (hplan : usage.held[place]? = some held) :
    held.Follows (.seededRandom held.plan.replicas (generator.output64 (place + 1))) := by
  rcases exists_of_getElem?_right hheld hplan with ⟨args, hargs, hrandom⟩
  rw [hrandom.replicas]
  exact hrandom.follows _ (h.seeds place args hargs)

/-! ## Uses that draw nothing -/

/-- What leaves a generator alone: a request that is refused early, refreshes, leases that are
given back, shutdowns, answers that no connect call is planned anew for, and questions to
plans. -/
inductive Idle (usage : Usage) : Use → Prop where
  | unplanned {key : PartitionKey} {e : RouteError}
      (hplan : (usage.history.cluster.plan key).1 = .error e) (hearly : e.IsEarly) :
      Idle usage (.event (.plan key))
  | unconnected {key : PartitionKey} {e : RouteError}
      (hplan : (usage.history.cluster.plan key).1 = .error e) (hearly : e.IsEarly) :
      Idle usage (.event (.connect key))
  | release {lease : Lease} : Idle usage (.event (.release lease))
  | refresh {reports : List Peer} : Idle usage (.event (.refresh reports))
  | shutdown : Idle usage (.event .shutdown)
  | answer {completion : Completion}
      (hnone : usage.history.cluster.attemptsBy (.answer completion) = []) :
      Idle usage (.event (.answer completion))
  | ask {place : Nat} {question : Question} : Idle usage (.ask place question)

/-- A request that was refused early was not handed to a factory. -/
theorem args_of_isEarly {planning : Planning} {e : RouteError} (h : planning.Made factory)
    (hplan : planning.outcome = .error e) (hearly : e.IsEarly) : planning.args = none := by
  cases h with
  | refused => rfl
  | unbuilt =>
      cases hplan
      exact hearly.elim
  | built => cases hplan

/-- What leaves a generator alone asks for no strategy. -/
theorem Idle.asks_none {event : Event} (hconfigured : usage.history.cluster.strategyFactory =
      some factory) (h : usage.Idle (.event event)) :
    (usage.history.cluster.planningsBy event).filterMap Planning.args = [] := by
  cases h with
  | @unplanned key e hplan hearly =>
      have hmade := usage.history.cluster.planning_made hconfigured key
      have hnone := args_of_isEarly hmade hplan hearly
      rw [Cluster.planningsBy, List.filterMap_cons_none hnone, List.filterMap_nil]
  | @unconnected key e hplan hearly =>
      have hmade := usage.history.cluster.newCall.2.planning_made hconfigured key
      rw [← Cluster.plan_newCall] at hplan
      have hnone := args_of_isEarly hmade hplan hearly
      rw [Cluster.planningsBy, List.filterMap_cons_none hnone, List.filterMap_nil]
  | release => rfl
  | refresh => rfl
  | shutdown => rfl
  | answer hnone =>
      rw [Cluster.planningsBy, hnone]
      rfl

/-- What leaves a generator alone. -/
theorem Idle.seeds {use : Use} (h : usage.Idle use)
    (hconfigured : usage.history.cluster.strategyFactory = some factory) :
    (usage.step use).history.cluster.seeds = usage.history.cluster.seeds := by
  cases use with
  | ask => rfl
  | event event =>
      rw [step]
      split
      · have hdrew := usage.history.cluster.perform_drew hconfigured event
        rw [h.asks_none hconfigured] at hdrew
        change (usage.history.cluster.perform event).1.seeds = _
        generalize (usage.history.cluster.perform event).1.seeds = after at hdrew ⊢
        cases hdrew
        rfl
      · rfl

end Usage

/-! ## Two clusters with the same seed -/

namespace ClusterBuilder

/-- A builder with a seed that names no policy but random choice. -/
def seeded (seed : UInt64) (known : List Peer) : ClusterBuilder where
  config := { ClusterConfig.default with
    partitioner := "", strategy := "RandomStrategy", pool := ⟨"", 1⟩, strategySeed := some seed }
  activator := .defaults
  knownPeers := known

theorem resolveStrategy_seeded (seed : UInt64) (known : List Peer) :
    (seeded seed known).activator.resolveStrategy (seeded seed known).config.strategy =
      .ok (some Activator.randomStrategy) := by
  have hname : Registry.StandsFor "RandomStrategy" "RandomStrategy" := .inl (by decide +kernel)
  exact Activator.resolveStrategy_eq_some_iff.2 (.inl ⟨hname, rfl⟩)

/-- Where a key has a token and somebody owns it, there is a plan over its replicas in ring
order. -/
theorem plan_of_seeded {seed : UInt64} {known : List Peer} {entropy : Nat → Nat → UInt32}
    {cluster : Cluster} (hbuild : (seeded seed known).build entropy = .ok cluster)
    (events : List Event) (key : PartitionKey) (token : Token) (view : ClusterView)
    (hview : ((History.start cluster).run events).cluster.topology.view.peers = view.peers)
    (htoken : ((History.start cluster).run events).cluster.token key = .ok token)
    (hpeers : view.peers ≠ []) :
    ∃ plan, (((History.start cluster).run events).cluster.plan key).1 = .ok plan ∧
      plan.replicas = (view.replicas token 3).map Peer.address ∧
      plan.replicas.length = min 3 view.peers.length := by
  rw [← ClusterView.replicas_eq_of_peers_eq hview, ← hview]
  rw [← hview] at hpeers
  have hpolicies := History.strategy_always_built rfl hbuild events
  rcases hpolicies with ⟨hconfigures, hlibrary, hbuilt, hstrategies⟩
  rcases (Cluster.plan_ok_iff hstrategies key).2 ⟨⟨token, htoken⟩, hpeers⟩ with ⟨plan, hplan⟩
  have hplanned := (Cluster.plan_eq_ok hlibrary hplan).1
  rw [htoken] at hplanned
  cases hplanned
  have hcorrect := Cluster.correct_of_plan hconfigures hbuilt hlibrary hplan
  exact ⟨plan, hplan, hcorrect.inRingOrder (.inr rfl), hcorrect.length⟩

end ClusterBuilder

namespace Usage

/-- A cluster with a seed and a strategy has given the first output of its generator to the
strategy that was tried out when it was built.  Whatever it is used for, the strategies that it
asks for after that get the following outputs one by one, and what asks for none leaves the
generator alone.  So under random choice, the plans of any two clusters with the same seed, used
in any two ways, give the same answers to the same questions, where plans of the same number are
over the same replicas. -/
theorem seeded_choices_reproducible {builder : ClusterBuilder} {entropy : Nat → Nat → UInt32}
    {cluster : Cluster} {seed : UInt64} {factory : Factory StrategyArgs Strategy}
    (hbuild : builder.build entropy = .ok cluster)
    (hseed : builder.config.strategySeed = some seed)
    (hstrategy : builder.activator.resolveStrategy builder.config.strategy = .ok (some factory))
    (uses : List Use) :
    let generator := Pcg32.ofSeed seed
    let now := (start cluster).run uses
    (∃ args strategy, args.endpoints = [] ∧ args.seed = some (generator.output64 0) ∧
      factory args = .ok strategy) ∧
    now.InOrder generator factory ∧
    (∀ use, now.Idle use → (now.step use).history.cluster.seeds = now.history.cluster.seeds) ∧
    (factory = Activator.randomStrategy →
      ∀ (twinBuilder : ClusterBuilder) (twinEntropy : Nat → Nat → UInt32) (twinCluster : Cluster)
        (twinUses : List Use),
      twinBuilder.build twinEntropy = .ok twinCluster →
      twinBuilder.config.strategySeed = some seed →
      twinBuilder.activator.resolveStrategy twinBuilder.config.strategy =
        .ok (some Activator.randomStrategy) →
      ∀ (place : Nat) (held twin : HeldPlan), now.held[place]? = some held →
        ((start twinCluster).run twinUses).held[place]? = some twin →
        held.plan.replicas = twin.plan.replicas →
        ∀ count, held.questions.take count = twin.questions.take count →
          held.answers.take count = twin.answers.take count) := by
  intro generator now
  have hstart := inOrder_start hbuild hseed hstrategy
  have hnow : now.InOrder generator factory := inOrder_run hstart uses
  refine ⟨(ClusterBuilder.seeds_of_build hbuild hseed hstrategy).2, hnow, ?_, ?_⟩
  · intro use hidle
    exact hidle.seeds hnow.configured
  · rintro rfl twinBuilder twinEntropy twinCluster twinUses htwinBuild htwinSeed htwinStrategy
      place held twin hheld htwin hreplicas count hquestions
    have htwinStart := inOrder_start htwinBuild htwinSeed htwinStrategy
    -- A plan is told by its replicas and its number alone, so two runs need not be compared
    -- step by step.
    have hfollows := hnow.follows (random_run hstart .nil uses) hheld
    have htwinFollows :=
      (inOrder_run htwinStart twinUses).follows (random_run htwinStart .nil twinUses) htwin
    rw [hfollows.answers, htwinFollows.answers, Strategy.take_answers, Strategy.take_answers,
      hquestions, hreplicas]

/-- One cluster knows two nodes from the start; the other refuses a request before it hears of
them.  Their first plans give the same pick and the same fallback. -/
theorem seeded_choices_reproducible_of_late_view :
    let key : PartitionKey := .single (.int 1)
    let nodes : List Peer := [.numbered 1, .numbered 2]
    let uses : List Use := [.event (.plan key), .ask 0 .pick, .ask 0 .fallback]
    ∃ early late held other,
      (ClusterBuilder.seeded 42 nodes).build (fun _ _ => 0) = .ok early ∧
      (ClusterBuilder.seeded 42 []).build (fun _ _ => 0) = .ok late ∧
      ((start early).run uses).held = [held] ∧
      ((start late).run (.event (.plan key) :: .event (.refresh nodes) :: uses)).held = [other] ∧
      held.plan.replicas.length = 2 ∧ held.answers.length = 2 ∧ held.answers = other.answers := by
  have hearly : ∃ early plan,
      (ClusterBuilder.seeded 42 [.numbered 1, .numbered 2]).build (fun _ _ => 0) = .ok early ∧
      (early.plan (.single (.int 1))).1 = .ok plan ∧
      plan.replicas = ((ClusterView.ofReports [.numbered 1, .numbered 2]).replicas
        ⟨-4069959284402364209⟩ 3).map Peer.address ∧ plan.replicas.length = 2 := by
    have hbuild := Eq.refl
      ((ClusterBuilder.seeded 42 [.numbered 1, .numbered 2]).build fun _ _ => 0)
    rcases ClusterBuilder.plan_of_seeded hbuild [] (.single (.int 1)) ⟨-4069959284402364209⟩
      (.ofReports [.numbered 1, .numbered 2]) (by decide +kernel) (by decide +kernel)
      (by decide) with ⟨plan, hplan, hreplicas⟩
    exact ⟨_, plan, hbuild, hplan, hreplicas⟩
  have hlate : ∃ late plan,
      (ClusterBuilder.seeded 42 []).build (fun _ _ => 0) = .ok late ∧
      (late.plan (.single (.int 1))).1.toOption.isSome = false ∧
      (((History.start late).run [.plan (.single (.int 1)),
        .refresh [.numbered 1, .numbered 2]]).cluster.plan (.single (.int 1))).1 = .ok plan ∧
      plan.replicas = ((ClusterView.ofReports [.numbered 1, .numbered 2]).replicas
        ⟨-4069959284402364209⟩ 3).map Peer.address ∧ plan.replicas.length = 2 := by
    have hbuild := Eq.refl ((ClusterBuilder.seeded 42 []).build fun _ _ => 0)
    rcases ClusterBuilder.plan_of_seeded hbuild [.plan (.single (.int 1)),
        .refresh [.numbered 1, .numbered 2]] (.single (.int 1)) ⟨-4069959284402364209⟩
      (.ofReports [.numbered 1, .numbered 2]) (by decide +kernel) (by decide +kernel)
      (by decide) with ⟨plan, hplan, hreplicas⟩
    exact ⟨_, plan, hbuild, by decide +kernel, hplan, hreplicas⟩
  rcases hearly with ⟨early, plan, hbuild, hplan, hreplicas, hlength⟩
  rcases hlate with ⟨late, latePlan, hlateBuild, hunplanned, hlatePlan, hlateReplicas, -⟩
  intro key nodes uses
  have hheld : ((start early).run uses).held = [((HeldPlan.new plan).ask .pick).ask .fallback] :=
    held_run_plan rfl hplan
  have hnone : ((start late).run [.event (.plan key), .event (.refresh nodes)]).held = [] := by
    have hstep := (start late).held_step_plan key
    have hunheld : (late.plan key).1.toOption = none := by simpa using hunplanned
    change _ = [] ++ ((late.plan key).1.toOption.map HeldPlan.new).toList at hstep
    rw [hunheld] at hstep
    exact (List.append_nil _).trans hstep
  have hlateHeld : ((start late).run (.event (.plan key) :: .event (.refresh nodes) :: uses)).held =
      [((HeldPlan.new latePlan).ask .pick).ask .fallback] := held_run_plan hnone hlatePlan
  refine ⟨early, late, _, _, hbuild, hlateBuild, hheld, hlateHeld, hlength, rfl, ?_⟩
  have hlaw := seeded_choices_reproducible hbuild rfl (ClusterBuilder.resolveStrategy_seeded _ _)
    uses
  rcases hlaw with ⟨-, -, -, htwins⟩
  have hsame : plan.replicas = latePlan.replicas := hreplicas.trans hlateReplicas.symm
  exact htwins rfl _ _ late _ hlateBuild rfl (ClusterBuilder.resolveStrategy_seeded _ _) 0 _ _
    (congrArg (fun held => held[0]?) hheld) (congrArg (fun held => held[0]?) hlateHeld) hsame 2 rfl

end Usage
end RingRouting
