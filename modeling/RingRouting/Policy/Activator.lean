import RingRouting.Network.Pool
import RingRouting.Partitioner
import RingRouting.Policy.Registry
import RingRouting.Strategy

/-!
# Activators

An activator holds one registry for each capability.  A name that is looked for
under the wrong capability is told from one that nobody knows.

Main definitions:

- `Activator.defaults`: the activator that knows every policy of the library.
- `Activator.resolveSnitch` and its like: the factory for a configured name.
- `Activator.createSnitch` and its like: what that factory builds.
-/

namespace RingRouting

/-! ## Arguments of the factories -/

/-- What a snitch is built from. -/
structure SnitchArgs where
  /-- The view of the cluster, for snitches that read places from it. -/
  topology : Option ClusterView

/-- What a strategy is built from. -/
structure StrategyArgs where
  /-- The snapshot of candidates. -/
  endpoints : List Address
  /-- The snitch, for strategies that rank. -/
  snitch : Option Snitch
  /-- The address that proximity is measured from. -/
  origin : Option Address
  /-- The seed, for reproducible random strategies. -/
  seed : Option UInt64
  /-- Random words for strategies without a seed. -/
  words : Nat → UInt32

/-- What a pool is built from. -/
structure PoolArgs where
  /-- The endpoint that the pool serves. -/
  endpoint : Address
  /-- How many connections it keeps. -/
  capacity : Nat

/-- One registry for each capability. -/
structure Activator where
  snitches : Registry SnitchArgs Snitch
  strategies : Registry StrategyArgs Strategy
  pools : Registry PoolArgs Pool
  partitioners : Registry Unit Partitioner

namespace Activator

/-- An activator that knows no policies. -/
def empty : Activator :=
  ⟨.empty .snitch, .empty .strategy, .empty .pool, .empty .partitioner⟩

/-! ## Registering -/

/-- Registers a snitch. -/
def registerSnitch (activator : Activator) (name : String) (factory : Factory SnitchArgs Snitch) :
    Activator :=
  { activator with snitches := activator.snitches.register name factory }

/-- Registers a strategy. -/
def registerStrategy (activator : Activator) (name : String)
    (factory : Factory StrategyArgs Strategy) : Activator :=
  { activator with strategies := activator.strategies.register name factory }

/-- Registers a pool policy. -/
def registerPool (activator : Activator) (name : String) (factory : Factory PoolArgs Pool) :
    Activator :=
  { activator with pools := activator.pools.register name factory }

/-- Registers a partitioner. -/
def registerPartitioner (activator : Activator) (name : String)
    (factory : Factory Unit Partitioner) : Activator :=
  { activator with partitioners := activator.partitioners.register name factory }

/-! ## The library's policies -/

/-- Builds the snitch that answers with reported places. -/
def topologySnitch : Factory SnitchArgs Snitch := fun args =>
  match args.topology with
  | some view => .ok (.ofView view Snitch.unknownPlace)
  | none => .error (.missingArgument "TopologySnitch" "cluster topology")

/-- Builds the random strategy. -/
def randomStrategy : Factory StrategyArgs Strategy := fun args =>
  match args.seed with
  | some seed => .ok (.seededRandom args.endpoints seed)
  | none => .ok (.streamRandom args.endpoints args.words)

/-- Builds the strategy that takes endpoints in turn. -/
def roundRobinStrategy : Factory StrategyArgs Strategy := fun args =>
  .ok (.rotation args.endpoints)

/-- Builds the strategy that ranks by proximity. -/
def nearestStrategy : Factory StrategyArgs Strategy := fun args =>
  match args.snitch, args.origin with
  | none, _ => .error (.missingArgument "NearestStrategy" "a snitch")
  | some _, none => .error (.missingArgument "NearestStrategy" "a local address")
  | some snitch, some origin => .ok (.byProximity snitch origin args.endpoints)

/-- Builds the pool that keeps connections. -/
def boundedPool : Factory PoolArgs Pool := fun args =>
  .ok (.bounded args.endpoint args.capacity)

/-- Builds the pool that keeps none. -/
def noReusePool : Factory PoolArgs Pool := fun args =>
  .ok (.noReuse args.endpoint)

/-- An activator that knows every policy of the library. -/
def defaults : Activator :=
  empty
    |>.registerSnitch "RackInferringSnitch" (fun _ => .ok .rackInferring)
    |>.registerSnitch "SimpleSnitch" (fun _ => .ok .simple)
    |>.registerSnitch "TopologySnitch" topologySnitch
    |>.registerStrategy "RandomStrategy" randomStrategy
    |>.registerStrategy "RoundRobinStrategy" roundRobinStrategy
    |>.registerStrategy "NearestStrategy" nearestStrategy
    |>.registerPool "BoundedPool" boundedPool
    |>.registerPool "NoReusePool" noReusePool
    |>.registerPartitioner "Murmur3Partitioner" (fun _ => .ok .murmur3)
    |>.registerPartitioner "RandomPartitioner" (fun _ => .ok .random)
    |>.registerPartitioner "CDCPartitioner" (fun _ => .ok .cdc)

/-! ## Resolving -/

/-- Whether a capability's registry knows a name. -/
def knows (activator : Activator) (capability : Capability) (name : String) : Bool :=
  match capability with
  | .snitch => activator.snitches.contains name
  | .strategy => activator.strategies.contains name
  | .pool => activator.pools.contains name
  | .partitioner => activator.partitioners.contains name

/-- Tells a name that is known for another capability from an unknown one. -/
def explain (activator : Activator) : ConfigurationError → ConfigurationError
  | .unknownType capability name =>
    let other := [Capability.snitch, .strategy, .pool, .partitioner].find? fun registered =>
      activator.knows registered name && registered != capability
    match other with
    | some registered => .capabilityMismatch name capability registered
    | none => .unknownType capability name
  | e => e

/-- The snitch factory for a configured name. -/
def resolveSnitch (activator : Activator) (name : String) :
    Except ConfigurationError (Option (Factory SnitchArgs Snitch)) :=
  (activator.snitches.resolve name).mapError activator.explain

/-- The strategy factory for a configured name. -/
def resolveStrategy (activator : Activator) (name : String) :
    Except ConfigurationError (Option (Factory StrategyArgs Strategy)) :=
  (activator.strategies.resolve name).mapError activator.explain

/-- The pool factory for a configured name. -/
def resolvePool (activator : Activator) (name : String) :
    Except ConfigurationError (Option (Factory PoolArgs Pool)) :=
  (activator.pools.resolve name).mapError activator.explain

/-! ## Creating -/

/-- Lets a factory build its component, if there is one. -/
def build {Args Component : Type} (factory : Option (Factory Args Component)) (args : Args) :
    Except ConfigurationError (Option Component) :=
  match factory with
  | some factory => some <$> factory args
  | none => .ok none

/-- The snitch for a configured name. -/
def createSnitch (activator : Activator) (name : String) (args : SnitchArgs) :
    Except ConfigurationError (Option Snitch) := do
  build (← activator.resolveSnitch name) args

/-- The strategy for a configured name. -/
def createStrategy (activator : Activator) (name : String) (args : StrategyArgs) :
    Except ConfigurationError (Option Strategy) := do
  build (← activator.resolveStrategy name) args

/-- The pool for a configured name. -/
def createPool (activator : Activator) (name : String) (args : PoolArgs) :
    Except ConfigurationError (Option Pool) := do
  build (← activator.resolvePool name) args

/-- The partitioner for a configured name.  An error of the factory itself is
explained like one of the search for it. -/
def createPartitioner (activator : Activator) (name : String) :
    Except ConfigurationError (Option Partitioner) :=
  (activator.partitioners.create name ()).mapError activator.explain

/-- The activator as a record. -/
def outline (activator : Activator) : String :=
  Outline.record "Activator" [
    Outline.field "snitches" activator.snitches.outline,
    Outline.field "strategies" activator.strategies.outline,
    Outline.field "pools" activator.pools.outline,
    Outline.field "partitioners" activator.partitioners.outline]

end Activator
end RingRouting
