import RingRouting.PartitionKey
import RingRouting.Policy.Capability
import RingRouting.Network.Connection
import RingRouting.Strategy

/-!
# Plans

A plan says where a request for one partition key should go: the token of the key,
its replicas from nearest to farthest, and a strategy that chooses among them.
-/

namespace RingRouting

/-- Why a request cannot be routed. -/
inductive RouteError where
  /-- The key has no encoding. -/
  | key (cause : KeyError)
  /-- The partitioner gives the key no token. -/
  | noToken
  /-- No member of the view owns the token. -/
  | noReplicas (token : Token)
  /-- The strategy had nothing to choose from. -/
  | noEndpoints (cause : NoEndpoints)
  /-- The strategy could not be built. -/
  | configuration (cause : ConfigurationError)
  /-- No connection to the chosen endpoint could be had. -/
  | pool (cause : PoolError)
deriving DecidableEq

/-- The wording of a routing error. -/
def RouteError.message : RouteError → String
  | key cause => cause.message
  | noToken => "Partitioner produced no token for the partition key"
  | noReplicas token => s!"No replicas known for token {token.toText}"
  | noEndpoints cause => cause.message
  | configuration cause => cause.message
  | pool cause => cause.message

/-- Where a request for one partition key should go. -/
structure Plan where
  token : Token
  /-- The replicas of the token, from nearest to farthest. -/
  replicas : List Address
  strategy : Strategy

namespace Plan

/-- The endpoint to contact first, and the plan after the pick. -/
def pick (plan : Plan) : Except RouteError Address × Plan :=
  let (picked, strategy) := plan.strategy.pick
  (picked.mapError .noEndpoints, { plan with strategy := strategy })

/-- Several picks in a row; the first that fails ends them. -/
def picks (plan : Plan) (count : Nat) : Except RouteError (List Address) × Plan :=
  let (picked, strategy) := plan.strategy.picks count
  (picked.mapError .noEndpoints, { plan with strategy := strategy })

/-- The endpoints in the order in which the strategy would try them, and the plan
after the question. -/
def fallback (plan : Plan) : List Address × Plan :=
  let (endpoints, strategy) := plan.strategy.fallback
  (endpoints, { plan with strategy := strategy })

end Plan
end RingRouting
