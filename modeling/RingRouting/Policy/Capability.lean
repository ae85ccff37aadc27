import RingRouting.Text.Quoted

/-!
# Capabilities

Policies are chosen by name, one for each capability.  Choosing one may fail, and
the errors say which name was at fault.
-/

namespace RingRouting

/-- The kinds of component that are chosen by name. -/
inductive Capability where
  | snitch
  | strategy
  | pool
  | partitioner
deriving DecidableEq

namespace Capability

/-- The capability in words. -/
def description : Capability → String
  | snitch => "snitch"
  | strategy => "endpoint selection strategy"
  | pool => "connection pool"
  | partitioner => "partitioner"

/-- The capability's name. -/
def name : Capability → String
  | snitch => "Snitch"
  | strategy => "EndpointStrategy"
  | pool => "ConnectionPool"
  | partitioner => "Partitioner"

end Capability

/-- Why a named policy cannot be had. -/
inductive ConfigurationError where
  /-- Nothing is registered under the name. -/
  | unknownType (capability : Capability) (name : String)
  /-- The name is registered, but for another capability. -/
  | capabilityMismatch (name : String) (requested registered : Capability)
  /-- The policy needs an argument that was not given. -/
  | missingArgument (name argument : String)
deriving DecidableEq

/-- The wording of a configuration error. -/
def ConfigurationError.message : ConfigurationError → String
  | unknownType capability name =>
    "Unknown " ++ capability.description ++ " type: " ++ Quoted.quote name
  | capabilityMismatch name requested registered =>
    "Type " ++ Quoted.quote name ++ " is a " ++ registered.description
      ++ ", it cannot be used as a " ++ requested.description
  | missingArgument name argument =>
    "Type " ++ Quoted.quote name ++ " requires " ++ argument ++ ", which was not configured"

end RingRouting
