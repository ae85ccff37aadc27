import RingRouting.Policy.Activator

/-!
# Custom policies

Policies beside those of the library, to be registered under a name of one's own.
Some refuse certain arguments, so that the handling of refusals can be tried.
-/

namespace RingRouting

/-- A custom policy. -/
inductive CustomPolicy where
  /-- The snitch that reads the address. -/
  | rackSnitch
  /-- The snitch that puts every address in the same place. -/
  | simpleSnitch
  /-- A snitch that answers with reported places, in `dflt` where none was. -/
  | reportedSnitch
  /-- A snitch that reads the address, for clusters of at most `max` members. -/
  | pickySnitch (max : Nat)
  /-- Endpoints in turn. -/
  | rotation
  /-- Random picks from the reversed snapshot, only with a seed. -/
  | seeded
  /-- Given endpoints in turn, whatever the snapshot. -/
  | fixed (endpoints : List Address)
  /-- Endpoints in turn, for snapshots of at most `max` endpoints. -/
  | strict (max : Nat)
  /-- A pool that keeps connections. -/
  | boundedPool
  /-- A pool that keeps none. -/
  | noReusePool
  /-- A pool that keeps connections, but not for the listed endpoints. -/
  | refusingPool (refused : List Address)
  /-- The partitioner that a name stands for. -/
  | partitioner (name : String)

namespace CustomPolicy

/-- The refusal of a policy for want of an argument. -/
def missing {Component : Type} (name argument : String) : Except ConfigurationError Component :=
  .error (.missingArgument name argument)

/-- The place of addresses that were not reported. -/
def unreportedPlace : Snitch.Place :=
  ⟨"dflt", "dflt"⟩

/-- Registers a policy under a name. -/
def register (activator : Activator) (name : String) : CustomPolicy → Activator
  | rackSnitch => activator.registerSnitch name fun _ => .ok .rackInferring
  | simpleSnitch => activator.registerSnitch name fun _ => .ok .simple
  | reportedSnitch => activator.registerSnitch name fun args =>
    match args.topology with
    | some view => .ok (.ofView view unreportedPlace)
    | none => missing name "cluster topology"
  | pickySnitch max => activator.registerSnitch name fun args =>
    match args.topology with
    | some view =>
      if max < view.peers.length then missing name "a smaller cluster" else .ok .rackInferring
    | none => .ok .rackInferring
  | rotation => activator.registerStrategy name Activator.roundRobinStrategy
  | seeded => activator.registerStrategy name fun args =>
    match args.seed with
    | some seed => .ok (.seededRandom args.endpoints.reverse seed)
    | none => missing name "a seed"
  | fixed endpoints => activator.registerStrategy name fun _ => .ok (.rotation endpoints)
  | strict max => activator.registerStrategy name fun args =>
    if max < args.endpoints.length then missing name "fewer endpoints"
    else .ok (.rotation args.endpoints)
  | boundedPool => activator.registerPool name Activator.boundedPool
  | noReusePool => activator.registerPool name Activator.noReusePool
  | refusingPool refused => activator.registerPool name fun args =>
    if refused.contains args.endpoint then missing name "an acceptable endpoint"
    else Activator.boundedPool args
  | partitioner text => activator.registerPartitioner name fun _ =>
    match Partitioner.ofName? text with
    | some found => .ok found
    | none => missing name "a hash function"

end CustomPolicy
end RingRouting
