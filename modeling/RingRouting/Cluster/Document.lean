import RingRouting.Cluster.Config
import RingRouting.Text.AddressText

/-!
# Reading a configuration

A configuration is read from a document: a tree of nothing, truth values, numbers,
texts, sequences and mappings.  A mapping gives fields by name; those left out take
their defaults, and names that mean nothing are passed over.  A sequence gives
fields in order, and may stop early.  Only what may be absent may be nothing.

Main definitions:

- `Document`: such a tree.
- `ClusterConfig.ofDocument?`: the configuration that a document spells.
-/

namespace RingRouting

/-- A tree of plain data. -/
inductive Document where
  | nothing
  | flag (b : Bool)
  | integer (n : Int)
  /-- A number that is not written as an integer. -/
  | fraction
  | text (s : String)
  | sequence (items : List Document)
  | mapping (fields : List (String × Document))

namespace Document

/-- A text. -/
def text? : Document → Option String
  | text s => some s
  | _ => none

/-- A number of 64 bits without a sign. -/
def unsigned? : Document → Option Nat
  | integer n => if 0 ≤ n ∧ n < UInt64.size then some n.toNat else none
  | _ => none

/-- What `read` makes of the document, or nothing where nothing stands. -/
def optional? {α : Type} (read : Document → Option α) : Document → Option (Option α)
  | nothing => some none
  | document => (read document).map some

/-- An address. -/
def address? (document : Document) : Option Address :=
  document.text?.bind Address.ofText?

/-- The documents of the named fields, in the order of the names; a field may be
left out. -/
def fields? (names : List String) : Document → Option (List (Option Document))
  | mapping fields => some (names.map fun name => fields.lookup name)
  | sequence items =>
    if items.length ≤ names.length then
      some (items.map some ++ List.replicate (names.length - items.length) none)
    else none
  | _ => none

/-- What `read` makes of a field, or its default where it is left out. -/
def fieldOr {α : Type} (default : α) (read : Document → Option α) :
    Option (Option Document) → Option α
  | some (some document) => read document
  | _ => some default

end Document

open Document

/-- Reads the pool policy. -/
def PoolConfig.ofDocument? (document : Document) : Option PoolConfig := do
  let fields ← document.fields? ["policy", "capacity"]
  return {
    policy := ← fieldOr PoolConfig.default.policy text? fields[0]?
    capacity := ← fieldOr PoolConfig.default.capacity unsigned? fields[1]? }

/-- Reads a configuration. -/
def ClusterConfig.ofDocument? (document : Document) : Option ClusterConfig := do
  let standard := ClusterConfig.default
  let fields ← document.fields? ["partitioner", "snitch", "endpoint_strategy", "pool",
    "local_address", "replication_factor", "strategy_seed"]
  return {
    partitioner := ← fieldOr standard.partitioner text? fields[0]?
    snitch := ← fieldOr standard.snitch text? fields[1]?
    strategy := ← fieldOr standard.strategy text? fields[2]?
    pool := ← fieldOr standard.pool PoolConfig.ofDocument? fields[3]?
    origin := ← fieldOr standard.origin (optional? address?) fields[4]?
    replicationFactor := ← fieldOr standard.replicationFactor
      (fun field => field.unsigned?.bind ReplicationFactor.ofNat?) fields[5]?
    strategySeed := ← fieldOr standard.strategySeed
      (optional? fun field => field.unsigned?.map UInt64.ofNat) fields[6]? }

end RingRouting
