import RingRouting.Policy.Capability
import RingRouting.Text.Blank
import RingRouting.Text.Outline

/-!
# Registries

A registry holds the factories of one capability under their names.  A name finds
the factory registered under exactly that name, or else the one registered under
the part of the name after its last dot, so that qualified class names resolve too.

Main definitions:

- `Registry.register`: adds a factory, in the place of one with the same name.
- `Registry.contains`: whether a name finds a factory, taken as it is.
- `Registry.resolve`: the factory that a name finds, blanks around it left out.
- `Registry.create`: what that factory builds.
-/

namespace RingRouting

/-- Builds a component from its arguments, or says why it cannot. -/
abbrev Factory (Args Component : Type) := Args → Except ConfigurationError Component

/-- The factories of one capability, by name. -/
structure Registry (Args Component : Type) where
  capability : Capability
  factories : List (String × Factory Args Component)

namespace Registry

variable {Args Component : Type}

/-- A registry without factories. -/
def empty (capability : Capability) : Registry Args Component :=
  ⟨capability, []⟩

/-- Registers a factory; the one that had the name is forgotten. -/
def register (registry : Registry Args Component) (name : String)
    (factory : Factory Args Component) : Registry Args Component :=
  { registry with
    factories := registry.factories.filter (fun entry => entry.1 != name) ++ [(name, factory)] }

/-- The factory registered under exactly this name. -/
def exact (registry : Registry Args Component) (name : String) :
    Option (Factory Args Component) :=
  registry.factories.lookup name

/-- What follows the last dot of a name that has one. -/
def lastSegment? (name : String) : Option String :=
  if name.toList.contains '.' then
    some (String.ofList (name.toList.reverse.takeWhile (· != '.')).reverse)
  else none

/-- The factory that a name finds. -/
def find? (registry : Registry Args Component) (name : String) :
    Option (Factory Args Component) :=
  match registry.exact name with
  | some factory => some factory
  | none => (lastSegment? name).bind registry.exact

/-- Whether a name finds a factory. -/
def contains (registry : Registry Args Component) (name : String) : Bool :=
  (registry.find? name).isSome

/-- The factory for a configured name.  Blanks around the name are left out; a name
of blanks configures nothing, which is no error. -/
def resolve (registry : Registry Args Component) (name : String) :
    Except ConfigurationError (Option (Factory Args Component)) :=
  let name := Blank.trim name
  if name.isEmpty then .ok none
  else match registry.find? name with
    | some factory => .ok (some factory)
    | none => .error (.unknownType registry.capability name)

/-- Builds the component for a configured name. -/
def create (registry : Registry Args Component) (name : String) (args : Args) :
    Except ConfigurationError (Option Component) := do
  match ← registry.resolve name with
  | some factory => some <$> factory args
  | none => return none

/-- The registered names in order. -/
def names (registry : Registry Args Component) : List String :=
  (registry.factories.map Prod.fst).mergeSort fun a b => decide (a ≤ b)

/-- The registry as a record. -/
def outline (registry : Registry Args Component) : String :=
  Outline.record "Registry" [
    Outline.field "capability" registry.capability.name,
    Outline.field "names" (Outline.list (registry.names.map Quoted.quote))]

end Registry
end RingRouting
