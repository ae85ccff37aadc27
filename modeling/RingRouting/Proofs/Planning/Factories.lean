import RingRouting.Proofs.Planning.Diagnosis

/-!
# What a factory says

Between a configured name and a component stand two steps: the name is resolved to a factory, and
the factory is asked.  Either may fail.  What the search for a name fails with is explained; what
a factory fails with is told as it is, by three of the four capabilities.  A partitioner is made
and explained in one go, so that the error of its factory is explained too: if it says that some
name is unknown, and the activator knows that name for another capability than the error tells,
then a mismatch is told instead.

Main definitions:

- `Registry.Retells`: what is told of errors of the factory that a name resolves to.
- `Activator.Disputes`: errors that the activator explains away.

Main results:

- Theorems `Activator.build_eq_some_iff` and its like: how the asking of a factory can end.
- Theorem `Activator.explain_eq_self_iff`: errors that are told as they are.
- Theorem `Activator.factory_errors_retold`: what is told of errors, for all capabilities.
-/

namespace RingRouting

/-! ## Asking a factory -/

namespace Activator

section Building

variable {Args Component : Type} {found : Option (Factory Args Component)} {args : Args}

/-- A component is made by a factory, where there is one. -/
theorem build_eq_some_iff {component : Component} :
    build found args = .ok (some component) ↔
      ∃ factory, found = some factory ∧ factory args = .ok component := by
  cases found with
  | none => simp [build]
  | some factory => cases hmade : factory args <;> simp [build, Functor.map, Except.map, hmade]

/-- Nothing is made only where there is no factory. -/
theorem build_eq_none_iff : build found args = .ok none ↔ found = none := by
  cases found with
  | none => simp [build]
  | some factory => cases hmade : factory args <;> simp [build, Functor.map, Except.map, hmade]

/-- Only a factory fails, and its error is what is told. -/
theorem build_eq_error_iff {e : ConfigurationError} :
    build found args = .error e ↔ ∃ factory, found = some factory ∧ factory args = .error e := by
  cases found with
  | none => simp [build]
  | some factory => cases hmade : factory args <;> simp [build, Functor.map, Except.map, hmade]

end Building

end Activator

/-! ## Errors that are explained -/

/-- Whatever factory the name resolves to, and whatever error it gives for some arguments, the
error is told to the one who has asked for the component as `retold` says. -/
def Registry.Retells {Args Component : Type} (registry : Registry Args Component) (name : String)
    (create : Args → Except ConfigurationError (Option Component))
    (retold : ConfigurationError → ConfigurationError) : Prop :=
  ∀ factory args e, registry.resolve name = .ok (some factory) → factory args = .error e →
    create args = .error (retold e)

namespace Activator

/-- The error says that a name is unknown, and the activator knows the name for a capability other
than the one that the error tells. -/
def Disputes (activator : Activator) (e : ConfigurationError) : Prop :=
  ∃ requested wanted other, e = .unknownType requested wanted ∧ other ≠ requested ∧
    activator.knows other wanted = true

/-- Errors are explained away if they are disputed, and are told as they are otherwise. -/
theorem explain_eq_self_iff {activator : Activator} {e : ConfigurationError} :
    activator.explain e = e ↔ ¬ activator.Disputes e := by
  cases e with
  | capabilityMismatch | missingArgument => simp [explain, Disputes]
  | unknownType requested wanted =>
      rw [explain_unknownType_eq_self_iff]
      constructor
      · rintro hunknown ⟨_, _, other, ⟨rfl, rfl⟩, hne, hknows⟩
        exact hunknown other hne hknows
      · intro hundisputed other hne hknows
        exact hundisputed ⟨requested, wanted, other, rfl, hne, hknows⟩

section Retelling

variable {Args Component : Type} {registry : Registry Args Component} {name : String}

/-- A factory that was resolved is asked, and what it says is told. -/
theorem retells_build (explain : ConfigurationError → ConfigurationError) :
    registry.Retells name
      (fun args => (registry.resolve name).mapError explain >>= fun found => build found args)
      id := by
  intro factory args e hresolve hfails
  rw [hresolve]
  exact build_eq_error_iff.2 ⟨factory, rfl, hfails⟩

/-- Where a component is made and explained in one go, so is what its factory says. -/
theorem retells_explained (explain : ConfigurationError → ConfigurationError) :
    registry.Retells name (fun args => (registry.create name args).mapError explain)
      explain := by
  intro factory args e hresolve hfails
  simp only [Registry.create, hresolve, hfails, bind, Except.bind, Functor.map, Except.map,
    Except.mapError]

end Retelling

/-- What the factory of a snitch, a strategy or a pool fails with is told as it is, whatever the
name, the arguments and the error are, and whatever else the activator knows.  What the factory of
a partitioner fails with is explained.  It is told as it is, unless it says that a name is unknown
and the activator knows that name for another capability than the error tells: then a mismatch is
told, which names the first such capability. -/
theorem factory_errors_retold (activator : Activator) (name : String) :
    activator.snitches.Retells name (activator.createSnitch name) id ∧
    activator.strategies.Retells name (activator.createStrategy name) id ∧
    activator.pools.Retells name (activator.createPool name) id ∧
    activator.partitioners.Retells name (fun _ => activator.createPartitioner name)
      activator.explain ∧
    (∀ e, activator.explain e = e ↔ ¬ activator.Disputes e) ∧
    ∀ requested wanted other, activator.otherKnown requested wanted = some other →
      activator.explain (.unknownType requested wanted) =
        .capabilityMismatch wanted requested other := by
  refine ⟨retells_build activator.explain, retells_build activator.explain,
    retells_build activator.explain, retells_explained activator.explain,
    fun e => explain_eq_self_iff, fun requested wanted other hother => ?_⟩
  rw [explain_unknownType, hother]

/-- The factory of a partitioner looks for something else and says that it is unknown, under a
name that is known for a snitch: a mismatch is told.  The factory of a snitch says the like of a
name that is known for a pool, and is believed. -/
theorem partitioner_error_explained_away :
    let unknownPartitioner := ConfigurationError.unknownType .partitioner "SimpleSnitch"
    let unknownSnitch := ConfigurationError.unknownType .snitch "BoundedPool"
    let activator := (defaults.registerPartitioner "Mine" fun _ => .error unknownPartitioner)
      |>.registerSnitch "Mine" fun _ => .error unknownSnitch
    activator.partitioners.resolve "Mine" = .ok (some fun _ => .error unknownPartitioner) ∧
      activator.createPartitioner "Mine" =
        .error (.capabilityMismatch "SimpleSnitch" .partitioner .snitch) ∧
      activator.createSnitch "Mine" ⟨none⟩ = .error unknownSnitch :=
  ⟨rfl, by decide, rfl⟩

end Activator
end RingRouting
