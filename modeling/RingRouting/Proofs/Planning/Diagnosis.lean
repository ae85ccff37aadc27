import RingRouting.Proofs.Planning.Containment

/-!
# What is said of a name that does not resolve

An activator is made by registrations in its four registries.  A name that a registry does not
know may be known to another one: then the request is told that the name is of another
capability, and of several the first in one fixed order.  Only a name that no registry knows is
called unknown.

Main definitions:

- `Registration`: something registered for one of the capabilities.
- `Activator.registered`: the activator that a history of registrations makes.
- `Activator.KnownTo`: whether a history has made a name known for a capability.
- `Activator.FirstOther`: the first other capability that a name is known for.
- `Activator.Refuses`, `Activator.Finds`: how requests for a name can end before a factory is
  asked.

Main results:

- Theorem `Activator.knows_registered_iff`: what a registry knows after some registrations.
- Theorem `Activator.explain_unknownType`: what becomes of an unknown name.
- Theorem `Activator.refuses_of_unknown`, `Activator.finds_of_known`: how a request ends.
- Theorem `Activator.mismatch_names_first_other`: what is said of names, after any registrations.
-/

namespace RingRouting

open Registry (Matches)

/-! ## Histories -/

/-- Something registered for one of the capabilities. -/
inductive Registration where
  | snitch (name : String) (factory : Factory SnitchArgs Snitch)
  | strategy (name : String) (factory : Factory StrategyArgs Strategy)
  | pool (name : String) (factory : Factory PoolArgs Pool)
  | partitioner (name : String) (factory : Factory Unit Partitioner)

namespace Registration

/-- What it is registered for. -/
def capability : Registration → Capability
  | snitch _ _ => .snitch
  | strategy _ _ => .strategy
  | pool _ _ => .pool
  | partitioner _ _ => .partitioner

/-- What it is registered under. -/
def name : Registration → String
  | snitch name _ => name
  | strategy name _ => name
  | pool name _ => name
  | partitioner name _ => name

end Registration

namespace Activator

/-- The activator with one more registration. -/
def register (activator : Activator) : Registration → Activator
  | .snitch name factory => activator.registerSnitch name factory
  | .strategy name factory => activator.registerStrategy name factory
  | .pool name factory => activator.registerPool name factory
  | .partitioner name factory => activator.registerPartitioner name factory

/-- The activator that some registrations make, one after another. -/
def registered (history : List Registration) : Activator :=
  history.foldl register empty

/-- The library's activator comes about by registrations like any other. -/
example :
    registered
      [.snitch "RackInferringSnitch" fun _ => .ok .rackInferring,
        .snitch "SimpleSnitch" fun _ => .ok .simple, .snitch "TopologySnitch" topologySnitch,
        .strategy "RandomStrategy" randomStrategy,
        .strategy "RoundRobinStrategy" roundRobinStrategy,
        .strategy "NearestStrategy" nearestStrategy, .pool "BoundedPool" boundedPool,
        .pool "NoReusePool" noReusePool, .partitioner "Murmur3Partitioner" fun _ => .ok .murmur3,
        .partitioner "RandomPartitioner" fun _ => .ok .random,
        .partitioner "CDCPartitioner" fun _ => .ok .cdc] = defaults :=
  rfl

theorem registered_concat (history : List Registration) (registration : Registration) :
    registered (history ++ [registration]) = (registered history).register registration :=
  List.foldl_append

/-- Something was registered for the capability that the name matches. -/
def KnownTo (history : List Registration) (capability : Capability) (name : String) : Prop :=
  ∃ registration ∈ history, registration.capability = capability ∧ Matches name registration.name

/-- Each registry bears the name of its capability. -/
structure Labelled (activator : Activator) : Prop where
  snitches : activator.snitches.capability = .snitch
  strategies : activator.strategies.capability = .strategy
  pools : activator.pools.capability = .pool
  partitioners : activator.partitioners.capability = .partitioner

variable {activator : Activator}

theorem Labelled.register (h : activator.Labelled) (registration : Registration) :
    (activator.register registration).Labelled := by
  cases registration <;> exact ⟨h.snitches, h.strategies, h.pools, h.partitioners⟩

theorem labelled_registered (history : List Registration) : (registered history).Labelled := by
  induction history using List.reverseRecOn with
  | nil => exact ⟨rfl, rfl, rfl, rfl⟩
  | append_singleton history registration ih =>
      rw [registered_concat]
      exact ih.register registration

/-- One more registration makes the names known that match it, for its own capability. -/
theorem knows_register_iff (activator : Activator) (registration : Registration)
    (capability : Capability) (name : String) :
    (activator.register registration).knows capability name = true ↔
      registration.capability = capability ∧ Matches name registration.name ∨
        activator.knows capability name = true := by
  cases registration <;> cases capability <;>
    simp [register, registerSnitch, registerStrategy, registerPool, registerPartitioner, knows,
      Registration.capability, Registration.name, Registry.contains_register_iff]

/-- A registry knows the names that match something registered for its capability. -/
theorem knows_registered_iff (history : List Registration) (capability : Capability)
    (name : String) :
    (registered history).knows capability name = true ↔ KnownTo history capability name := by
  induction history using List.reverseRecOn with
  | nil => cases capability <;> simp [KnownTo, registered, knows, empty]
  | append_singleton history registration ih =>
      rw [registered_concat, knows_register_iff, ih]
      simp [KnownTo, or_comm, or_and_right, exists_or]

/-! ## Explanations -/

/-- The capabilities in the order in which they are looked through. -/
def reportOrder : List Capability :=
  [.snitch, .strategy, .pool, .partitioner]

/-- The capability that an unknown name is said to be of. -/
def otherKnown (activator : Activator) (requested : Capability) (name : String) :
    Option Capability :=
  reportOrder.find? fun other => activator.knows other name && other != requested

/-- The first capability, other than the requested one, that the name is known for. -/
def FirstOther (history : List Registration) (requested : Capability) (name : String)
    (other : Capability) : Prop :=
  other ≠ requested ∧ KnownTo history other name ∧
    ∃ before after, reportOrder = before ++ other :: after ∧
      ∀ earlier ∈ before, earlier ≠ requested → ¬ KnownTo history earlier name

section Explaining

variable {history : List Registration} {requested other : Capability} {name : String}

theorem otherKnown_eq_some_iff :
    (registered history).otherKnown requested name = some other ↔
      FirstOther history requested name other := by
  simp only [otherKnown, List.find?_eq_some_iff_append, FirstOther, Bool.and_eq_true, bne_iff_ne,
    Bool.not_eq_true', Bool.eq_false_iff, knows_registered_iff, ne_eq, not_and', and_assoc,
    and_left_comm]

theorem mem_reportOrder (capability : Capability) : capability ∈ reportOrder := by
  cases capability <;> simp [reportOrder]

theorem otherKnown_eq_none_iff {activator : Activator} :
    activator.otherKnown requested name = none ↔
      ∀ other, other ≠ requested → ¬ activator.knows other name = true := by
  simp only [otherKnown, List.find?_eq_none, mem_reportOrder, forall_const, Bool.and_eq_true,
    bne_iff_ne, not_and']

/-- An unknown name is said to be of another capability where one is found. -/
theorem explain_unknownType (activator : Activator) (requested : Capability) (name : String) :
    activator.explain (.unknownType requested name) =
      match activator.otherKnown requested name with
      | some other => .capabilityMismatch name requested other
      | none => .unknownType requested name :=
  rfl

/-- A name is said to be of the first other capability that it is known for. -/
theorem explain_eq_mismatch_iff :
    (registered history).explain (.unknownType requested name) =
        .capabilityMismatch name requested other ↔
      FirstOther history requested name other := by
  rw [explain_unknownType, ← otherKnown_eq_some_iff]
  cases (registered history).otherKnown requested name <;> simp

/-- A name remains unknown if it is known for no other capability. -/
theorem explain_unknownType_eq_self_iff {activator : Activator} :
    activator.explain (.unknownType requested name) = .unknownType requested name ↔
      ∀ other, other ≠ requested → ¬ activator.knows other name = true := by
  rw [explain_unknownType, ← otherKnown_eq_none_iff]
  cases activator.otherKnown requested name <;> simp

theorem explain_eq_unknown_iff :
    (registered history).explain (.unknownType requested name) = .unknownType requested name ↔
      ∀ other, other ≠ requested → ¬ KnownTo history other name := by
  simp only [explain_unknownType_eq_self_iff, knows_registered_iff]

/-- The requested capability is never the one that a name is said to be of. -/
theorem explain_cases (history : List Registration) (requested : Capability) (name : String) :
    (registered history).explain (.unknownType requested name) = .unknownType requested name ∨
      ∃ other, other ≠ requested ∧
        (registered history).explain (.unknownType requested name) =
          .capabilityMismatch name requested other := by
  rw [explain_unknownType]
  cases hother : (registered history).otherKnown requested name with
  | none => exact .inl rfl
  | some other => exact .inr ⟨other, (otherKnown_eq_some_iff.1 hother).1, rfl⟩

end Explaining

/-! ## Requests -/

/-- The partitioner factory for a configured name, as those of the other capabilities are
resolved. -/
def resolvePartitioner (activator : Activator) (name : String) :
    Except ConfigurationError (Option (Factory Unit Partitioner)) :=
  (activator.partitioners.resolve name).mapError activator.explain

/-- What is resolved fails, and whatever is created from it too. -/
def Fails {Args Component : Type}
    (resolved : Except ConfigurationError (Option (Factory Args Component)))
    (create : Args → Except ConfigurationError (Option Component)) (e : ConfigurationError) :
    Prop :=
  resolved = .error e ∧ ∀ args, create args = .error e

/-- Requests for a configured name fail before any factory is asked. -/
def Refuses (activator : Activator) (name : String) (e : ConfigurationError) : Capability → Prop
  | .snitch => Fails (activator.resolveSnitch name) (activator.createSnitch name) e
  | .strategy => Fails (activator.resolveStrategy name) (activator.createStrategy name) e
  | .pool => Fails (activator.resolvePool name) (activator.createPool name) e
  | .partitioner =>
    Fails (activator.resolvePartitioner name) (fun _ => activator.createPartitioner name) e

/-- Requests for a configured name come to a factory, which is asked for its component.  Only a
partitioner factory that fails has its error explained. -/
def Finds (activator : Activator) (name : String) : Capability → Prop
  | .snitch => ∃ factory, activator.resolveSnitch name = .ok (some factory) ∧
      ∀ args, activator.createSnitch name args = some <$> factory args
  | .strategy => ∃ factory, activator.resolveStrategy name = .ok (some factory) ∧
      ∀ args, activator.createStrategy name args = some <$> factory args
  | .pool => ∃ factory, activator.resolvePool name = .ok (some factory) ∧
      ∀ args, activator.createPool name args = some <$> factory args
  | .partitioner => ∃ factory, activator.resolvePartitioner name = .ok (some factory) ∧
      activator.createPartitioner name = (some <$> factory ()).mapError activator.explain

/-- A partitioner's factory is resolved like the others, and then asked at once. -/
theorem createPartitioner_eq (activator : Activator) (name : String) :
    activator.createPartitioner name =
      activator.resolvePartitioner name >>= fun found =>
        (build found ()).mapError activator.explain := by
  rw [createPartitioner, resolvePartitioner, Registry.create]
  cases activator.partitioners.resolve name with
  | error e => rfl
  | ok found => cases found <;> rfl

section Requests

variable {capability : Capability} {name : String} {e e' : ConfigurationError}

section Fails

variable {Args Component : Type}
  {resolved : Except ConfigurationError (Option (Factory Args Component))}

/-- Nothing is created where nothing was resolved. -/
theorem fails_bind (h : resolved = .error e)
    (next : Args → Option (Factory Args Component) →
      Except ConfigurationError (Option Component)) :
    Fails resolved (fun args => resolved >>= next args) e := by
  refine ⟨h, fun args => ?_⟩
  rw [h]
  rfl

theorem Fails.unique {create : Args → Except ConfigurationError (Option Component)}
    (h : Fails resolved create e) (h' : Fails resolved create e') : e = e' :=
  Except.error.inj (h.1.symm.trans h'.1)

end Fails

/-- Requests for a name fail in one way. -/
theorem Refuses.unique (h : activator.Refuses name e capability)
    (h' : activator.Refuses name e' capability) : e = e' := by
  cases capability with
  | snitch | strategy | pool | partitioner => exact Fails.unique h h'

/-- Requests that come to a factory do not fail before. -/
theorem Finds.not_refuses (h : activator.Finds name capability) (e : ConfigurationError) :
    ¬ activator.Refuses name e capability := by
  intro hrefuses
  cases capability with
  | snitch | strategy | pool | partitioner =>
      obtain ⟨factory, hfound, -⟩ := h
      cases hfound.symm.trans hrefuses.1

/-- A name that its registry does not know is refused, with an explanation. -/
theorem Labelled.refuses (h : activator.Labelled) (hname : Blank.trim name ≠ "")
    (hunknown : ¬ activator.knows capability (Blank.trim name) = true) :
    activator.Refuses name (activator.explain (.unknownType capability (Blank.trim name)))
      capability := by
  cases capability with
  | snitch =>
      apply fails_bind
      rw [resolveSnitch, Registry.resolve_of_not_contains hname hunknown, h.snitches]
      rfl
  | strategy =>
      apply fails_bind
      rw [resolveStrategy, Registry.resolve_of_not_contains hname hunknown, h.strategies]
      rfl
  | pool =>
      apply fails_bind
      rw [resolvePool, Registry.resolve_of_not_contains hname hunknown, h.pools]
      rfl
  | partitioner =>
      rw [Refuses, createPartitioner_eq]
      apply fails_bind
      rw [resolvePartitioner, Registry.resolve_of_not_contains hname hunknown, h.partitioners]
      rfl

theorem exists_factory {Args Component : Type} {registry : Registry Args Component}
    (hname : Blank.trim name ≠ "") (hknown : registry.contains (Blank.trim name) = true)
    (explain : ConfigurationError → ConfigurationError) :
    ∃ factory, (registry.resolve name).mapError explain = .ok (some factory) := by
  obtain ⟨factory, hfound⟩ := (registry.exists_resolve_iff name).2 ⟨hname, hknown⟩
  exact ⟨factory, Except.mapError_eq_ok_iff.2 hfound⟩

/-- A name that its registry knows finds a factory. -/
theorem finds_of_knows (hname : Blank.trim name ≠ "")
    (hknown : activator.knows capability (Blank.trim name) = true) :
    activator.Finds name capability := by
  cases capability with
  | snitch =>
      obtain ⟨factory, hfound⟩ := exists_factory hname hknown activator.explain
      refine ⟨factory, hfound, fun args => ?_⟩
      rw [createSnitch, resolveSnitch, hfound]
      rfl
  | strategy =>
      obtain ⟨factory, hfound⟩ := exists_factory hname hknown activator.explain
      refine ⟨factory, hfound, fun args => ?_⟩
      rw [createStrategy, resolveStrategy, hfound]
      rfl
  | pool =>
      obtain ⟨factory, hfound⟩ := exists_factory hname hknown activator.explain
      refine ⟨factory, hfound, fun args => ?_⟩
      rw [createPool, resolvePool, hfound]
      rfl
  | partitioner =>
      obtain ⟨factory, hfound⟩ := exists_factory hname hknown activator.explain
      refine ⟨factory, hfound, ?_⟩
      rw [createPartitioner_eq, resolvePartitioner, hfound]
      rfl

end Requests

/-- What is said of a name that is not blank, after any registrations.  If something was
registered for the requested capability that the name matches, that is found, and the name is not
refused.  Otherwise it is refused, with a mismatch that names the first other capability for which
something was registered that it matches, or as unknown exactly if there is none. -/
theorem mismatch_names_first_other (history : List Registration) (capability : Capability)
    {name : String} (hname : Blank.trim name ≠ "") :
    let activator := registered history
    let wanted := Blank.trim name
    (KnownTo history capability wanted →
      activator.Finds name capability ∧ ∀ e, ¬ activator.Refuses name e capability) ∧
    (¬ KnownTo history capability wanted →
      (∀ other, activator.Refuses name (.capabilityMismatch wanted capability other) capability ↔
        FirstOther history capability wanted other) ∧
      (activator.Refuses name (.unknownType capability wanted) capability ↔
        ∀ other, ¬ KnownTo history other wanted) ∧
      ∃ e, activator.Refuses name e capability ∧
        (e = .unknownType capability wanted ∨
          ∃ other, other ≠ capability ∧ e = .capabilityMismatch wanted capability other)) := by
  intro activator wanted
  have hknows := knows_registered_iff history capability wanted
  refine ⟨fun hknown => ?_, fun hunknown => ?_⟩
  · have hfinds := finds_of_knows hname (hknows.2 hknown)
    exact ⟨hfinds, hfinds.not_refuses⟩
  · have hrefuses := (labelled_registered history).refuses hname (mt hknows.1 hunknown)
    -- requests fail in one way, so that all that is said of it is said of the explanation
    have hverdict : ∀ e, activator.Refuses name e capability ↔
        activator.explain (.unknownType capability wanted) = e := by
      intro e
      exact ⟨fun h => hrefuses.unique h, fun h => h ▸ hrefuses⟩
    refine ⟨fun other => ?_, ?_, _, hrefuses, explain_cases history capability wanted⟩
    · rw [hverdict, explain_eq_mismatch_iff]
    · rw [hverdict, explain_eq_unknown_iff]
      refine ⟨fun hothers other => ?_, fun hnone other _ => hnone other⟩
      by_cases hsame : other = capability
      · exact hsame ▸ hunknown
      · exact hothers other hsame

/-- A name of blanks and a qualifier, which matches something registered for two other
capabilities, is said to be of the one that comes first in the order of reports. -/
theorem mismatch_names_first_other_of_qualified_name :
    let history : List Registration :=
      [.partitioner "Mine" fun _ => .ok .random, .pool "Mine" boundedPool,
        .snitch "a.Mine" topologySnitch, .strategy "" randomStrategy]
    Blank.trim " x.Mine " ≠ "" ∧ ¬ KnownTo history .strategy "x.Mine" ∧
      FirstOther history .strategy "x.Mine" .pool ∧
      (registered history).Refuses " x.Mine " (.capabilityMismatch "x.Mine" .strategy .pool)
        .strategy := by
  intro history
  have hblank : Blank.trim " x.Mine " ≠ "" := by decide
  have hwanted : Blank.trim " x.Mine " = "x.Mine" := by decide
  have hunknown : ¬ KnownTo history .strategy "x.Mine" := by
    rw [← knows_registered_iff]
    decide
  have hfirst : FirstOther history .strategy "x.Mine" .pool := by
    rw [← otherKnown_eq_some_iff]
    decide
  have hsaid := (mismatch_names_first_other history .strategy hblank).2
  rw [hwanted] at hsaid
  exact ⟨hblank, hunknown, hfirst, ((hsaid hunknown).1 .pool).2 hfirst⟩

end Activator
end RingRouting
