import Mathlib.Data.List.TakeWhile
import RingRouting.Proofs.Planning.Choices
import RingRouting.Proofs.Results

/-!
# Which names are known

A configured name stands for a registered one if, blanks around it left out, it is that name or
ends in it after its last dot.  Where no registered name has a dot, a configured name resolves
exactly if it stands for one of them or is blank.

Main definitions:

- `Registry.StandsFor`: whether a configured name stands for a registered one.
- `Registry.Known`: whether a configured name is blank or stands for one of some names.

Main results:

- Theorem `Registry.mem_of_resolve`: a resolved factory was registered.
- Theorem `Registry.resolve_eq_some_iff`: the factory that a name resolves to.
- Theorem `Registry.resolve_ok_iff`: the names that resolve.
- Theorems `Activator.resolveSnitch_ok_iff` and its like: the names that the library knows.
- Theorem `Activator.resolveStrategy_eq_some_iff`: the strategy that a name stands for.
- Theorems `Activator.snitch_made` and its like: what the library's factories never refuse.
-/

namespace RingRouting
namespace Registry

/-! ## Names -/

/-- Blanks around it left out, the name is the known one or ends in it after its last dot. -/
def StandsFor (name known : String) : Prop :=
  Blank.trim name = known ∨
    ∃ qualifier : List Char, (Blank.trim name).toList = qualifier ++ '.' :: known.toList ∧
      '.' ∉ known.toList

/-- The name is blank or stands for one of those that are known. -/
def Known (name : String) (names : List String) : Prop :=
  Blank.trim name = "" ∨ ∃ known ∈ names, StandsFor name known

/-- What follows the last dot of a text, or the text if it has none. -/
def segment (text : List Char) : List Char :=
  (text.reverse.takeWhile (· != '.')).reverse

theorem ne_dot_of_mem_reverse {text : List Char} (h : '.' ∉ text) :
    ∀ c ∈ text.reverse, (c != '.') = true := by
  intro c hc
  rw [bne_iff_ne]
  rintro rfl
  exact h (List.mem_reverse.1 hc)

theorem segment_of_notMem {text : List Char} (h : '.' ∉ text) : segment text = text := by
  rw [segment, List.takeWhile_eq_self_iff.2 (ne_dot_of_mem_reverse h), List.reverse_reverse]

theorem segment_append (qualifier : List Char) {last : List Char} (h : '.' ∉ last) :
    segment (qualifier ++ '.' :: last) = last := by
  rw [segment, List.reverse_append, List.reverse_cons, List.append_assoc,
    List.takeWhile_append_of_pos (ne_dot_of_mem_reverse h)]
  simp

/-- A text with a dot is what stands before its last dot, and what follows it. -/
theorem exists_qualifier {text : List Char} (h : '.' ∈ text) :
    ∃ qualifier, text = qualifier ++ '.' :: segment text ∧ '.' ∉ segment text := by
  obtain ⟨last, qualifier, hsplit, hlast⟩ :=
    List.eq_append_cons_of_mem (List.mem_reverse.2 h)
  have htext : text = qualifier.reverse ++ '.' :: last.reverse := by
    rw [← List.reverse_reverse text, hsplit]
    simp
  have hplain : '.' ∉ last.reverse := by simpa using hlast
  have hsegment : segment text = last.reverse := by rw [htext, segment_append _ hplain]
  rw [hsegment]
  exact ⟨qualifier.reverse, htext, hplain⟩

theorem notMem_segment (text : List Char) : '.' ∉ segment text := by
  by_cases h : '.' ∈ text
  · obtain ⟨-, -, hplain⟩ := exists_qualifier h
    exact hplain
  · rwa [segment_of_notMem h]

/-- A name stands for its last segment alone. -/
theorem standsFor_iff {name known : String} (hplain : '.' ∉ known.toList) :
    StandsFor name known ↔ segment (Blank.trim name).toList = known.toList := by
  constructor
  · rintro (rfl | ⟨qualifier, hsplit, -⟩)
    · exact segment_of_notMem hplain
    · rw [hsplit, segment_append qualifier hplain]
  · intro h
    by_cases hdot : '.' ∈ (Blank.trim name).toList
    · obtain ⟨qualifier, hsplit, -⟩ := exists_qualifier hdot
      rw [h] at hsplit
      exact .inr ⟨qualifier, hsplit, hplain⟩
    · rw [segment_of_notMem hdot] at h
      exact .inl (String.toList_inj.1 h)

/-- A name of blanks stands for no name but the empty one. -/
theorem StandsFor.trim_ne {name known : String} (h : StandsFor name known)
    (hknown : known ≠ "") : Blank.trim name ≠ "" := by
  intro hblank
  rcases h with rfl | ⟨qualifier, hsplit, -⟩
  · exact hknown hblank
  · rw [hblank] at hsplit
    exact List.append_ne_nil_of_right_ne_nil _ (List.cons_ne_nil _ _) hsplit.symm

/-! ## What a name finds -/

variable {Args Component : Type} {registry : Registry Args Component} {name : String}
  {factory : Factory Args Component}

theorem mem_of_exact (h : registry.exact name = some factory) :
    factory ∈ registry.factories.map Prod.snd := by
  unfold exact at h
  rw [List.lookup_eq_some_iff] at h
  rcases h with ⟨before, after, hsplit, -⟩
  rw [hsplit]
  simp

/-- A factory that a name finds was registered. -/
theorem mem_of_find? (h : registry.find? name = some factory) :
    factory ∈ registry.factories.map Prod.snd := by
  unfold find? at h
  split at h
  · rename_i found hexact
    cases h
    exact mem_of_exact hexact
  · rcases Option.bind_eq_some_iff.1 h with ⟨segment, -, hexact⟩
    exact mem_of_exact hexact

/-- A factory that a configured name stands for was registered. -/
theorem mem_of_resolve (h : registry.resolve name = .ok (some factory)) :
    factory ∈ registry.factories.map Prod.snd := by
  unfold resolve at h
  simp only at h
  split at h
  · cases h
  · split at h
    · rename_i found hfind
      cases h
      exact mem_of_find? hfind
    · cases h

/-! ## Registries without dots -/

/-- No registered name has a dot. -/
def Plain (registry : Registry Args Component) : Prop :=
  ∀ known ∈ registry.factories.map Prod.fst, '.' ∉ known.toList

theorem exists_exact_iff {known : String} :
    (∃ factory, registry.exact known = some factory) ↔
      known ∈ registry.factories.map Prod.fst := by
  rw [← Option.isSome_iff_exists, exact, List.lookup_isSome_iff, List.mem_map]
  constructor
  · rintro ⟨entry, hentry, hname⟩
    exact ⟨entry, hentry, (beq_iff_eq.1 hname).symm⟩
  · rintro ⟨entry, hentry, rfl⟩
    exact ⟨entry, hentry, beq_self_eq_true _⟩

/-- Without dots in registered names, the last segment of a name is what is looked for. -/
theorem find?_eq_exact (hplain : registry.Plain) (name : String) :
    registry.find? name = registry.exact (String.ofList (segment name.toList)) := by
  unfold find? lastSegment?
  by_cases hdot : '.' ∈ name.toList
  · have hnone : registry.exact name = none := by
      rw [Option.eq_none_iff_forall_ne_some]
      intro factory hfactory
      exact hplain name (exists_exact_iff.1 ⟨factory, hfactory⟩) hdot
    rw [hnone, if_pos (List.contains_iff_mem.2 hdot)]
    rfl
  · rw [segment_of_notMem hdot, String.ofList_toList]
    simp only [List.contains_iff_mem, hdot, if_false, Option.bind_none]
    cases registry.exact name <;> rfl

/-- A name of blanks leaves a policy out. -/
theorem resolve_eq_none_iff : registry.resolve name = .ok none ↔ Blank.trim name = "" := by
  unfold resolve
  by_cases hblank : Blank.trim name = ""
  · simp [hblank]
  · simp only [String.isEmpty_iff, hblank, if_false]
    cases registry.find? (Blank.trim name) <;> simp

/-- A name resolves to the factory of the name that it stands for. -/
theorem resolve_eq_some_iff (hplain : registry.Plain) :
    registry.resolve name = .ok (some factory) ↔
      Blank.trim name ≠ "" ∧
        ∃ known, StandsFor name known ∧ registry.exact known = some factory := by
  unfold resolve
  by_cases hblank : Blank.trim name = ""
  · simp [hblank]
  · simp only [String.isEmpty_iff, if_neg hblank, find?_eq_exact hplain]
    generalize hfound : registry.exact
      (String.ofList (segment (Blank.trim name).toList)) = found
    constructor
    · intro h
      cases found with
      | none => cases h
      | some other =>
          cases h
          refine ⟨hblank, _, (standsFor_iff ?_).2 ?_, hfound⟩
          · rw [String.toList_ofList]
            exact notMem_segment _
          · rw [String.toList_ofList]
    · rintro ⟨-, known, hstands, hknown⟩
      have hsegment := (standsFor_iff (hplain known (exists_exact_iff.1 ⟨_, hknown⟩))).1 hstands
      rw [hsegment, String.ofList_toList, hknown] at hfound
      rw [← hfound]

/-- The names that resolve are those that are known. -/
theorem resolve_ok_iff (hplain : registry.Plain) :
    (∃ found, registry.resolve name = .ok found) ↔
      Known name (registry.factories.map Prod.fst) := by
  constructor
  · rintro ⟨_ | factory, hfound⟩
    · exact .inl (resolve_eq_none_iff.1 hfound)
    · obtain ⟨-, known, hstands, hknown⟩ := (resolve_eq_some_iff hplain).1 hfound
      exact .inr ⟨known, exists_exact_iff.1 ⟨factory, hknown⟩, hstands⟩
  · rintro (hblank | ⟨known, hmem, hstands⟩)
    · exact ⟨none, resolve_eq_none_iff.2 hblank⟩
    · by_cases hblank : Blank.trim name = ""
      · exact ⟨none, resolve_eq_none_iff.2 hblank⟩
      · obtain ⟨factory, hknown⟩ := exists_exact_iff.2 hmem
        exact ⟨some factory, (resolve_eq_some_iff hplain).2 ⟨hblank, known, hstands, hknown⟩⟩

/-- Where every registered factory makes its component, one is made whenever the name resolves. -/
theorem create_ok_iff {args : Args}
    (hmakes : ∀ factory ∈ registry.factories.map Prod.snd, ∃ made, factory args = .ok made) :
    (∃ found, registry.create name args = .ok found) ↔
      ∃ found, registry.resolve name = .ok found := by
  unfold create
  constructor
  · rintro ⟨found, hfound⟩
    obtain ⟨factory, hfactory, -⟩ := Except.bind_eq_ok hfound
    exact ⟨factory, hfactory⟩
  · rintro ⟨_ | factory, hfactory⟩
    · rw [hfactory]
      exact ⟨none, rfl⟩
    · obtain ⟨made, hmade⟩ := hmakes factory (mem_of_resolve hfactory)
      rw [hfactory]
      refine ⟨some made, ?_⟩
      change some <$> factory args = _
      rw [hmade]
      rfl

end Registry

/-! ## The names of the library -/

namespace Activator

open Registry

theorem plain_snitches : defaults.snitches.Plain := by
  unfold Plain
  decide

theorem plain_strategies : defaults.strategies.Plain := by
  unfold Plain
  decide

theorem plain_pools : defaults.pools.Plain := by
  unfold Plain
  decide

theorem plain_partitioners : defaults.partitioners.Plain := by
  unfold Plain
  decide

variable {name : String}

theorem resolveSnitch_ok_iff :
    (∃ found, defaults.resolveSnitch name = .ok found) ↔
      Known name ["RackInferringSnitch", "SimpleSnitch", "TopologySnitch"] := by
  simp only [resolveSnitch, Except.mapError_eq_ok_iff]
  exact resolve_ok_iff plain_snitches

theorem resolveStrategy_ok_iff :
    (∃ found, defaults.resolveStrategy name = .ok found) ↔
      Known name ["RandomStrategy", "RoundRobinStrategy", "NearestStrategy"] := by
  simp only [resolveStrategy, Except.mapError_eq_ok_iff]
  exact resolve_ok_iff plain_strategies

theorem resolvePool_ok_iff :
    (∃ found, defaults.resolvePool name = .ok found) ↔
      Known name ["BoundedPool", "NoReusePool"] := by
  simp only [resolvePool, Except.mapError_eq_ok_iff]
  exact resolve_ok_iff plain_pools

/-- A partitioner of the library is made whenever its name resolves. -/
theorem createPartitioner_ok_iff :
    (∃ found, defaults.createPartitioner name = .ok found) ↔
      Known name ["Murmur3Partitioner", "RandomPartitioner", "CDCPartitioner"] := by
  simp only [createPartitioner, Except.mapError_eq_ok_iff]
  refine (create_ok_iff ?_).trans (resolve_ok_iff plain_partitioners)
  have hfactories : defaults.partitioners.factories.map Prod.snd =
      [fun _ => .ok .murmur3, fun _ => .ok .random, fun _ => .ok .cdc] := rfl
  rw [hfactories]
  simp

/-- The strategy of the library that a name resolves to. -/
theorem resolveStrategy_eq_some_iff {factory : Factory StrategyArgs Strategy} :
    defaults.resolveStrategy name = .ok (some factory) ↔
      StandsFor name "RandomStrategy" ∧ factory = randomStrategy ∨
        StandsFor name "RoundRobinStrategy" ∧ factory = roundRobinStrategy ∨
          StandsFor name "NearestStrategy" ∧ factory = nearestStrategy := by
  rw [resolveStrategy, Except.mapError_eq_ok_iff, resolve_eq_some_iff plain_strategies]
  constructor
  · rintro ⟨-, known, hstands, hknown⟩
    have hmem : known ∈ ["RandomStrategy", "RoundRobinStrategy", "NearestStrategy"] :=
      exists_exact_iff.1 ⟨factory, hknown⟩
    simp only [List.mem_cons, List.not_mem_nil, or_false] at hmem
    rcases hmem with rfl | rfl | rfl
    · exact .inl ⟨hstands, (Option.some.inj hknown).symm⟩
    · exact .inr (.inl ⟨hstands, (Option.some.inj hknown).symm⟩)
    · exact .inr (.inr ⟨hstands, (Option.some.inj hknown).symm⟩)
  · rintro (⟨hstands, rfl⟩ | ⟨hstands, rfl⟩ | ⟨hstands, rfl⟩)
    · exact ⟨hstands.trim_ne (by decide), _, hstands, rfl⟩
    · exact ⟨hstands.trim_ne (by decide), _, hstands, rfl⟩
    · exact ⟨hstands.trim_ne (by decide), _, hstands, rfl⟩

/-! ## What the library makes -/

/-- Under the library's activator a strategy is one of the library's. -/
theorem libraryStrategy_of_resolve {factory : Factory StrategyArgs Strategy}
    (h : defaults.resolveStrategy name = .ok (some factory)) : LibraryStrategy factory := by
  rcases resolveStrategy_eq_some_iff.1 h with ⟨-, rfl⟩ | ⟨-, rfl⟩ | ⟨-, rfl⟩
  · exact .inl rfl
  · exact .inr (.inl rfl)
  · exact .inr (.inr rfl)

/-- A snitch of the library is made for every view. -/
theorem snitch_made {factory : Factory SnitchArgs Snitch}
    (h : defaults.resolveSnitch name = .ok (some factory)) (view : ClusterView) :
    ∃ snitch, factory ⟨some view⟩ = .ok snitch := by
  have hmem := mem_of_resolve (Except.mapError_eq_ok h)
  have hfactories : defaults.snitches.factories.map Prod.snd =
      [fun _ => .ok .rackInferring, fun _ => .ok .simple, topologySnitch] := rfl
  rw [hfactories] at hmem
  simp only [List.mem_cons, List.not_mem_nil, or_false] at hmem
  rcases hmem with rfl | rfl | rfl
  · exact ⟨_, rfl⟩
  · exact ⟨_, rfl⟩
  · exact ⟨_, rfl⟩

/-- A pool of the library is made for every endpoint. -/
theorem pool_made {found : Option (Factory PoolArgs Pool)}
    (h : defaults.resolvePool name = .ok found) (args : PoolArgs) :
    ∃ pool, (found.getD boundedPool) args = .ok pool := by
  cases found with
  | none => exact ⟨_, rfl⟩
  | some factory =>
      have hmem := mem_of_resolve (Except.mapError_eq_ok h)
      have hfactories : defaults.pools.factories.map Prod.snd = [boundedPool, noReusePool] :=
        rfl
      rw [hfactories] at hmem
      simp only [List.mem_cons, List.not_mem_nil, or_false] at hmem
      rcases hmem with rfl | rfl
      · exact ⟨_, rfl⟩
      · exact ⟨_, rfl⟩

/-- A strategy of the library is made over any candidates; one that ranks needs a snitch and
an address to measure from. -/
theorem strategy_made {factory : Factory StrategyArgs Strategy}
    (h : defaults.resolveStrategy name = .ok (some factory)) {args : StrategyArgs}
    (hnearest : StandsFor name "NearestStrategy" →
      args.snitch.isSome = true ∧ args.origin.isSome = true) :
    ∃ strategy, factory args = .ok strategy := by
  rcases resolveStrategy_eq_some_iff.1 h with ⟨-, rfl⟩ | ⟨-, rfl⟩ | ⟨hstands, rfl⟩
  · cases hseed : args.seed with
    | none => exact ⟨_, by rw [randomStrategy, hseed]⟩
    | some seed => exact ⟨_, by rw [randomStrategy, hseed]⟩
  · exact ⟨_, rfl⟩
  · obtain ⟨hsnitch, horigin⟩ := hnearest hstands
    obtain ⟨snitch, hsnitch⟩ := Option.isSome_iff_exists.1 hsnitch
    obtain ⟨origin, horigin⟩ := Option.isSome_iff_exists.1 horigin
    exact ⟨_, by rw [nearestStrategy, hsnitch, horigin]⟩

/-- A strategy that ranks refuses to be made without a snitch or without an address. -/
theorem isSome_of_nearestStrategy {args : StrategyArgs} {strategy : Strategy}
    (h : nearestStrategy args = .ok strategy) :
    args.snitch.isSome = true ∧ args.origin.isSome = true := by
  unfold nearestStrategy at h
  cases hsnitch : args.snitch with
  | none =>
      rw [hsnitch] at h
      cases h
  | some snitch =>
      cases horigin : args.origin with
      | none =>
          rw [hsnitch, horigin] at h
          cases h
      | some origin => exact ⟨rfl, rfl⟩

end Activator
end RingRouting
