import Mathlib.Data.List.Infix
import RingRouting.Proofs.Planning.Factories

/-!
# Two ways of naming a partitioner

A partitioner is named by its short name or by any text that ends in its class name.  The library's
activator is stricter: what it knows is the class name alone, or after a last dot.  No text ends in
two class names, and no short name does in one.  So each text names one partitioner at most, and
whatever the activator makes of a configured name, the trimmed name stands for the same.

Main results:

- Theorem `Partitioner.goesBy_unique`: a text names one partitioner.
- Theorem `Partitioner.ofName?_eq_some_iff`: the partitioner that a text names.
- Theorem `Activator.createPartitioner_eq_some_iff`: the names that the activator knows.
- Theorem `Activator.partitioner_names_agree`: the two ways side by side.
-/

namespace RingRouting

/-! ## Texts that name partitioners -/

namespace Partitioner

theorem goesBy_iff {partitioner : Partitioner} {text : String} :
    partitioner.goesBy text = true ↔
      partitioner.className.toList <:+ text.toList ∨ text = partitioner.name := by
  rw [goesBy, Bool.or_eq_true, List.isSuffixOf_iff_suffix, beq_iff_eq]

/-- No class name ends in another one. -/
theorem eq_of_className_suffix {first second : Partitioner}
    (h : first.className.toList <:+ second.className.toList) : first = second := by
  revert h
  cases first <;> cases second <;> decide

/-- No short name ends in a class name. -/
theorem not_className_suffix_name (first second : Partitioner) :
    ¬ first.className.toList <:+ second.name.toList := by
  cases first <;> cases second <;> decide

theorem name_injective {first second : Partitioner} (h : first.name = second.name) :
    first = second := by
  revert h
  cases first <;> cases second <;> decide

/-- A text names one partitioner at most. -/
theorem goesBy_unique {first second : Partitioner} {text : String}
    (hfirst : first.goesBy text = true) (hsecond : second.goesBy text = true) :
    first = second := by
  rw [goesBy_iff] at hfirst hsecond
  rcases hfirst with hfirst | hfirst <;> rcases hsecond with hsecond | hsecond
  · rcases List.suffix_or_suffix_of_suffix hfirst hsecond with h | h
    · exact eq_of_className_suffix h
    · exact (eq_of_className_suffix h).symm
  · exact absurd (hsecond ▸ hfirst) (not_className_suffix_name first second)
  · exact absurd (hfirst ▸ hsecond) (not_className_suffix_name second first)
  · exact name_injective (hfirst.symm.trans hsecond)

theorem goesBy_of_ofName? {text : String} {partitioner : Partitioner}
    (h : ofName? text = some partitioner) : partitioner.goesBy text = true := by
  unfold ofName? at h
  exact List.find?_some (p := (goesBy · text)) h

/-- Since a text names one partitioner at most, the order in which they are tried is nothing
to it. -/
theorem ofName?_eq_some_iff {text : String} {partitioner : Partitioner} :
    ofName? text = some partitioner ↔
      partitioner.className.toList <:+ text.toList ∨ text = partitioner.name := by
  rw [← goesBy_iff]
  constructor
  · exact goesBy_of_ofName?
  · intro hgoes
    cases hfound : ofName? text with
    | none =>
        have hmem : partitioner ∈ [murmur3, random, cdc] := by cases partitioner <;> simp
        exact absurd hgoes (List.find?_eq_none.1 hfound partitioner hmem)
    | some found => rw [goesBy_unique (goesBy_of_ofName? hfound) hgoes]

end Partitioner

/-! ## Names that the activator knows -/

namespace Activator

open Registry (StandsFor)

/-- The partitioners of the library are registered under their class names. -/
theorem exact_className (partitioner : Partitioner) :
    defaults.partitioners.exact partitioner.className = some fun _ => .ok partitioner := by
  cases partitioner <;> rfl

theorem exists_className {known : String} {factory : Factory Unit Partitioner}
    (h : defaults.partitioners.exact known = some factory) :
    ∃ partitioner : Partitioner, known = partitioner.className := by
  have hmem : known ∈ ["Murmur3Partitioner", "RandomPartitioner", "CDCPartitioner"] :=
    Registry.exists_exact_iff.1 ⟨factory, h⟩
  simp only [List.mem_cons, List.not_mem_nil, or_false] at hmem
  rcases hmem with rfl | rfl | rfl
  · exact ⟨.murmur3, rfl⟩
  · exact ⟨.random, rfl⟩
  · exact ⟨.cdc, rfl⟩

/-- A partitioner is made if a factory is found that makes it, and none if none is found. -/
theorem createPartitioner_eq_ok_iff {activator : Activator} {name : String}
    {made : Option Partitioner} :
    activator.createPartitioner name = .ok made ↔
      ∃ found, activator.partitioners.resolve name = .ok found ∧ build found () = .ok made := by
  simp only [createPartitioner_eq, resolvePartitioner, Except.bind_eq_ok_iff,
    Except.mapError_eq_ok_iff]

/-- The activator makes the partitioner whose class name a configured name stands for. -/
theorem createPartitioner_eq_some_iff {name : String} {partitioner : Partitioner} :
    defaults.createPartitioner name = .ok (some partitioner) ↔
      StandsFor name partitioner.className := by
  rw [createPartitioner_eq_ok_iff]
  constructor
  · rintro ⟨found, hfound, hmade⟩
    obtain ⟨factory, rfl, hmade⟩ := build_eq_some_iff.1 hmade
    obtain ⟨-, known, hstands, hknown⟩ :=
      (Registry.resolve_eq_some_iff plain_partitioners).1 hfound
    obtain ⟨other, rfl⟩ := exists_className hknown
    rw [exact_className] at hknown
    cases hknown
    cases hmade
    exact hstands
  · intro hstands
    have hblank : Blank.trim name ≠ "" := hstands.trim_ne (by cases partitioner <;> decide)
    have hfound := (Registry.resolve_eq_some_iff plain_partitioners).2
      ⟨hblank, _, hstands, exact_className partitioner⟩
    exact ⟨_, hfound, rfl⟩

/-- The activator makes no partitioner, without an error, only of names of blanks. -/
theorem createPartitioner_eq_none_iff {activator : Activator} {name : String} :
    activator.createPartitioner name = .ok none ↔ Blank.trim name = "" := by
  simp only [createPartitioner_eq_ok_iff, build_eq_none_iff, exists_eq_right,
    Registry.resolve_eq_none_iff]

/-- A name that stands for a class name ends in it. -/
theorem suffix_of_standsFor {name known : String} (h : StandsFor name known) :
    known.toList <:+ (Blank.trim name).toList := by
  rcases h with rfl | ⟨qualifier, hsplit, -⟩
  · exact List.suffix_rfl
  · rw [hsplit]
    exact (List.suffix_cons _ _).trans (List.suffix_append _ _)

/-- Whatever the library's activator makes of a configured name, be it a partitioner or none, the
name without the blanks around it stands for the same.  It makes a partitioner of the names that
are its class name or end in it after their last dot; texts name one as well if they end in the
class name in any other way, or are the short name. -/
theorem partitioner_names_agree (name : String) :
    (∀ found, defaults.createPartitioner name = .ok found →
      Partitioner.ofName? (Blank.trim name) = found) ∧
    ∀ partitioner : Partitioner,
      (defaults.createPartitioner name = .ok (some partitioner) ↔
        StandsFor name partitioner.className) ∧
      (Partitioner.ofName? (Blank.trim name) = some partitioner ↔
        partitioner.className.toList <:+ (Blank.trim name).toList ∨
          Blank.trim name = partitioner.name) := by
  refine ⟨fun found hcreated => ?_, fun partitioner =>
    ⟨createPartitioner_eq_some_iff, Partitioner.ofName?_eq_some_iff⟩⟩
  cases found with
  | none =>
      rw [createPartitioner_eq_none_iff.1 hcreated]
      decide
  | some partitioner =>
      have hstands := createPartitioner_eq_some_iff.1 hcreated
      exact Partitioner.ofName?_eq_some_iff.2 (.inl (suffix_of_standsFor hstands))

/-- A class name that nothing sets apart from what stands before it is known to one of the two
ways only. -/
example : Partitioner.ofName? "XRandomPartitioner" = some .random ∧
    defaults.createPartitioner "XRandomPartitioner" =
      .error (.unknownType .partitioner "XRandomPartitioner") := by
  decide

end Activator
end RingRouting
