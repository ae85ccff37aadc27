import Mathlib.Data.List.Induction
import RingRouting.Proofs.Planning.Names

/-!
# What a history of registrations resolves to

A registry is made by registering factories one after another, under any names: names with dots
or blanks in them, the empty name, names that were registered before.  A configured name, blanks
around it left out, finds what was registered last under exactly that name; only if there is
nothing, what was registered last under the part after its last dot.

Main definitions:

- `Registry.registered`: the registry that a history of registrations makes.
- `Registry.lastUnder`: what a history has registered last under a name.
- `Registry.IsLastSegment`: what follows the last dot of a name.

Main results:

- Theorem `Registry.exact_registered`: what is registered under exactly a name.
- Theorem `Registry.find?_registered`: what a name finds.
- Theorem `Registry.resolves_to_last_registered`: what a configured name resolves to, and which
  registrations can change it.
-/

namespace RingRouting
namespace Registry

variable {Args Component : Type}

/-! ## Histories -/

/-- The registry that some registrations make, one after another. -/
def registered (capability : Capability) (history : List (String × Factory Args Component)) :
    Registry Args Component :=
  history.foldl (fun registry entry => registry.register entry.1 entry.2) (empty capability)

/-- The factory that was registered last under exactly this name. -/
def lastUnder (history : List (String × Factory Args Component)) (name : String) :
    Option (Factory Args Component) :=
  (history.reverse.find? fun entry => entry.1 == name).map Prod.snd

/-- The second name is what follows the last dot of the first. -/
def IsLastSegment (name last : String) : Prop :=
  ∃ qualifier : List Char, name.toList = qualifier ++ '.' :: last.toList ∧ '.' ∉ last.toList

theorem registered_concat (capability : Capability)
    (history : List (String × Factory Args Component)) (name : String)
    (factory : Factory Args Component) :
    registered capability (history ++ [(name, factory)]) =
      (registered capability history).register name factory :=
  List.foldl_append

theorem lastUnder_concat (history : List (String × Factory Args Component)) (added name : String)
    (factory : Factory Args Component) :
    lastUnder (history ++ [(added, factory)]) name =
      if added = name then some factory else lastUnder history name := by
  by_cases h : added = name
  · simp [lastUnder, h]
  · simp [lastUnder, h]

@[simp]
theorem capability_registered (capability : Capability)
    (history : List (String × Factory Args Component)) :
    (registered capability history).capability = capability := by
  induction history using List.reverseRecOn with
  | nil => rfl
  | append_singleton history entry ih =>
      rw [registered_concat]
      exact ih

/-! ## Exact names -/

/-- Leaving out the entries of one name changes nothing for another. -/
theorem lookup_filter_ne {β : Type} {entries : List (String × β)} {left name : String}
    (h : name ≠ left) :
    (entries.filter fun entry => entry.1 != left).lookup name = entries.lookup name := by
  induction entries with
  | nil => rfl
  | cons entry entries ih =>
      rcases entry with ⟨known, value⟩
      by_cases hleft : known = left
      · subst hleft
        rw [List.filter_cons_of_neg (by simp), ih, List.lookup_cons, beq_false_of_ne h]
      · rw [List.filter_cons_of_pos (by simpa using hleft), List.lookup_cons, List.lookup_cons, ih]

/-- Under the name just registered stands the factory just registered; other names are as
before. -/
theorem exact_register (registry : Registry Args Component) (added name : String)
    (factory : Factory Args Component) :
    (registry.register added factory).exact name =
      if added = name then some factory else registry.exact name := by
  simp only [exact, register, List.lookup_append]
  by_cases h : added = name
  · subst h
    have hgone : (registry.factories.filter fun entry => entry.1 != added).lookup added = none := by
      rw [List.lookup_eq_none_iff]
      intro entry hentry
      have hother : entry.1 ≠ added := by simpa using (List.mem_filter.1 hentry).2
      simpa using Ne.symm hother
    simp [hgone]
  · have hother : (name == added) = false := beq_false_of_ne (Ne.symm h)
    simp [lookup_filter_ne (Ne.symm h), h, List.lookup_cons, hother]

/-- Under each name stands the factory that was registered last. -/
theorem exact_registered (capability : Capability)
    (history : List (String × Factory Args Component)) (name : String) :
    (registered capability history).exact name = lastUnder history name := by
  induction history using List.reverseRecOn with
  | nil => rfl
  | append_singleton history entry ih =>
      rw [registered_concat, exact_register, lastUnder_concat, ih]

/-! ## Last segments -/

theorem lastSegment?_eq (name : String) :
    lastSegment? name =
      if '.' ∈ name.toList then some (String.ofList (segment name.toList)) else none := by
  simp [lastSegment?, segment]

theorem IsLastSegment.mem_dot {name last : String} (h : IsLastSegment name last) :
    '.' ∈ name.toList := by
  rcases h with ⟨qualifier, hsplit, -⟩
  rw [hsplit]
  simp

/-- A name has a last segment if it has a dot, and then only one. -/
theorem lastSegment?_eq_some_iff {name last : String} :
    lastSegment? name = some last ↔ IsLastSegment name last := by
  rw [lastSegment?_eq]
  constructor
  · intro h
    by_cases hdot : '.' ∈ name.toList
    · rw [if_pos hdot] at h
      cases h
      rcases exists_qualifier hdot with ⟨qualifier, hsplit, hplain⟩
      rw [IsLastSegment, String.toList_ofList]
      exact ⟨qualifier, hsplit, hplain⟩
    · rw [if_neg hdot] at h
      cases h
  · intro h
    rw [if_pos h.mem_dot]
    rcases h with ⟨qualifier, hsplit, hplain⟩
    rw [hsplit, segment_append qualifier hplain, String.ofList_toList]

/-! ## What names find -/

/-- A name finds what was registered last under exactly it, or else under its last segment. -/
theorem find?_registered (capability : Capability)
    (history : List (String × Factory Args Component)) (name : String) :
    (registered capability history).find? name =
      (lastUnder history name).or ((lastSegment? name).bind (lastUnder history)) := by
  have hexact : (registered capability history).exact = lastUnder history :=
    funext (exact_registered capability history)
  rw [find?, hexact]
  cases lastUnder history name <;> rfl

/-- A registration under another name, which is not one that the name would fall back on, is
nothing to the name. -/
theorem find?_registered_concat {history : List (String × Factory Args Component)}
    {added name : String} (hname : added ≠ name)
    (hlast : lastUnder history name = none → ¬ IsLastSegment name added)
    (capability : Capability) (factory : Factory Args Component) :
    (registered capability (history ++ [(added, factory)])).find? name =
      (registered capability history).find? name := by
  rw [find?_registered, find?_registered, lastUnder_concat, if_neg hname]
  cases hexact : lastUnder history name with
  | some found => rfl
  | none =>
      simp only [Option.none_or]
      apply Option.bind_congr
      intro last hsegment
      have hother : added ≠ last := by
        rintro rfl
        exact hlast hexact (lastSegment?_eq_some_iff.1 hsegment)
      rw [lastUnder_concat, if_neg hother]

section Resolving

variable {registry other : Registry Args Component} {name : String}

theorem resolve_of_found (hname : Blank.trim name ≠ "") {factory : Factory Args Component}
    (hfound : registry.find? (Blank.trim name) = some factory) :
    registry.resolve name = .ok (some factory) := by
  simp [resolve, hname, hfound]

theorem resolve_of_unknown (hname : Blank.trim name ≠ "")
    (hunknown : registry.find? (Blank.trim name) = none) :
    registry.resolve name = .error (.unknownType registry.capability (Blank.trim name)) := by
  simp [resolve, hname, hunknown]

/-- A name resolves alike where it finds the same. -/
theorem resolve_congr (hcapability : registry.capability = other.capability)
    (hfind : registry.find? (Blank.trim name) = other.find? (Blank.trim name)) :
    registry.resolve name = other.resolve name := by
  simp only [resolve, hcapability, hfind]

end Resolving

/-- What a configured name resolves to after any registrations: nothing if it is blank; else the
factory that was registered last under exactly the name; else, where it has a dot, the one that
was registered last under its last segment; else an error that names it.  So one more
registration changes the answer only if it is made under that very name, or under its last
segment while nothing is registered under the name itself. -/
theorem resolves_to_last_registered (capability : Capability)
    (history : List (String × Factory Args Component)) (name : String) :
    let registry := registered capability history
    let wanted := Blank.trim name
    (registry.resolve name = .ok none ↔ wanted = "") ∧
    (wanted ≠ "" →
      (∀ factory, lastUnder history wanted = some factory →
        registry.resolve name = .ok (some factory)) ∧
      (lastUnder history wanted = none →
        (∀ last factory, IsLastSegment wanted last → lastUnder history last = some factory →
          registry.resolve name = .ok (some factory)) ∧
        ((∀ last, IsLastSegment wanted last → lastUnder history last = none) →
          registry.resolve name = .error (.unknownType capability wanted)))) ∧
    ∀ added factory,
      (registered capability (history ++ [(added, factory)])).resolve name ≠
          registry.resolve name →
        wanted ≠ "" ∧
          (added = wanted ∨ IsLastSegment wanted added ∧ lastUnder history wanted = none) := by
  intro registry wanted
  refine ⟨resolve_eq_none_iff, ?_, ?_⟩
  · intro hwanted
    refine ⟨?_, ?_⟩
    · intro factory hexact
      apply resolve_of_found hwanted
      rw [find?_registered, hexact, Option.some_or]
    · intro hexact
      refine ⟨?_, ?_⟩
      · intro last factory hsegment hlast
        apply resolve_of_found hwanted
        rw [find?_registered, hexact, lastSegment?_eq_some_iff.2 hsegment]
        exact hlast
      · intro hlast
        have hunknown : registry.find? wanted = none := by
          rw [find?_registered, hexact, Option.none_or, Option.bind_eq_none_iff]
          intro last hsegment
          exact hlast last (lastSegment?_eq_some_iff.1 hsegment)
        rw [resolve_of_unknown hwanted hunknown, capability_registered]
  · intro added factory hchanged
    constructor
    · intro hblank
      apply hchanged
      rw [resolve_eq_none_iff.2 hblank]
      exact (resolve_eq_none_iff.2 hblank).symm
    · by_contra hneither
      rw [not_or, not_and] at hneither
      apply hchanged
      apply resolve_congr
      · rw [capability_registered, capability_registered]
      · apply find?_registered_concat hneither.1
        intro hexact hsegment
        exact hneither.2 hsegment hexact

end Registry
end RingRouting
