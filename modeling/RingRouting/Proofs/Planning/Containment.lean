import Mathlib.Data.List.DropRight
import RingRouting.Proofs.Planning.Registration

/-!
# Which names a registry contains

A registry contains a name if something was registered under exactly that name or under its last
segment.  The name is taken as it is, while a configured name is looked for without the blanks
around it, and not at all if it is blank.  The two agree on names that are not empty and have no
blanks at their ends.  Of other names a padded one may be missed that resolves, and an empty one,
or one registered with its padding, may be contained that does not resolve; there are such names
as soon as anything is registered.

Main definitions:

- `Registry.Matches`: whether a name finds what is registered under another one.
- `Registry.padded`: a name with some blanks in front of it.

Main results:

- Theorem `Registry.contains_register_iff`: what one more registration makes known.
- Theorem `Registry.contains_registered_iff`: what a history of registrations has made known.
- Theorem `Registry.exists_resolve_iff`: names that resolve, told by names that are contained.
- Theorem `Registry.contains_agrees_iff`: registries for which this is the same for all names.
- Theorem `Registry.contains_takes_names_as_they_are`: where the two agree.
-/

namespace RingRouting

/-! ## Trimmed texts -/

namespace Blank

/-- A trimmed text does not end in a blank. -/
theorem dropWhile_reverse_of_trim {text : String} (h : trim text = text) :
    text.toList.reverse.dropWhile isBlank = text.toList.reverse := by
  have htext := congrArg String.toList h
  rw [trim, String.toList_ofList] at htext
  rw [← htext, List.reverse_reverse, List.dropWhile_idempotent]

/-- What is dropped from the front ends before the first element that is kept. -/
theorem dropWhile_append_cons {α : Type} {p : α → Bool} {kept : α} (h : p kept = false)
    (front rest : List α) :
    (front ++ kept :: rest).dropWhile p = front.dropWhile p ++ kept :: rest := by
  rw [List.dropWhile_append]
  split
  · rename_i hnone
    rw [List.isEmpty_iff.1 hnone, List.dropWhile_cons_of_neg (by simp [h]), List.nil_append]
  · rfl

/-- Where the last segment of a name is trimmed, only what stands before it is shortened. -/
theorem toList_trim_of_append {text : String} {qualifier : List Char} {last : String}
    (hsplit : text.toList = qualifier ++ '.' :: last.toList) (hlast : trim last = last)
    (hsome : last ≠ "") :
    (trim text).toList = qualifier.dropWhile isBlank ++ '.' :: last.toList := by
  have hend := dropWhile_reverse_of_trim hlast
  have hnonempty : ¬ (last.toList.reverse.dropWhile isBlank).isEmpty = true := by
    rw [hend]
    simpa using hsome
  rw [trim, String.toList_ofList, hsplit, dropWhile_append_cons (by decide), List.reverse_append,
    List.reverse_cons, List.append_assoc, List.dropWhile_append, if_neg hnonempty, hend]
  simp

end Blank

namespace Registry

variable {Args Component : Type}

/-! ## Last segments -/

/-- A name with a dot has a last segment. -/
theorem exists_isLastSegment {name : String} (h : '.' ∈ name.toList) :
    ∃ last, IsLastSegment name last := by
  obtain ⟨qualifier, hsplit, hplain⟩ := exists_qualifier h
  refine ⟨String.ofList (segment name.toList), qualifier, ?_, ?_⟩
  · rwa [String.toList_ofList]
  · rwa [String.toList_ofList]

/-- A name has one last segment. -/
theorem IsLastSegment.unique {name last other : String} (h : IsLastSegment name last)
    (hother : IsLastSegment name other) : last = other :=
  Option.some.inj ((lastSegment?_eq_some_iff.2 h).symm.trans (lastSegment?_eq_some_iff.2 hother))

/-! ## What one name finds -/

/-- The name is the registered one, or ends in it after its last dot. -/
def Matches (name known : String) : Prop :=
  known = name ∨ IsLastSegment name known

theorem isSome_exact_register (registry : Registry Args Component) (added name : String)
    (factory : Factory Args Component) :
    ((registry.register added factory).exact name).isSome = true ↔
      added = name ∨ (registry.exact name).isSome = true := by
  rw [exact_register]
  by_cases h : added = name <;> simp [h]

theorem contains_iff (registry : Registry Args Component) (name : String) :
    registry.contains name = true ↔
      (registry.exact name).isSome = true ∨
        ∃ last, IsLastSegment name last ∧ (registry.exact last).isSome = true := by
  rw [contains, find?]
  cases registry.exact name with
  | some factory => simp
  | none => simp [Option.isSome_bind, Option.any_eq_true, lastSegment?_eq_some_iff]

@[simp]
theorem contains_empty (capability : Capability) (name : String) :
    (empty capability : Registry Args Component).contains name = false := by
  simp [contains, find?, exact, empty]

/-- One more registration makes known the names that match it. -/
theorem contains_register_iff (registry : Registry Args Component) (added name : String)
    (factory : Factory Args Component) :
    (registry.register added factory).contains name = true ↔
      Matches name added ∨ registry.contains name = true := by
  simp only [contains_iff, isSome_exact_register, Matches]
  constructor
  · rintro ((hsame | hexact) | ⟨last, hlast, rfl | hexact⟩)
    · exact .inl (.inl hsame)
    · exact .inr (.inl hexact)
    · exact .inl (.inr hlast)
    · exact .inr (.inr ⟨last, hlast, hexact⟩)
  · rintro ((hsame | hlast) | (hexact | ⟨last, hlast, hexact⟩))
    · exact .inl (.inl hsame)
    · exact .inr ⟨added, hlast, .inl rfl⟩
    · exact .inl (.inr hexact)
    · exact .inr ⟨last, hlast, .inr hexact⟩

/-- A name is contained if it matches one that was registered. -/
theorem contains_registered_iff (capability : Capability)
    (history : List (String × Factory Args Component)) (name : String) :
    (registered capability history).contains name = true ↔
      ∃ entry ∈ history, Matches name entry.1 := by
  induction history using List.reverseRecOn with
  | nil => simp [registered]
  | append_singleton history entry ih =>
      rw [registered_concat, contains_register_iff, ih]
      simp [or_comm, or_and_right, exists_or]

/-! ## What resolves -/

/-- The names that resolve are those that are contained without the blanks around them. -/
theorem exists_resolve_iff (registry : Registry Args Component) (name : String) :
    (∃ factory, registry.resolve name = .ok (some factory)) ↔
      Blank.trim name ≠ "" ∧ registry.contains (Blank.trim name) = true := by
  by_cases hblank : Blank.trim name = ""
  · simp [resolve_eq_none_iff.2 hblank, hblank]
  · cases hfind : registry.find? (Blank.trim name) with
    | some factory => simp [resolve_of_found hblank hfind, contains, hfind, hblank]
    | none => simp [resolve_of_unknown hblank hfind, contains, hfind]

theorem resolve_of_not_contains {registry : Registry Args Component} {name : String}
    (hname : Blank.trim name ≠ "") (hunknown : ¬ registry.contains (Blank.trim name) = true) :
    registry.resolve name = .error (.unknownType registry.capability (Blank.trim name)) :=
  resolve_of_unknown hname (by simpa [contains] using hunknown)

/-- A name that matches a trimmed one still does without the blanks around it. -/
theorem Matches.trim {name known : String} (h : Matches name known)
    (hknown : Blank.trim known = known) (hsome : known ≠ "") :
    Matches (Blank.trim name) known ∧ Blank.trim name ≠ "" := by
  rcases h with rfl | ⟨qualifier, hsplit, hplain⟩
  · exact ⟨.inl hknown.symm, hknown.symm ▸ hsome⟩
  · have htrim := Blank.toList_trim_of_append hsplit hknown hsome
    refine ⟨.inr ⟨_, htrim, hplain⟩, ?_⟩
    intro hblank
    rw [hblank] at htrim
    exact List.append_ne_nil_of_right_ne_nil _ (List.cons_ne_nil _ _) htrim.symm

/-! ## Padded names -/

/-- The name with some blanks in front of it. -/
def padded (count : Nat) (name : String) : String :=
  String.ofList (List.replicate count ' ' ++ name.toList)

@[simp]
theorem toList_padded (count : Nat) (name : String) :
    (padded count name).toList = List.replicate count ' ' ++ name.toList :=
  String.toList_ofList

@[simp]
theorem trim_padded (count : Nat) (name : String) :
    Blank.trim (padded count name) = Blank.trim name := by
  rw [Blank.trim, toList_padded, List.dropWhile_append_of_pos, Blank.trim]
  intro c hc
  rw [List.eq_of_mem_replicate hc]
  decide

/-- Blanks in front of a name are not part of its last segment. -/
theorem IsLastSegment.of_padded {count : Nat} {name last : String}
    (h : IsLastSegment (padded count name) last) : IsLastSegment name last := by
  have hdot : '.' ∈ name.toList := by simpa using h.mem_dot
  obtain ⟨known, qualifier, hsplit, hplain⟩ := exists_isLastSegment hdot
  have hpadded : IsLastSegment (padded count name) known := by
    refine ⟨List.replicate count ' ' ++ qualifier, ?_, hplain⟩
    rw [toList_padded, hsplit, List.append_assoc]
  rw [h.unique hpadded]
  exact ⟨qualifier, hsplit, hplain⟩

/-- A long padding takes a name out of what was registered. -/
theorem exists_padding (history : List (String × Factory Args Component)) (name : String) :
    ∃ count, ∀ entry ∈ history, entry.1 ≠ padded count name := by
  let lengths := history.map fun entry => entry.1.toList.length
  refine ⟨lengths.max?.getD 0 + 1, ?_⟩
  intro entry hentry hsame
  have hmem : entry.1.toList.length ∈ lengths := List.mem_map.2 ⟨entry, hentry, rfl⟩
  have hle : entry.1.toList.length ≤ lengths.max?.getD 0 := List.le_max?_getD_of_mem hmem
  rw [hsame, toList_padded, List.length_append, List.length_replicate] at hle
  omega

/-- Something was registered under a name whose last segment, if it has one, is not
registered. -/
theorem exists_unsegmented {history : List (String × Factory Args Component)}
    (h : history ≠ []) :
    ∃ entry ∈ history, ∀ other ∈ history, ¬ IsLastSegment entry.1 other.1 := by
  by_cases hplain : ∃ entry ∈ history, '.' ∉ entry.1.toList
  · obtain ⟨entry, hentry, hplain⟩ := hplain
    exact ⟨entry, hentry, fun other _ hlast => hplain hlast.mem_dot⟩
  · obtain ⟨entry, hentry⟩ := List.exists_mem_of_ne_nil history h
    refine ⟨entry, hentry, ?_⟩
    rintro other hother ⟨qualifier, -, hother'⟩
    exact hplain ⟨other, hother, hother'⟩

/-- What is contained and what resolves is the same for all names only while nothing is
registered. -/
theorem contains_agrees_iff (capability : Capability)
    (history : List (String × Factory Args Component)) :
    (∀ name, (registered capability history).contains name = true ↔
      ∃ factory, (registered capability history).resolve name = .ok (some factory)) ↔
      history = [] := by
  constructor
  · intro hagree
    by_contra hsome
    obtain ⟨entry, hentry, hlast⟩ := exists_unsegmented hsome
    obtain ⟨count, hcount⟩ := exists_padding history entry.1
    -- the name resolves with the padding as it does without, but only one of them is contained
    have hcontained := (contains_registered_iff capability history entry.1).2
      ⟨entry, hentry, .inl rfl⟩
    have hpadded : (registered capability history).contains (padded count entry.1) = true := by
      rw [hagree, exists_resolve_iff, trim_padded, ← exists_resolve_iff, ← hagree]
      exact hcontained
    obtain ⟨other, hother, hsame | hsegment⟩ := (contains_registered_iff _ _ _).1 hpadded
    · exact hcount other hother hsame
    · exact hlast other hother hsegment.of_padded
  · rintro rfl name
    simp [exists_resolve_iff, registered]

/-! ## What is contained and what resolves -/

/-- After any registrations, a registry contains the names that match a registered one as they
are, while those resolve that match one without the blanks around them and are not blank.  So the
two agree on names that have no blanks at their ends and are not empty; and where all registered
names are such, whatever is contained resolves.  On all names they agree only while nothing is
registered. -/
theorem contains_takes_names_as_they_are (capability : Capability)
    (history : List (String × Factory Args Component)) (name : String) :
    let registry := registered capability history
    (registry.contains name = true ↔ ∃ entry ∈ history, Matches name entry.1) ∧
    ((∃ factory, registry.resolve name = .ok (some factory)) ↔
      Blank.trim name ≠ "" ∧ ∃ entry ∈ history, Matches (Blank.trim name) entry.1) ∧
    (Blank.trim name = name → name ≠ "" →
      (registry.contains name = true ↔ ∃ factory, registry.resolve name = .ok (some factory))) ∧
    ((∀ entry ∈ history, Blank.trim entry.1 = entry.1 ∧ entry.1 ≠ "") →
      registry.contains name = true → ∃ factory, registry.resolve name = .ok (some factory)) ∧
    ((∀ other, registry.contains other = true ↔
      ∃ factory, registry.resolve other = .ok (some factory)) ↔ history = []) := by
  intro registry
  have hcontains := contains_registered_iff capability history
  refine ⟨hcontains name, ?_, ?_, ?_, contains_agrees_iff capability history⟩
  · rw [exists_resolve_iff, hcontains]
  · intro htrim hsome
    rw [exists_resolve_iff, htrim]
    simp [hsome]
  · intro hclean hname
    obtain ⟨entry, hentry, hmatch⟩ := (hcontains name).1 hname
    obtain ⟨htrim, hsome⟩ := hclean entry hentry
    obtain ⟨hmatch, hblank⟩ := hmatch.trim htrim hsome
    rw [exists_resolve_iff, hcontains]
    exact ⟨hblank, entry, hentry, hmatch⟩

/-- A name in blanks resolves although it is not contained; and where something is registered
under the empty name, that is contained although it does not resolve. -/
theorem padded_name_resolves_uncontained :
    let factory : Factory Unit String := fun _ => .ok "mine"
    let registry := registered .snitch [("Mine", factory)]
    let nameless := registered .snitch [("", factory)]
    (registry.contains " Mine" = false ∧ registry.resolve " Mine" = .ok (some factory)) ∧
      nameless.contains "" = true ∧ nameless.resolve "" = .ok none :=
  ⟨⟨by decide, rfl⟩, by decide, rfl⟩

end Registry
end RingRouting
