import Mathlib.Data.List.Induction
import Mathlib.Data.List.Nodup

/-!
# Lists without their repetitions

Of each element a list keeps the first occurrence.  What is kept depends on the elements and
their order only, not on how often they come back: it is the same for lists in one order that
have the same elements, and may be taken before other elements are left out, or after it.

Main results:

- Theorem `eraseDups_concat`: one more element.
- Theorem `eraseDups_filterMap`: images that tell their originals apart.
- Theorem `eraseDups_map_eraseDups`: images of what is kept.
- Theorem `eraseDups_eq_of_pairwise`: lists in one order that have the same elements.
- Theorem `eraseReps_eq_eraseDups`: in order, it is enough to look at neighbours.
-/

namespace RingRouting

variable {α β : Type} [DecidableEq α] [DecidableEq β]

theorem eraseDups_concat (list : List α) (a : α) :
    (list ++ [a]).eraseDups = if a ∈ list then list.eraseDups else list.eraseDups ++ [a] := by
  rw [List.eraseDups_append]
  by_cases hknown : a ∈ list
  · simp [hknown, List.removeAll]
  · simp [hknown, List.removeAll, List.eraseDups_cons]

theorem eraseDups_sublist (list : List α) : list.eraseDups.Sublist list := by
  induction list using List.reverseRecOn with
  | nil => exact .slnil
  | append_singleton list a ih =>
      rw [eraseDups_concat]
      split
      · exact ih.trans (List.sublist_append_left list [a])
      · exact ih.append_right [a]

theorem nodup_eraseDups (list : List α) : list.eraseDups.Nodup := by
  induction list using List.reverseRecOn with
  | nil => exact .nil
  | append_singleton list a ih =>
      rw [eraseDups_concat]
      by_cases hknown : a ∈ list
      · rwa [if_pos hknown]
      · rw [if_neg hknown, ← List.concat_eq_append]
        exact ih.concat (mt List.mem_eraseDups.1 hknown)

/-! ## Images -/

/-- Images that determine their originals repeat where these do. -/
theorem eraseDups_filterMap {f : α → Option β}
    (hinj : ∀ a a' b, f a = some b → f a' = some b → a = a') (list : List α) :
    (list.filterMap f).eraseDups = list.eraseDups.filterMap f := by
  induction list using List.reverseRecOn with
  | nil => rfl
  | append_singleton list a ih =>
      rw [List.filterMap_append, eraseDups_concat]
      cases himage : f a with
      | none =>
          rw [List.filterMap_cons_none himage, List.filterMap_nil, List.append_nil, ih]
          by_cases hknown : a ∈ list
          · rw [if_pos hknown]
          · rw [if_neg hknown, List.filterMap_append, List.filterMap_cons_none himage,
              List.filterMap_nil, List.append_nil]
      | some b =>
          have hmem : b ∈ list.filterMap f ↔ a ∈ list := by
            rw [List.mem_filterMap]
            constructor
            · rintro ⟨a', ha', himage'⟩
              exact hinj a' a b himage' himage ▸ ha'
            · exact fun ha => ⟨a, ha, himage⟩
          rw [List.filterMap_cons_some himage, List.filterMap_nil, eraseDups_concat, ih]
          by_cases hknown : a ∈ list
          · rw [if_pos hknown, if_pos (hmem.2 hknown)]
          · rw [if_neg hknown, if_neg (mt hmem.1 hknown), List.filterMap_append,
              List.filterMap_cons_some himage, List.filterMap_nil]

theorem eraseDups_filter (p : α → Bool) (list : List α) :
    (list.filter p).eraseDups = list.eraseDups.filter p := by
  rw [← List.filterMap_eq_filter, eraseDups_filterMap]
  intro a a' b ha ha'
  rw [Option.guard_eq_some_iff] at ha ha'
  exact ha.1.trans ha'.1.symm

/-- Where a list repeats itself, so do its images. -/
theorem eraseDups_map_eraseDups (f : α → β) (list : List α) :
    (list.eraseDups.map f).eraseDups = (list.map f).eraseDups := by
  induction list using List.reverseRecOn with
  | nil => rfl
  | append_singleton list a ih =>
      rw [eraseDups_concat, List.map_append, List.map_singleton, eraseDups_concat, ← ih]
      by_cases hknown : a ∈ list
      · rw [if_pos hknown, if_pos (List.mem_map_of_mem hknown)]
      · have hmem : f a ∈ list.eraseDups.map f ↔ f a ∈ list.map f := by
          simp only [List.mem_map, List.mem_eraseDups]
        rw [if_neg hknown, List.map_append, List.map_singleton, eraseDups_concat]
        simp only [hmem]

/-! ## Lists in order -/

/-- Lists in one order that have the same elements are the same without their repetitions. -/
theorem eraseDups_eq_of_pairwise {r : α → α → Prop} (hantisymm : ∀ a b, r a b → r b a → a = b)
    {list other : List α} (hlist : list.Pairwise r) (hother : other.Pairwise r)
    (hmem : ∀ a, a ∈ list ↔ a ∈ other) : list.eraseDups = other.eraseDups := by
  have hperm : list.eraseDups.Perm other.eraseDups := by
    rw [List.perm_ext_iff_of_nodup (nodup_eraseDups _) (nodup_eraseDups _)]
    simpa only [List.mem_eraseDups] using hmem
  exact hperm.eq_of_pairwise (fun a b _ _ => hantisymm a b)
    (hlist.sublist (eraseDups_sublist list)) (hother.sublist (eraseDups_sublist other))

/-- What the loop has passed by stands before what it still finds. -/
theorem eraseReps_loop (a : α) (list passed : List α) :
    List.eraseRepsBy.loop (· == ·) a list passed =
      passed.reverse ++ (a :: list).eraseReps := by
  induction list generalizing a passed with
  | nil => simp [List.eraseReps, List.eraseRepsBy, List.eraseRepsBy.loop]
  | cons b list ih =>
      simp only [List.eraseReps, List.eraseRepsBy, List.eraseRepsBy.loop] at ih ⊢
      split
      · exact ih a passed
      · rw [ih b (a :: passed), ih b [a]]
        simp

/-- Of two neighbours that are equal one is left out. -/
theorem eraseReps_cons_cons (a b : α) (list : List α) :
    (a :: b :: list).eraseReps =
      if a = b then (b :: list).eraseReps else a :: (b :: list).eraseReps := by
  rw [List.eraseReps, List.eraseRepsBy, List.eraseRepsBy.loop]
  by_cases h : a = b
  · subst h
    simp [eraseReps_loop]
  · simp [eraseReps_loop, h, beq_false_of_ne h]

/-- In a list in order, repetitions stand side by side. -/
theorem eraseReps_eq_eraseDups {r : α → α → Prop} (hantisymm : ∀ a b, r a b → r b a → a = b)
    {list : List α} (h : list.Pairwise r) : list.eraseReps = list.eraseDups := by
  induction list with
  | nil => rfl
  | cons a list ih =>
      cases list with
      | nil => rfl
      | cons b rest =>
          rw [eraseReps_cons_cons, ih h.tail]
          by_cases hsame : a = b
          · subst hsame
            simp [List.eraseDups_cons]
          · have hnew : a ∉ b :: rest := by
              intro hmem
              have hle := (List.pairwise_cons.1 h).1 b List.mem_cons_self
              rcases List.mem_cons.1 hmem with heq | hrest
              · exact hsame heq
              · exact hsame (hantisymm a b hle ((List.pairwise_cons.1 h.tail).1 a hrest))
            have hothers : (b :: rest).filter (fun c => !c == a) = b :: rest :=
              List.filter_eq_self.2 fun c hc => by simpa using ne_of_mem_of_not_mem hc hnew
            rw [if_neg hsame]
            conv_rhs => rw [List.eraseDups_cons, hothers]

end RingRouting
