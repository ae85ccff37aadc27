import Mathlib.Data.List.Basic

/-!
# Stable sorting

Stable sorting keeps the order of elements among which it does not decide.  It makes no
difference therefore whether elements are left out before the others are sorted or after it, and
where elements are sorted by a key, those of one key stand together as they stood before.

Main results:

- Theorem `filter_mergeSort`: elements are left out before sorting, or after it.
- Theorem `mergeSort_eq_flatMap_filter`: sorted by a key, a list is what it has of each key, one
  key after another.
-/

namespace RingRouting

/-! ## Leaving elements out -/

section Filter

variable {α : Type} {le : α → α → Bool}
  (htrans : ∀ a b c, le a b = true → le b c = true → le a c = true)
  (htotal : ∀ a b, (le a b || le b a) = true)

include htrans htotal in
/-- One element more goes where the elements end that it may not precede. -/
theorem mergeSort_cons_split (a : α) (list : List α) :
    ∃ before after, (a :: list).mergeSort le = before ++ a :: after ∧
      list.mergeSort le = before ++ after ∧ (∀ b ∈ before, le a b = false) ∧
      ∀ b ∈ after, le a b = true := by
  obtain ⟨before, after, hsorted, hrest, hbefore⟩ := List.mergeSort_cons htrans htotal a list
  have hpairs := List.pairwise_mergeSort htrans htotal (a :: list)
  rw [hsorted] at hpairs
  have hafter := (List.pairwise_cons.1 (List.pairwise_append.1 hpairs).2.1).1
  exact ⟨before, after, hsorted, hrest, fun b hb => by simpa using hbefore b hb, hafter⟩

/-- A test that fails before some place and holds after it tells the place. -/
theorem filter_append_of_split {p : α → Bool} {front back : List α}
    (hfront : ∀ a ∈ front, p a = false) (hback : ∀ a ∈ back, p a = true) :
    (front ++ back).filter (fun a => !p a) = front := by
  have hall : front.filter (fun a => !p a) = front :=
    List.filter_eq_self.2 fun a ha => by simp [hfront a ha]
  have hnone : back.filter (fun a => !p a) = [] :=
    List.filter_eq_nil_iff.2 fun a ha => by simp [hback a ha]
  rw [List.filter_append, hall, hnone, List.append_nil]

include htrans htotal in
/-- Elements are left out before a list is sorted, or after it. -/
theorem filter_mergeSort (p : α → Bool) (list : List α) :
    (list.mergeSort le).filter p = (list.filter p).mergeSort le := by
  induction list with
  | nil => simp
  | cons a rest ih =>
      obtain ⟨before, after, hsorted, hrest, hbefore, hafter⟩ :=
        mergeSort_cons_split htrans htotal a rest
      rw [hrest, List.filter_append] at ih
      rw [hsorted, List.filter_append]
      by_cases hkeep : p a = true
      · obtain ⟨keptBefore, keptAfter, hkeptSorted, hkept, hkeptBefore, hkeptAfter⟩ :=
          mergeSort_cons_split htrans htotal a (rest.filter p)
        rw [hkept] at ih
        -- `a` has one place among the elements that are kept, though it is found twice
        have hplace : before.filter p = keptBefore := by
          rw [← filter_append_of_split hkeptBefore hkeptAfter, ← ih, filter_append_of_split]
          · exact fun b hb => hbefore b (List.mem_filter.1 hb).1
          · exact fun b hb => hafter b (List.mem_filter.1 hb).1
        rw [hplace] at ih
        rw [List.filter_cons_of_pos hkeep, List.filter_cons_of_pos hkeep, hkeptSorted, hplace,
          List.append_cancel_left ih]
      · rw [List.filter_cons_of_neg hkeep, List.filter_cons_of_neg hkeep, ih]

end Filter

/-! ## Sorting by a key -/

section Key

variable {α : Type} {key : α → Nat} {keys : List Nat}

/-- A test that no element passes after one that fails it divides the list in two. -/
theorem filter_append_filter_not {p : α → Bool} {list : List α}
    (h : list.Pairwise fun a b => p b = true → p a = true) :
    list.filter p ++ list.filter (fun a => !p a) = list := by
  induction list with
  | nil => rfl
  | cons a rest ih =>
      rw [List.pairwise_cons] at h
      by_cases hfirst : p a = true
      · rw [List.filter_cons_of_pos hfirst, List.filter_cons_of_neg (by simpa using hfirst),
          List.cons_append, ih h.2]
      · have hnone : rest.filter p = [] :=
          List.filter_eq_nil_iff.2 fun b hb hpass => hfirst (h.1 b hb hpass)
        rw [List.filter_cons_of_neg hfirst, List.filter_cons_of_pos (by simpa using hfirst),
          hnone, List.nil_append]
        have hrest := ih h.2
        rw [hnone, List.nil_append] at hrest
        rw [hrest]

/-- Elements of one key are found among those that do not have another one. -/
theorem filter_key_of_ne {j k : Nat} (h : j ≠ k) (list : List α) :
    ((list.filter fun a => !decide (key a = k)).filter fun a => key a = j) =
      list.filter fun a => key a = j := by
  rw [List.filter_filter]
  apply List.filter_congr
  intro a _
  by_cases hkey : key a = j
  · simp [hkey, h]
  · simp [hkey]

/-- A list in the order of its keys is what it has of each key, one key after another. -/
theorem flatMap_filter_eq_self {list : List α} (hkeys : keys.Pairwise (· < ·))
    (hmem : ∀ a ∈ list, key a ∈ keys) (hsorted : list.Pairwise fun a b => key a ≤ key b) :
    (keys.flatMap fun k => list.filter fun a => key a = k) = list := by
  induction keys generalizing list with
  | nil =>
      have hnone : list = [] :=
        List.eq_nil_iff_forall_not_mem.2 fun a ha => List.not_mem_nil (hmem a ha)
      rw [hnone, List.flatMap_nil]
  | cons k rest ih =>
      rw [List.pairwise_cons] at hkeys
      -- no key is less than `k`, so that the elements of `k` come first
      have hleast : ∀ a ∈ list, k ≤ key a := by
        intro a ha
        rcases List.mem_cons.1 (hmem a ha) with hfirst | hrest
        · exact Nat.le_of_eq hfirst.symm
        · exact Nat.le_of_lt (hkeys.1 _ hrest)
      have hfirst : list.Pairwise fun a b =>
          decide (key b = k) = true → decide (key a = k) = true := by
        refine hsorted.imp_of_mem fun {a b} ha _ hle hb => ?_
        have hge := hleast a ha
        simp only [decide_eq_true_eq] at hb ⊢
        omega
      have hothers : ∀ a ∈ list.filter fun a => !decide (key a = k), key a ∈ rest := by
        intro a ha
        rw [List.mem_filter, Bool.not_eq_true', decide_eq_false_iff_not] at ha
        exact (List.mem_cons.1 (hmem a ha.1)).resolve_left ha.2
      have hrest := ih hkeys.2 hothers (hsorted.filter _)
      have hkept : (rest.flatMap fun j =>
          (list.filter fun a => !decide (key a = k)).filter fun a => key a = j) =
            rest.flatMap fun j => list.filter fun a => key a = j :=
        List.flatMap_congr fun j hj => filter_key_of_ne (Nat.ne_of_gt (hkeys.1 j hj)) list
      rw [List.flatMap_cons, ← hkept, hrest, filter_append_filter_not hfirst]

theorem key_le_trans (a b c : α) (hab : decide (key a ≤ key b) = true)
    (hbc : decide (key b ≤ key c) = true) : decide (key a ≤ key c) = true := by
  rw [decide_eq_true_eq] at hab hbc ⊢
  exact Nat.le_trans hab hbc

theorem key_le_total (a b : α) : (decide (key a ≤ key b) || decide (key b ≤ key a)) = true := by
  rw [Bool.or_eq_true, decide_eq_true_eq, decide_eq_true_eq]
  exact Nat.le_total _ _

/-- Sorting by a key leaves the elements of one key as they stood. -/
theorem filter_mergeSort_key (k : Nat) (list : List α) :
    (list.mergeSort fun a b => key a ≤ key b).filter (fun a => key a = k) =
      list.filter fun a => key a = k := by
  rw [filter_mergeSort key_le_trans key_le_total]
  apply List.mergeSort_of_pairwise
  rw [List.pairwise_filter]
  refine List.pairwise_of_forall fun a b ha hb => ?_
  rw [decide_eq_true_eq] at ha hb ⊢
  exact Nat.le_of_eq (ha.trans hb.symm)

/-- Sorted by a key, a list is what it has of each key as it stood, one key after another. -/
theorem mergeSort_eq_flatMap_filter {list : List α} (hkeys : keys.Pairwise (· < ·))
    (hmem : ∀ a ∈ list, key a ∈ keys) :
    (list.mergeSort fun a b => key a ≤ key b) =
      keys.flatMap fun k => list.filter fun a => key a = k := by
  have hsorted : (list.mergeSort fun a b => key a ≤ key b).Pairwise fun a b =>
      decide (key a ≤ key b) = true := List.pairwise_mergeSort key_le_trans key_le_total list
  have hparts := flatMap_filter_eq_self hkeys
    (fun a ha => hmem a (List.mem_mergeSort.1 ha)) (hsorted.imp of_decide_eq_true)
  rw [← hparts]
  exact List.flatMap_congr fun k _ => filter_mergeSort_key k list

end Key
end RingRouting
