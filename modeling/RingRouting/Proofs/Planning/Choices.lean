import RingRouting.Policy.Activator

/-!
# What strategies choose

Whatever the random words are, a draw below a bound is below it, an element chosen from
a list is one of its elements, and a shuffled list holds the same elements.  A strategy
therefore picks from its snapshot, lays out exactly its snapshot, and never changes it.

Main results:

- Theorem `WordSource.below_lt`: a draw is below its bound.
- Theorem `WordSource.shuffle_perm`: shuffling is a permutation.
- Theorems `Strategy.pick_mem` and `Strategy.fallback_perm`: picks come from the
  snapshot, and a fallback lays it out.
- Theorem `Activator.snapshot_perm`: the library's strategies keep the candidates.
-/

namespace RingRouting

namespace WordSource

/-! ## Draws -/

/-- A carry from the second word does not reach the bound. -/
theorem carry_lt {n product second : Nat} (hproduct : product ≤ 4294967295 * n)
    (hsecond : second < n) :
    product / 4294967296 + (product % 4294967296 + second) / 4294967296 < n := by
  omega

/-- A draw below a positive bound is below it. -/
theorem below_lt {n : Nat} (hpos : 0 < n) (source : WordSource) : (source.below n).1 < n := by
  have hword : ∀ word : UInt32, word.toNat * n ≤ 4294967295 * n := by
    intro word
    exact Nat.mul_le_mul_right n (Nat.le_of_lt_succ word.toNat_lt)
  have hfirst := hword source.next.1
  unfold below
  simp only [UInt32.size]
  split
  · apply carry_lt hfirst
    have hsecond := hword source.next.2.next.1
    omega
  · simp only
    omega

/-- Nothing is chosen from an empty list alone. -/
theorem choose_mem {α : Type} {list : List α} (hlist : list ≠ []) (source : WordSource) :
    ∃ a ∈ list, (source.choose list).1 = some a := by
  have hpos : 0 < list.length := List.length_pos_iff.2 hlist
  have hempty : ¬ list.isEmpty = true := by
    rw [List.isEmpty_iff]
    exact hlist
  have hlt := below_lt hpos source
  unfold choose
  rw [if_neg hempty]
  refine ⟨list[(source.below list.length).1], List.getElem_mem hlt, ?_⟩
  exact List.getElem?_eq_getElem hlt

/-! ## Shuffling -/

theorem exchange_perm {α : Type} (array : Array α) (i j : Nat) :
    (exchange array i j).Perm array := by
  unfold exchange
  split
  · exact Array.swap_perm _ _
  · exact Array.Perm.refl _

theorem shuffleFrom_perm {α : Type} (array : Array α) (chunk : Chunk) (n : Nat)
    (source : WordSource) (count : Nat) :
    (shuffleFrom array chunk n source count).1.Perm array := by
  induction count generalizing array chunk n source with
  | zero => exact Array.Perm.refl _
  | succ count ih =>
      unfold shuffleFrom
      exact (ih _ _ _ _).trans (exchange_perm _ _ _)

/-- A shuffled list holds the same elements, each as often as before. -/
theorem shuffle_perm {α : Type} (list : List α) (source : WordSource) :
    (source.shuffle list).1.Perm list := by
  have hperm := shuffleFrom_perm list.toArray .initial 0 source list.length
  unfold shuffle
  exact Array.perm_iff_toList_perm.1 hperm

end WordSource

namespace Strategy

/-! ## Picks -/

@[simp]
theorem pick_snapshot (strategy : Strategy) :
    strategy.pick.2.snapshot = strategy.snapshot := by
  have hpick? : strategy.pick?.2.snapshot = strategy.snapshot := by
    cases strategy with
    | random endpoints source => rfl
    | nearest ranked => rfl
    | roundRobin endpoints picks =>
        simp only [pick?]
        split <;> rfl
  unfold pick
  split
  · rename_i heq
    rw [← hpick?, heq]
  · rename_i heq
    rw [← hpick?, heq]

@[simp]
theorem fallback_snapshot (strategy : Strategy) :
    strategy.fallback.2.snapshot = strategy.snapshot := by
  cases strategy <;> rfl

theorem pick?_mem {strategy : Strategy} (hsnapshot : strategy.snapshot ≠ []) :
    ∃ endpoint ∈ strategy.snapshot, strategy.pick?.1 = some endpoint := by
  cases strategy with
  | random endpoints source => exact WordSource.choose_mem hsnapshot source
  | nearest ranked =>
      cases ranked with
      | nil => exact absurd rfl hsnapshot
      | cons first rest => exact ⟨first, List.mem_cons_self, rfl⟩
  | roundRobin endpoints picks =>
      have hempty : ¬ endpoints.isEmpty = true := by
        rw [List.isEmpty_iff]
        exact hsnapshot
      have hlt : rotationPlace endpoints picks < endpoints.length :=
        Nat.mod_lt _ (List.length_pos_iff.2 hsnapshot)
      refine ⟨endpoints[rotationPlace endpoints picks], List.getElem_mem hlt, ?_⟩
      simp only [pick?, hempty]
      exact List.getElem?_eq_getElem hlt

/-- A strategy over candidates picks one of them. -/
theorem pick_mem {strategy : Strategy} (hsnapshot : strategy.snapshot ≠ []) :
    ∃ endpoint ∈ strategy.snapshot, strategy.pick.1 = .ok endpoint := by
  rcases pick?_mem hsnapshot with ⟨endpoint, hmem, hpick⟩
  refine ⟨endpoint, hmem, ?_⟩
  unfold pick
  split
  · rename_i picked _ heq
    rw [heq] at hpick
    cases hpick
    rfl
  · rename_i heq
    rw [heq] at hpick
    cases hpick

/-- A fallback lays out the snapshot. -/
theorem fallback_perm (strategy : Strategy) :
    strategy.fallback.1.Perm strategy.snapshot := by
  cases strategy with
  | random endpoints source => exact source.shuffle_perm endpoints
  | nearest ranked => exact List.Perm.refl ranked
  | roundRobin endpoints picks =>
      have hsplit := List.take_append_drop (rotationPlace endpoints picks) endpoints
      have hturned : (endpoints.drop (rotationPlace endpoints picks) ++
          endpoints.take (rotationPlace endpoints picks)).Perm
            (endpoints.take (rotationPlace endpoints picks) ++
              endpoints.drop (rotationPlace endpoints picks)) := List.perm_append_comm
      rw [hsplit] at hturned
      exact hturned

/-- A rotation that has not been asked yet begins at the first candidate. -/
theorem fallback_rotation (endpoints : List Address) :
    (rotation endpoints).fallback.1 = endpoints := by
  have hplace : rotationPlace endpoints 0 = 0 := Nat.zero_mod _
  simp [rotation, fallback, hplace]

theorem pick_rotation (first : Address) (rest : List Address) :
    (rotation (first :: rest)).pick.1 = .ok first := by
  have hplace : rotationPlace (first :: rest) 0 = 0 := Nat.zero_mod _
  simp [rotation, pick, pick?, hplace]

end Strategy

namespace Activator

/-! ## The library's strategies -/

/-- The factory is one of those that build the library's strategies. -/
def LibraryStrategy (factory : Factory StrategyArgs Strategy) : Prop :=
  factory = randomStrategy ∨ factory = roundRobinStrategy ∨ factory = nearestStrategy

/-- The snapshot of a strategy of the library holds exactly the candidates. -/
theorem snapshot_perm {factory : Factory StrategyArgs Strategy} (hlibrary : LibraryStrategy factory)
    {args : StrategyArgs} {strategy : Strategy} (hbuilt : factory args = .ok strategy) :
    strategy.snapshot.Perm args.endpoints := by
  rcases hlibrary with rfl | rfl | rfl
  · unfold randomStrategy at hbuilt
    split at hbuilt
    · cases hbuilt
      exact List.Perm.refl _
    · cases hbuilt
      exact List.Perm.refl _
  · cases hbuilt
    exact List.Perm.refl _
  · unfold nearestStrategy at hbuilt
    split at hbuilt
    · cases hbuilt
    · cases hbuilt
    · cases hbuilt
      exact List.mergeSort_perm _ _

end Activator
end RingRouting
