import RingRouting.Proofs.Planning.Choices
import RingRouting.Proofs.Planning.Ranking

/-!
# Strategies under questions

A strategy is asked for an endpoint or for a fallback, any number of times and in any order, and
may change with every question.  Whatever it was asked, it answers from the snapshot over which
it was built; one that follows an order foretells its next pick by its fallback, and a fallback
leaves it as it is.

Main definitions:

- `Question`, `Reply`: what a strategy is asked, and what it says.
- `Strategy.after`, `Strategy.answers`: a strategy after some questions, and its answers to them.
- `Strategy.New`: the strategies that the library builds over a snapshot.

Main results:

- Theorems `Strategy.after_append` and `Strategy.answers_append`: one row of questions after
  another.
- Theorem `Strategy.after_snapshot`: no question changes the snapshot.
- Theorem `Strategy.answers_from_snapshot`: what a strategy of the library answers after any
  questions.
-/

namespace RingRouting

/-- What a strategy can be asked. -/
inductive Question where
  /-- Which endpoint to contact. -/
  | pick
  /-- The order in which it would try the endpoints. -/
  | fallback
deriving DecidableEq

/-- What a strategy says. -/
inductive Reply where
  | picked (result : Except NoEndpoints Address)
  | laidOut (endpoints : List Address)

namespace Strategy

/-! ## Rows of questions -/

/-- The answer to a question, and the strategy after it. -/
def ask (strategy : Strategy) : Question → Reply × Strategy
  | .pick => (.picked strategy.pick.1, strategy.pick.2)
  | .fallback => (.laidOut strategy.fallback.1, strategy.fallback.2)

/-- The strategy after some questions. -/
def after (strategy : Strategy) (questions : List Question) : Strategy :=
  questions.foldl (fun strategy question => (strategy.ask question).2) strategy

/-- The answers to some questions, in order. -/
def answers (strategy : Strategy) : List Question → List Reply
  | [] => []
  | question :: questions =>
    (strategy.ask question).1 :: (strategy.ask question).2.answers questions

@[simp]
theorem after_cons (strategy : Strategy) (question : Question) (questions : List Question) :
    strategy.after (question :: questions) = (strategy.ask question).2.after questions :=
  rfl

theorem after_append (strategy : Strategy) (first second : List Question) :
    strategy.after (first ++ second) = (strategy.after first).after second :=
  List.foldl_append

theorem answers_append (strategy : Strategy) (first second : List Question) :
    strategy.answers (first ++ second) =
      strategy.answers first ++ (strategy.after first).answers second := by
  induction first generalizing strategy with
  | nil => rfl
  | cons question first ih => simp [answers, ih]

/-- The first answers are the answers to the first questions. -/
theorem take_answers (strategy : Strategy) (questions : List Question) (count : Nat) :
    (strategy.answers questions).take count = strategy.answers (questions.take count) := by
  induction questions generalizing strategy count with
  | nil => simp [answers]
  | cons question questions ih =>
      cases count with
      | zero => rfl
      | succ count => simp [answers, ih]

/-! ## The snapshot -/

@[simp]
theorem ask_snapshot (strategy : Strategy) (question : Question) :
    (strategy.ask question).2.snapshot = strategy.snapshot := by
  cases question with
  | pick => exact strategy.pick_snapshot
  | fallback => exact strategy.fallback_snapshot

/-- No question changes the snapshot. -/
@[simp]
theorem after_snapshot (strategy : Strategy) (questions : List Question) :
    (strategy.after questions).snapshot = strategy.snapshot := by
  induction questions generalizing strategy with
  | nil => rfl
  | cons question questions ih => simp [ih]

/-- A pick fails for want of candidates, and for nothing else. -/
theorem pick_eq_error_iff (strategy : Strategy) :
    (∃ e, strategy.pick.1 = .error e) ↔ strategy.snapshot = [] := by
  constructor
  · rintro ⟨e, hfailed⟩
    by_contra hsnapshot
    rcases pick_mem hsnapshot with ⟨endpoint, -, hpick⟩
    rw [hfailed] at hpick
    cases hpick
  · intro hsnapshot
    refine ⟨⟨strategy.name⟩, ?_⟩
    cases strategy <;> simp_all [snapshot, pick, pick?, WordSource.choose]

/-- A pick that succeeds is a candidate. -/
theorem mem_of_pick {strategy : Strategy} {endpoint : Address}
    (h : strategy.pick.1 = .ok endpoint) : endpoint ∈ strategy.snapshot := by
  have hsnapshot : strategy.snapshot ≠ [] := by
    intro hnil
    rcases strategy.pick_eq_error_iff.2 hnil with ⟨e, hfailed⟩
    rw [h] at hfailed
    cases hfailed
  rcases pick_mem hsnapshot with ⟨picked, hmem, hpick⟩
  rw [h] at hpick
  cases hpick
  exact hmem

/-! ## Strategies that follow an order -/

/-- The strategy tries the endpoints in an order of its own, rather than by chance. -/
def FollowsOrder : Strategy → Prop
  | random .. => False
  | roundRobin .. => True
  | nearest _ => True

theorem rotationPlace_lt {endpoints : List Address} (hsome : endpoints ≠ []) (picks : UInt64) :
    rotationPlace endpoints picks < endpoints.length :=
  Nat.mod_lt _ (List.length_pos_iff.2 hsome)

/-- A rotation picks the endpoint at which it stands, and moves on. -/
theorem pick_roundRobin {endpoints : List Address} (hsome : endpoints ≠ []) (picks : UInt64) :
    (roundRobin endpoints picks).pick =
      (.ok (endpoints.get ⟨rotationPlace endpoints picks, rotationPlace_lt hsome picks⟩),
        roundRobin endpoints (picks + 1)) := by
  have hplace := rotationPlace_lt hsome picks
  simp [pick, pick?, hsome, List.getElem?_eq_getElem hplace]

theorem pick_roundRobin_nil (picks : UInt64) :
    (roundRobin [] picks).pick = (.error ⟨"RoundRobinStrategy"⟩, roundRobin [] picks) :=
  rfl

theorem FollowsOrder.ask {strategy : Strategy} (h : strategy.FollowsOrder)
    (question : Question) : (strategy.ask question).2.FollowsOrder := by
  cases strategy with
  | random => exact h.elim
  | nearest ranked =>
      cases question with
      | fallback => trivial
      | pick => cases ranked <;> trivial
  | roundRobin endpoints picks =>
      cases question with
      | fallback => trivial
      | pick =>
          by_cases hsome : endpoints = []
          · subst hsome
            trivial
          · rw [Strategy.ask, pick_roundRobin hsome]
            trivial

theorem FollowsOrder.after {strategy : Strategy} (h : strategy.FollowsOrder)
    (questions : List Question) : (strategy.after questions).FollowsOrder := by
  induction questions generalizing strategy with
  | nil => exact h
  | cons question questions ih => exact ih (h.ask question)

/-- A strategy that follows an order stays where it is under a fallback. -/
theorem FollowsOrder.fallback_snd {strategy : Strategy} (h : strategy.FollowsOrder) :
    strategy.fallback.2 = strategy := by
  cases strategy with
  | random => exact h.elim
  | roundRobin endpoints picks => rfl
  | nearest ranked => rfl

/-- A fallback that follows an order begins with the next pick. -/
theorem FollowsOrder.head?_fallback {strategy : Strategy} (h : strategy.FollowsOrder) :
    strategy.fallback.1.head? = strategy.pick.1.toOption := by
  cases strategy with
  | random => exact h.elim
  | nearest ranked => cases ranked <;> rfl
  | roundRobin endpoints picks =>
      by_cases hsome : endpoints = []
      · subst hsome
        simp [fallback, pick_roundRobin_nil, Except.toOption]
      · have hplace := rotationPlace_lt hsome picks
        rw [pick_roundRobin hsome, fallback, List.drop_eq_getElem_cons hplace]
        rfl

/-! ## The library's strategies -/

/-- A strategy that the library builds over some endpoints, and that was asked nothing yet. -/
inductive New (endpoints : List Address) : Strategy → Prop where
  | seeded (seed : UInt64) : New endpoints (seededRandom endpoints seed)
  /-- Without a seed the random words are whatever they are. -/
  | unseeded (words : Nat → UInt32) : New endpoints (streamRandom endpoints words)
  | inTurn : New endpoints (rotation endpoints)
  | ranked (snitch : Snitch) (origin : Address) :
      New endpoints (byProximity snitch origin endpoints)

theorem New.snapshot_perm {endpoints : List Address} {strategy : Strategy}
    (h : strategy.New endpoints) : strategy.snapshot.Perm endpoints := by
  cases h with
  | seeded seed => exact List.Perm.refl _
  | unseeded words => exact List.Perm.refl _
  | inTurn => exact List.Perm.refl _
  | ranked snitch origin => exact snitch.sortedByProximity_perm origin endpoints

/-- Whatever a strategy of the library was asked before: a pick fails exactly for want of
endpoints and otherwise is one of them, a fallback lays out exactly the endpoints, and their
number does not change.  A strategy that follows an order begins its fallback with its next pick,
and answers later questions as if there had been no fallback. -/
theorem answers_from_snapshot {endpoints : List Address} {strategy : Strategy}
    (hnew : strategy.New endpoints) (asked : List Question) :
    let now := strategy.after asked
    ((∃ e, now.pick.1 = .error e) ↔ endpoints = []) ∧
    (∀ endpoint, now.pick.1 = .ok endpoint → endpoint ∈ endpoints) ∧
    now.fallback.1.Perm endpoints ∧
    now.length = endpoints.length ∧
    (strategy.FollowsOrder →
      now.fallback.1.head? = now.pick.1.toOption ∧
        ∀ later, now.fallback.2.answers later = now.answers later) := by
  intro now
  have hsnapshot : now.snapshot.Perm endpoints := by
    rw [after_snapshot]
    exact hnew.snapshot_perm
  refine ⟨?_, ?_, ?_, hsnapshot.length_eq, ?_⟩
  · rw [now.pick_eq_error_iff]
    constructor
    · intro hnil
      rw [hnil] at hsnapshot
      exact hsnapshot.symm.eq_nil
    · rintro rfl
      exact hsnapshot.eq_nil
  · intro endpoint hpick
    exact hsnapshot.mem_iff.1 (mem_of_pick hpick)
  · exact now.fallback_perm.trans hsnapshot
  · intro horder
    have hnow : now.FollowsOrder := horder.after asked
    refine ⟨hnow.head?_fallback, ?_⟩
    intro later
    rw [hnow.fallback_snd]

/-- An endpoint that is listed twice: by chance it is laid out twice, and in turn the endpoint
between is foretold after the first pick. -/
theorem answers_from_snapshot_of_repeated_endpoint :
    let listed : List Address := [.ofQuad 10 0 0 1, .ofQuad 10 0 0 2, .ofQuad 10 0 0 1]
    (seededRandom listed 7).New listed ∧
      ((seededRandom listed 7).after [.pick, .fallback]).fallback.1.Perm listed ∧
      (rotation listed).New listed ∧ (rotation listed).FollowsOrder ∧
      ((rotation listed).after [.pick]).fallback.1.head? = some (.ofQuad 10 0 0 2) := by
  intro listed
  have hseeded : (seededRandom listed 7).New listed := .seeded 7
  have hturning : (rotation listed).New listed := .inTurn
  have hchance := answers_from_snapshot hseeded [.pick, .fallback]
  have hturn := answers_from_snapshot hturning [.pick]
  rcases hchance with ⟨-, -, hperm, -, -⟩
  rcases hturn with ⟨-, -, -, -, horder⟩
  refine ⟨hseeded, hperm, hturning, trivial, ?_⟩
  rw [(horder trivial).1]
  rfl

end Strategy
end RingRouting
