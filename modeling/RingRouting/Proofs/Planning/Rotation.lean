import Mathlib.Data.List.Rotate
import Mathlib.Order.Interval.Finset.Nat
import RingRouting.Proofs.Planning.Questions

/-!
# Endpoints in turn

A rotation counts its picks in a word and stands at the place that the count leaves when it is
divided by the number of endpoints.  As long as the count fits the word, the picks take the
places of the snapshot one after another, and start over after the last one.  So any row of
picks that goes around a whole number of times takes every place equally often, wherever the
row begins, and fallbacks in between are of no account.

Main definitions:

- `Reply.picks`: the picks among some answers.
- `Strategy.turned`: a rotation after a number of picks.
- `Strategy.inTurn`: the endpoint whose turn it is then.
- `Strategy.placesTaken`: the places of the snapshot that picks take.

Main results:

- Theorem `map_mod_rounds_perm`: a whole number of rounds goes over every place equally often.
- Theorem `Strategy.after_turned`: a rotation counts its picks.
- Theorems `Strategy.placesTaken_turned` and `Strategy.picks_answers_turned`: the places that its
  picks take, and the endpoints that they are.
- Theorem `Strategy.rotation_takes_turns`: picks and fallbacks of a rotation.
-/

namespace RingRouting

/-! ## Going around -/

/-- One round goes over every place once, wherever it begins. -/
theorem map_mod_round_perm (size start : Nat) :
    ((List.range' start size).map (· % size)).Perm (List.range size) := by
  have hround := Nat.multiset_Ico_map_mod start size
  have hwindow : Multiset.Ico start (start + size) = (List.range' start size : Multiset Nat) := by
    change (List.range' start (start + size - start) : Multiset Nat) = _
    rw [Nat.add_sub_cancel_left]
  rw [hwindow, Multiset.map_coe] at hround
  exact Multiset.coe_eq_coe.1 hround

/-- A function of the place, over a whole number of rounds: each place once in every round. -/
theorem map_mod_rounds_perm {α : Type} (f : Nat → α) (size start turns : Nat) :
    ((List.range' start (turns * size)).map fun i => f (i % size)).Perm
      (List.replicate turns ((List.range size).map f)).flatten := by
  induction turns with
  | zero => simp
  | succ turns ih =>
      -- The last round begins wherever the rounds before it have ended.
      have hlast : ((List.range' (start + turns * size) size).map fun i => f (i % size)).Perm
          ((List.range size).map f) := by
        have hround := (map_mod_round_perm size (start + turns * size)).map f
        rwa [List.map_map] at hround
      rw [Nat.succ_mul, ← List.range'_append_1, List.map_append, List.replicate_succ',
        List.flatten_concat]
      exact ih.append hlast

/-- Over a whole number of rounds each place is met once for every round. -/
theorem count_mod_rounds {size place : Nat} (hplace : place < size) (start turns : Nat) :
    ((List.range' start (turns * size)).map (· % size)).count place = turns := by
  have hround : (List.range size).count place = 1 :=
    List.count_eq_one_of_mem List.nodup_range (List.mem_range.2 hplace)
  have hperm := map_mod_rounds_perm id size start turns
  rw [List.map_id] at hperm
  refine (hperm.count_eq place).trans ?_
  simp [List.count_flatten, hround]

/-- Over a whole number of rounds a list is gone through that many times. -/
theorem map_get_rounds_perm {α : Type} {list : List α} (hpos : 0 < list.length)
    (start turns : Nat) :
    ((List.range' start (turns * list.length)).map fun i =>
        list.get ⟨i % list.length, Nat.mod_lt i hpos⟩).Perm
      (List.replicate turns list).flatten := by
  have hlist : (List.range list.length).map (fun place => list.getD place list[0]) = list := by
    apply List.ext_getElem
    · simp
    · intro i hi hlt
      simp [hlt]
  have hrounds := map_mod_rounds_perm (fun place => list.getD place list[0]) list.length start turns
  rw [hlist] at hrounds
  refine (List.Perm.of_eq ?_).trans hrounds
  apply List.map_congr_left
  intro i _
  simp [Nat.mod_lt i hpos]

/-- A stretch of a row of numbers. -/
theorem take_drop_range {start length total : Nat} (h : start + length ≤ total) :
    ((List.range total).drop start).take length = List.range' start length := by
  obtain ⟨rest, rfl⟩ := Nat.exists_eq_add_of_le h
  have hkept : start + length + rest - start = length + rest := by omega
  rw [List.range_eq_range', List.drop_range', hkept, ← List.range'_append_1, List.take_left']
  · simp
  · simp

namespace Reply

/-- The picks among some answers, in order. -/
def picks (answers : List Reply) : List (Except NoEndpoints Address) :=
  answers.filterMap fun answer =>
    match answer with
    | picked result => some result
    | laidOut _ => none

end Reply

namespace Strategy

/-! ## Counting picks -/

/-- The place of the snapshot at which a rotation stands. -/
def place? : Strategy → Option Nat
  | roundRobin endpoints picks => some (rotationPlace endpoints picks)
  | _ => none

/-- The places of the snapshot that the picks among some questions take, in order. -/
def placesTaken (strategy : Strategy) : List Question → List Nat
  | [] => []
  | .pick :: questions => strategy.place?.toList ++ strategy.pick.2.placesTaken questions
  | .fallback :: questions => strategy.fallback.2.placesTaken questions

variable {endpoints : List Address}

/-- The endpoint whose turn it is after a number of picks. -/
def inTurn (hsome : endpoints ≠ []) (picks : Nat) : Address :=
  endpoints.get ⟨picks % endpoints.length, Nat.mod_lt picks (List.length_pos_iff.2 hsome)⟩

theorem getElem?_inTurn (hsome : endpoints ≠ []) (picks : Nat) :
    endpoints[picks % endpoints.length]? = some (inTurn hsome picks) :=
  List.getElem?_eq_getElem (Nat.mod_lt picks (List.length_pos_iff.2 hsome))

/-- A rotation over some endpoints after a number of picks. -/
def turned (endpoints : List Address) (picks : Nat) : Strategy :=
  roundRobin endpoints (.ofNat picks)

theorem rotationPlace_ofNat (endpoints : List Address) {picks : Nat} (hfew : picks < UInt64.size) :
    rotationPlace endpoints (.ofNat picks) = picks % endpoints.length := by
  rw [rotationPlace, UInt64.toNat_ofNat_of_lt' hfew]

theorem pick_turned_snd (hsome : endpoints ≠ []) (picks : Nat) :
    (turned endpoints picks).pick.2 = turned endpoints (picks + 1) := by
  rw [turned, pick_roundRobin hsome, turned, UInt64.ofNat_add]
  rfl

theorem pick_turned_fst (hsome : endpoints ≠ []) {picks : Nat} (hfew : picks < UInt64.size) :
    (turned endpoints picks).pick.1 = .ok (inTurn hsome picks) := by
  rw [turned, pick_roundRobin hsome]
  simp only [rotationPlace_ofNat endpoints hfew, inTurn]

/-- A fallback begins at the place of the next pick. -/
theorem fallback_turned_fst (endpoints : List Address) {picks : Nat}
    (hfew : picks < UInt64.size) :
    (turned endpoints picks).fallback.1 = endpoints.rotate picks := by
  rw [turned, fallback, rotationPlace_ofNat endpoints hfew,
    List.rotate_eq_drop_append_take_mod]

/-- A rotation counts the picks that it was asked for. -/
theorem after_turned (hsome : endpoints ≠ []) (picks : Nat) (questions : List Question) :
    (turned endpoints picks).after questions =
      turned endpoints (picks + questions.count .pick) := by
  induction questions generalizing picks with
  | nil => rfl
  | cons question questions ih =>
      cases question with
      | pick =>
          rw [after_cons, ask, pick_turned_snd hsome, ih, List.count_cons_self]
          congr 1
          omega
      | fallback =>
          rw [after_cons, List.count_cons_of_ne (by decide)]
          exact ih picks

/-- The places of the snapshot, one after another.  The count may end up as large as a word
counts, since a pick goes by the picks before it. -/
theorem placesTaken_turned (hsome : endpoints ≠ []) {picks : Nat} {questions : List Question}
    (hfew : picks + questions.count .pick ≤ UInt64.size) :
    (turned endpoints picks).placesTaken questions =
      (List.range' picks (questions.count .pick)).map (· % endpoints.length) := by
  induction questions generalizing picks with
  | nil => rfl
  | cons question questions ih =>
      cases question with
      | pick =>
          rw [List.count_cons_self] at hfew ⊢
          rw [placesTaken, pick_turned_snd hsome, ih (by omega), List.range'_succ, List.map_cons]
          simp only [turned, place?, rotationPlace_ofNat endpoints (show picks < _ by omega)]
          rfl
      | fallback =>
          rw [List.count_cons_of_ne (by decide)] at hfew ⊢
          exact ih hfew

/-- The picks of a rotation, each at its place. -/
theorem picks_answers_turned (hsome : endpoints ≠ []) {picks : Nat} {questions : List Question}
    (hfew : picks + questions.count .pick ≤ UInt64.size) :
    Reply.picks ((turned endpoints picks).answers questions) =
      (List.range' picks (questions.count .pick)).map fun i => .ok (inTurn hsome i) := by
  induction questions generalizing picks with
  | nil => rfl
  | cons question questions ih =>
      cases question with
      | pick =>
          rw [List.count_cons_self] at hfew ⊢
          rw [answers, ask, pick_turned_snd hsome, pick_turned_fst hsome (by omega),
            List.range'_succ, List.map_cons, ← ih (by omega)]
          rfl
      | fallback =>
          rw [List.count_cons_of_ne (by decide)] at hfew ⊢
          exact ih hfew

/-! ## Fairness -/

/-- Whatever questions are put to a rotation over some endpoints, as long as it is asked for
fewer picks than a word counts: the picks take the places of the snapshot in turn, and each pick
is the endpoint at its place; any stretch of picks that is a whole number of rounds takes each
place once for every round, and so consists of that many copies of the snapshot; and each
fallback is the snapshot turned by the number of picks before it. -/
theorem rotation_takes_turns (hsome : endpoints ≠ []) {asked : List Question}
    (hfew : asked.count .pick < UInt64.size) :
    let strategy := rotation endpoints
    let places := strategy.placesTaken asked
    let picks := Reply.picks (strategy.answers asked)
    picks.length = asked.count .pick ∧
    places.length = asked.count .pick ∧
    (∀ i, i < asked.count .pick → places[i]? = some (i % endpoints.length) ∧
      ∃ endpoint, endpoints[i % endpoints.length]? = some endpoint ∧
        picks[i]? = some (.ok endpoint)) ∧
    (∀ start turns, start + turns * endpoints.length ≤ asked.count .pick →
      (∀ place, place < endpoints.length →
        ((places.drop start).take (turns * endpoints.length)).count place = turns) ∧
      ((picks.drop start).take (turns * endpoints.length)).Perm
        ((List.replicate turns endpoints).flatten.map .ok)) ∧
    ∀ before, before <+: asked → (strategy.after before).fallback.1 =
      endpoints.rotate (before.count .pick % endpoints.length) := by
  intro strategy places picks
  have hpos : 0 < endpoints.length := List.length_pos_iff.2 hsome
  have hstart : strategy = turned endpoints 0 := rfl
  have hzero : 0 + asked.count .pick ≤ UInt64.size := by omega
  have hplaces : places = (List.range (asked.count .pick)).map (· % endpoints.length) := by
    rw [List.range_eq_range']
    exact placesTaken_turned hsome hzero
  have hpicks : picks = (List.range (asked.count .pick)).map fun i => .ok (inTurn hsome i) := by
    rw [List.range_eq_range']
    exact picks_answers_turned hsome hzero
  refine ⟨by simp [hpicks], by simp [hplaces], ?_, ?_, ?_⟩
  · intro i hi
    exact ⟨by simp [hplaces, hi], _, getElem?_inTurn hsome i, by simp [hpicks, hi]⟩
  · intro start turns hwindow
    constructor
    · intro place hplace
      rw [hplaces, ← List.map_drop, ← List.map_take, take_drop_range hwindow]
      exact count_mod_rounds hplace start turns
    · rw [hpicks, ← List.map_drop, ← List.map_take, take_drop_range hwindow]
      have hrounds := (map_get_rounds_perm hpos start turns).map
        (Except.ok : Address → Except NoEndpoints Address)
      rwa [List.map_map] at hrounds
  · rintro before ⟨rest, rfl⟩
    have hbefore : before.count .pick < UInt64.size := by
      rw [List.count_append] at hfew
      omega
    rw [hstart, after_turned hsome, Nat.zero_add, fallback_turned_fst endpoints hbefore,
      List.rotate_mod]

/-- Three places of which two hold the same endpoint: of the picks after the first, one takes the
last place, and a fallback after two picks begins there. -/
theorem rotation_takes_turns_of_repeated_endpoint :
    let listed : List Address := [.ofQuad 10 0 0 1, .ofQuad 10 0 0 2, .ofQuad 10 0 0 1]
    let asked : List Question := [.pick, .fallback, .pick, .pick, .pick]
    listed ≠ [] ∧ asked.count .pick < UInt64.size ∧
      ((((rotation listed).placesTaken asked).drop 1).take 3).count 2 = 1 ∧
      ((rotation listed).after [.pick, .fallback, .pick]).fallback.1 =
        [.ofQuad 10 0 0 1, .ofQuad 10 0 0 1, .ofQuad 10 0 0 2] := by
  intro listed asked
  have hsome : listed ≠ [] := by decide
  have hfew : asked.count .pick < UInt64.size := by decide
  have hturns := rotation_takes_turns hsome hfew
  rcases hturns with ⟨-, -, -, hwindows, hfallback⟩
  refine ⟨hsome, hfew, ?_, ?_⟩
  · exact (hwindows 1 1 (by decide)).1 2 (by decide)
  · exact hfallback [.pick, .fallback, .pick] ⟨[.pick, .pick], rfl⟩

end Strategy
end RingRouting
