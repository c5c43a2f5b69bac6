import GrammarWorkbench.Diagram.Layers
import GrammarWorkbench.Lookup
import GrammarWorkbench.Proofs.Breadth.Image
import Mathlib.Logic.Relation

/-!
# Layers by a queue

A queue holds positions with the numbers of their layers, some positions more than once.  When
a position is first taken from the queue it joins its layer, and what stands behind it goes to
the end of the queue.  The search finds each layer that it looks up, it empties the queue, and
then its layers are those of the automaton.
-/

namespace GrammarWorkbench

namespace Automaton

/-- The positions to which a search may come. -/
def positions (automaton : Automaton) : Finset Int :=
  (automaton.startState :: automaton.transitions.map Transition.target).toFinset

theorem start_mem_positions (automaton : Automaton) :
    automaton.startState ∈ automaton.positions :=
  List.mem_toFinset.mpr List.mem_cons_self

theorem target_mem_positions {automaton : Automaton} {transition : Transition}
    (member : transition ∈ automaton.transitions) : transition.target ∈ automaton.positions :=
  List.mem_toFinset.mpr (List.mem_cons_of_mem _ (List.mem_map_of_mem member))

theorem card_positions_le (automaton : Automaton) :
    automaton.positions.card ≤ automaton.transitions.length + 1 :=
  (List.toFinset_card_le _).trans (by simp)

end Automaton

/-- The layers and the positions that were found, and what is still in the queue. -/
structure Search where
  layers : List (List Int)
  visited : List Int
  queue : List (Int × Nat)

namespace Search

/-- Put a position into a layer, which may be a new one behind the others. -/
def place (layers : List (List Int)) (number : Nat) (position : Int) :
    Except LookupError (List (List Int)) :=
  let layers := if number = layers.length then layers ++ [[]] else layers
  match layers[number]? with
  | some layer => .ok (layers.set number (layer ++ [position]))
  | none => .error .outOfRange

/-- Take a position with the number of its layer from the queue. -/
def take (automaton : Automaton) (search : Search) (position : Int) (number : Nat)
    (rest : List (Int × Nat)) : Except LookupError Search :=
  if position ∈ search.visited then .ok { search with queue := rest }
  else do
    let visited := position :: search.visited
    let layers ← place search.layers number position
    let behind := (automaton.targets position).filter (· ∉ visited)
    return ⟨layers, visited, rest ++ behind.map (·, number + 1)⟩

/-- One round of the search, which needs something in the queue. -/
def Round (automaton : Automaton) (before after : Search) : Prop :=
  ∃ position number rest, before.queue = (position, number) :: rest ∧
    before.take automaton position number rest = .ok after

/-- Any number of rounds. -/
def Run (automaton : Automaton) : Search → Search → Prop :=
  Relation.ReflTransGen (Round automaton)

/-- The start position is alone in the queue. -/
def begin (automaton : Automaton) : Search :=
  ⟨[], [], [(automaton.startState, 0)]⟩

variable {automaton : Automaton}

/-! ## One layer -/

/-- A layer behind others, once something is in it. -/
def opened (done : List (List Int)) (layer : List Int) : List (List Int) :=
  if layer = [] then done else done ++ [layer]

/-- What joins the queue while some positions are taken from it. -/
def queued (automaton : Automaton) : List Int → List Int → List Int
  | _, [] => []
  | visited, position :: rest =>
      if position ∈ visited then queued automaton visited rest
      else (automaton.targets position).filter (· ∉ position :: visited) ++
        queued automaton (position :: visited) rest

theorem place_opened (done : List (List Int)) (layer : List Int) (position : Int) :
    place (opened done layer) done.length position = .ok (opened done (layer ++ [position])) := by
  by_cases empty : layer = []
  · simp [place, opened, empty]
  · simp [place, opened, empty]

theorem queued_of_fresh_eq_nil {visited positions : List Int}
    (none : Breadth.fresh id visited positions = []) : queued automaton visited positions = [] := by
  induction positions with
  | nil => rfl
  | cons position rest ih =>
      by_cases known : position ∈ visited
      · simp only [Breadth.fresh, id, known, if_true] at none
        simp only [queued, known, if_true, ih none]
      · simp [Breadth.fresh, known] at none

/-- The queue holds what stands behind the layer, less some of what was visited before. -/
theorem fresh_queued (automaton : Automaton) {visited seen positions : List Int}
    (visitedSeen : ∀ position ∈ visited, position ∈ seen)
    (layerSeen : ∀ position ∈ Breadth.fresh id visited positions, position ∈ seen) :
    Breadth.fresh id seen (queued automaton visited positions) =
      Breadth.fresh id seen (automaton.targetsBehind (Breadth.fresh id visited positions)) := by
  induction positions generalizing visited seen with
  | nil => rfl
  | cons position rest ih =>
      by_cases known : position ∈ visited
      · simp only [Breadth.fresh, id, known, if_true] at layerSeen
        simp only [queued, Breadth.fresh, id, known, if_true]
        exact ih visitedSeen layerSeen
      · simp only [Breadth.fresh, id, known, if_false] at layerSeen
        simp only [queued, Breadth.fresh, id, known, if_false]
        obtain ⟨here, later⟩ := List.forall_mem_cons.mp layerSeen
        have grown := List.forall_mem_cons.mpr ⟨here, visitedSeen⟩
        have behind := Breadth.fresh_filter id grown (automaton.targets position)
        simp only [id] at behind
        rw [Breadth.fresh_append, behind, Automaton.targetsBehind, List.flatMap_cons,
          Breadth.fresh_append]
        refine congrArg _ (ih ?_ ?_)
        · exact fun found member => List.mem_append_right _ (grown found member)
        · exact fun found member => List.mem_append_right _ (later found member)

/-- The positions of one layer are taken from the queue, and those behind them join it. -/
theorem run_layer (automaton : Automaton) (done : List (List Int))
    (layer visited positions later : List Int) :
    Run automaton
      ⟨opened done layer, visited,
        positions.map (·, done.length) ++ later.map (·, done.length + 1)⟩
      ⟨opened done (layer ++ Breadth.fresh id visited positions),
        (Breadth.fresh id visited positions).reverse ++ visited,
        (later ++ queued automaton visited positions).map (·, done.length + 1)⟩ := by
  induction positions generalizing layer visited later with
  | nil =>
      simp only [Breadth.fresh, queued, List.append_nil]
      exact .refl
  | cons position rest ih =>
      by_cases known : position ∈ visited
      · have round : Round automaton
            ⟨opened done layer, visited,
              (position :: rest).map (·, done.length) ++ later.map (·, done.length + 1)⟩
            ⟨opened done layer, visited,
              rest.map (·, done.length) ++ later.map (·, done.length + 1)⟩ :=
          ⟨position, done.length, _, rfl, if_pos known⟩
        simp only [Breadth.fresh, queued, id, known, if_true]
        exact .head round (ih layer visited later)
      · have round : Round automaton
            ⟨opened done layer, visited,
              (position :: rest).map (·, done.length) ++ later.map (·, done.length + 1)⟩
            ⟨opened done (layer ++ [position]), position :: visited,
              rest.map (·, done.length) ++ (later ++ (automaton.targets position).filter
                (· ∉ position :: visited)).map (·, done.length + 1)⟩ := by
          refine ⟨position, done.length,
            rest.map (·, done.length) ++ later.map (·, done.length + 1), rfl, ?_⟩
          simp only [take, known, if_false, place_opened, bind, Except.bind, pure, Except.pure,
            List.map_append, List.append_assoc]
        have run := ih (layer ++ [position]) (position :: visited)
          (later ++ (automaton.targets position).filter (· ∉ position :: visited))
        simp only [Breadth.fresh, queued, id, known, if_false, List.reverse_cons,
          List.append_assoc, List.singleton_append] at run ⊢
        exact .head round run

/-! ## All layers -/

theorem run_of_fresh_eq_nil (limit : Nat) (done : List (List Int)) {visited positions : List Int}
    (none : Breadth.fresh id visited positions = []) :
    Run automaton ⟨done, visited, positions.map (·, done.length)⟩
      ⟨done ++ Breadth.layersFrom id automaton.targetsBehind limit visited positions,
        visited, []⟩ := by
  have run := run_layer automaton done [] visited positions []
  rw [Breadth.layersFrom_of_fresh_eq_nil none]
  simpa [opened, none, queued_of_fresh_eq_nil none] using run

theorem run_of_fresh_ne_nil (done : List (List Int)) {visited positions : List Int}
    (some : Breadth.fresh id visited positions ≠ []) :
    Run automaton ⟨done, visited, positions.map (·, done.length)⟩
      ⟨done ++ [Breadth.fresh id visited positions],
        (Breadth.fresh id visited positions).reverse ++ visited,
        (queued automaton visited positions).map
          (·, (done ++ [Breadth.fresh id visited positions]).length)⟩ := by
  have run := run_layer automaton done [] visited positions []
  simpa [opened, some] using run

theorem exists_target_of_mem_queued {visited positions : List Int} {target : Int}
    (member : target ∈ queued automaton visited positions) :
    ∃ transition ∈ automaton.transitions, transition.target = target := by
  induction positions generalizing visited with
  | nil => cases member
  | cons position rest ih =>
      unfold queued at member
      split at member
      · exact ih member
      · cases List.mem_append.mp member with
        | inl here =>
            obtain ⟨transition, inside, _, same⟩ :=
              Automaton.mem_targets.mp (List.mem_filter.mp here).1
            exact ⟨transition, inside, same⟩
        | inr later => exact ih later

/-- A layer that is not empty leaves fewer of the known positions to be visited. -/
theorem card_unvisited_lt {known : Finset Int} {visited positions : List Int}
    (inside : ∀ position ∈ positions, position ∈ known)
    (some : Breadth.fresh id visited positions ≠ []) :
    (known.filter (· ∉ (Breadth.fresh id visited positions).reverse ++ visited)).card <
      (known.filter (· ∉ visited)).card := by
  have fewer : (known.filter (· ∉ (Breadth.fresh id visited positions).map id ++ visited)).card <
      (known.filter (· ∉ visited)).card := Breadth.card_unseen_lt inside some
  simpa only [List.map_id, List.mem_append, List.mem_reverse] using fewer

/-- What joined the queue has the layers that are behind the first one. -/
theorem layersFrom_queued (automaton : Automaton) (limit : Nat) {visited positions : List Int}
    (some : Breadth.fresh id visited positions ≠ []) :
    Breadth.layersFrom id automaton.targetsBehind (limit + 1) visited positions =
      Breadth.fresh id visited positions ::
        Breadth.layersFrom id automaton.targetsBehind limit
          ((Breadth.fresh id visited positions).reverse ++ visited)
          (queued automaton visited positions) := by
  have same : ∀ found, found ∈ (Breadth.fresh id visited positions).reverse ++ visited ↔
      found ∈ (Breadth.fresh id visited positions).map id ++ visited := by
    simp
  rw [Breadth.layersFrom_succ some]
  refine congrArg _ (Breadth.layersFrom_congr same ?_ limit).symm
  exact fresh_queued automaton (fun _ => List.mem_append_right _)
    (fun _ member => List.mem_append_left _ (List.mem_reverse.mpr member))

/-- From the positions of one layer the search goes on through all layers behind them. -/
theorem run_layersFrom {known : Finset Int}
    (targets : ∀ transition ∈ automaton.transitions, transition.target ∈ known) {limit : Nat}
    (done : List (List Int)) {visited positions : List Int}
    (inside : ∀ position ∈ positions, position ∈ known)
    (enough : (known.filter (· ∉ visited)).card ≤ limit) :
    ∃ final, Run automaton ⟨done, visited, positions.map (·, done.length)⟩
      ⟨done ++ Breadth.layersFrom id automaton.targetsBehind limit visited positions,
        final, []⟩ := by
  induction limit generalizing done visited positions with
  | zero =>
      have none : Breadth.fresh id visited positions = [] := by
        by_contra some
        have fewer := card_unvisited_lt inside some
        omega
      exact ⟨visited, run_of_fresh_eq_nil 0 done none⟩
  | succ limit ih =>
      by_cases none : Breadth.fresh id visited positions = []
      · exact ⟨visited, run_of_fresh_eq_nil (limit + 1) done none⟩
      · have fewer := card_unvisited_lt inside none
        have queuedInside : ∀ target ∈ queued automaton visited positions, target ∈ known := by
          intro target member
          obtain ⟨transition, edge, rfl⟩ := exists_target_of_mem_queued member
          exact targets transition edge
        obtain ⟨final, run⟩ := ih (done ++ [Breadth.fresh id visited positions]) queuedInside
          (Nat.le_of_lt_succ (Nat.lt_of_lt_of_le fewer enough))
        refine ⟨final, ?_⟩
        rw [layersFrom_queued automaton limit none]
        simpa [Run] using (run_of_fresh_ne_nil done none).trans run

/-- The search ends with an empty queue, and its layers are those of the automaton. -/
theorem run_begin (automaton : Automaton) :
    ∃ visited, Run automaton (begin automaton) ⟨automaton.layers, visited, []⟩ :=
  run_layersFrom (fun _ => Automaton.target_mem_positions) []
    (List.forall_mem_singleton.mpr automaton.start_mem_positions)
    ((Finset.card_filter_le _ _).trans automaton.card_positions_le)

theorem round_unique : Relator.RightUnique (Round automaton) := by
  rintro ⟨layers, visited, queue⟩ left right ⟨position, number, rest, same, toLeft⟩
    ⟨other, otherNumber, otherRest, otherSame, toRight⟩
  obtain ⟨entry, rfl⟩ := List.cons.inj (same.symm.trans otherSame)
  obtain ⟨rfl, rfl⟩ := Prod.mk.inj entry
  exact Except.ok.inj (toLeft.symm.trans toRight)

/-- A search that can empty its queue does not go on forever. -/
theorem acc_of_run {search ended : Search} (run : Run automaton search ended)
    (empty : ended.queue = []) : Acc (fun next search => Round automaton search next) search := by
  induction run using Relation.ReflTransGen.head_induction_on with
  | refl =>
      constructor
      rintro _ ⟨_, _, _, filled, _⟩
      cases empty.symm.trans filled
  | head round _ ih =>
      constructor
      intro other step
      exact round_unique round step ▸ ih

/-- The search does not go on forever, and each search on the way comes to the same end. -/
theorem exists_end (automaton : Automaton) :
    Acc (fun next search => Round automaton search next) (begin automaton) ∧
    ∃ visited, ∀ search, Run automaton (begin automaton) search →
      Run automaton search ⟨automaton.layers, visited, []⟩ := by
  obtain ⟨visited, whole⟩ := run_begin automaton
  refine ⟨acc_of_run whole rfl, visited, fun search run => ?_⟩
  rcases Relation.ReflTransGen.total_of_right_unique round_unique run whole with
    remaining | beyond
  · exact remaining
  · -- Nothing is taken from an empty queue.
    rcases Relation.ReflTransGen.cases_head beyond with same | ⟨_, ⟨_, _, _, filled, _⟩, _⟩
    · exact same ▸ .refl
    · cases filled

/-- Each search on the way has emptied its queue or goes on, so no layer is looked up in vain. -/
theorem ended_or_round {search : Search} (run : Run automaton (begin automaton) search) :
    search.queue = [] ∧ search.layers = automaton.layers ∨ ∃ next, Round automaton search next := by
  obtain ⟨_, visited, ends⟩ := exists_end automaton
  rcases Relation.ReflTransGen.cases_head (ends search run) with same | ⟨next, round, _⟩
  · exact .inl ⟨by rw [same], by rw [same]⟩
  · exact .inr ⟨next, round⟩

end Search

end GrammarWorkbench
