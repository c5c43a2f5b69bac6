import GrammarWorkbench.Proofs.Automaton.ViablePrefix
import GrammarWorkbench.Proofs.Diagram.Queue
import Mathlib.Data.Nat.Find
import Mathlib.Order.Bounds.Basic

/-!
# Layers by distance

The distance of a position is the length of the shortest path that leads to it from the start.
When the search comes to a layer, it has seen what is nearer than the layer, and all that has the
distance of the layer is among its candidates.  So the layers list the positions by distance, in
any automaton, whether its transitions join states or not.
-/

namespace GrammarWorkbench.Automaton

variable {automaton : Automaton} {position : Int} {steps : Nat}

/-- A path of so many transitions leads from the start to the position. -/
def Leads (automaton : Automaton) (steps : Nat) (position : Int) : Prop :=
  ∃ path, automaton.Path automaton.startState path position ∧ path.length = steps

/-- So many transitions lead to the position, and no fewer. -/
def Distance (automaton : Automaton) (position : Int) (steps : Nat) : Prop :=
  IsLeast {number | automaton.Leads number position} steps

/-! ## Paths of a given length -/

theorem leads_zero : automaton.Leads 0 position ↔ position = automaton.startState := by
  constructor
  · rintro ⟨_, walk, none⟩
    cases walk with
    | nil => rfl
    | snoc _ _ => simp at none
  · rintro rfl
    exact ⟨[], .nil, rfl⟩

theorem leads_succ : automaton.Leads (steps + 1) position ↔
    ∃ source, automaton.Leads steps source ∧ position ∈ automaton.targets source := by
  constructor
  · rintro ⟨_, walk, count⟩
    cases walk with
    | nil => cases count
    | snoc walk member =>
        rw [List.length_append, List.length_singleton] at count
        exact ⟨_, ⟨_, walk, Nat.succ.inj count⟩, mem_targets.mpr ⟨_, member, rfl, rfl⟩⟩
  · rintro ⟨_, ⟨path, walk, rfl⟩, follows⟩
    obtain ⟨transition, member, rfl, rfl⟩ := mem_targets.mp follows
    exact ⟨path ++ [transition.symbol], .snoc walk member, by simp⟩

/-- A position that is reached has a distance. -/
theorem exists_distance (leads : automaton.Leads steps position) :
    ∃ nearest, nearest ≤ steps ∧ automaton.Distance position nearest := by
  classical
  have reached : ∃ number, automaton.Leads number position := ⟨steps, leads⟩
  refine ⟨Nat.find reached, Nat.find_min' reached leads, Nat.find_spec reached, ?_⟩
  exact fun number other => Nat.find_min' reached other

/-- The last transition of a shortest path comes from a position that is one step nearer. -/
theorem exists_source_of_distance (distance : automaton.Distance position (steps + 1)) :
    ∃ source, automaton.Distance source steps ∧ position ∈ automaton.targets source := by
  obtain ⟨source, leads, follows⟩ := leads_succ.mp distance.1
  obtain ⟨nearest, near, shortest⟩ := exists_distance leads
  have least : steps + 1 ≤ nearest + 1 := distance.2 (leads_succ.mpr ⟨source, shortest.1, follows⟩)
  obtain rfl : nearest = steps := by omega
  exact ⟨source, shortest, follows⟩

/-- On the way to a position lie positions at each smaller distance. -/
theorem exists_nearer (more : Nat) (distance : automaton.Distance position (steps + more)) :
    ∃ nearer, automaton.Distance nearer steps := by
  induction more generalizing position with
  | zero => exact ⟨position, distance⟩
  | succ more ih =>
      obtain ⟨source, shortest, _⟩ := exists_source_of_distance distance
      exact ih shortest

/-! ## The search before a layer -/

/-- What was seen is nearer than the layer, which is among the candidates. -/
structure Frontier (automaton : Automaton) (number : Nat) (seen candidates : List Int) :
    Prop where
  mem_seen : ∀ position, position ∈ seen ↔
    ∃ earlier, earlier < number ∧ automaton.Distance position earlier
  leads : ∀ position ∈ candidates, automaton.Leads number position
  covers : ∀ position, automaton.Distance position number → position ∈ candidates

theorem frontier_start (automaton : Automaton) :
    automaton.Frontier 0 [] [automaton.startState] where
  mem_seen := by simp
  leads := List.forall_mem_singleton.mpr (leads_zero.mpr rfl)
  covers := fun _ distance => List.mem_singleton.mpr (leads_zero.mp distance.1)

namespace Frontier

variable {number : Nat} {seen candidates : List Int}

/-- The candidates that were not seen have the distance of the layer. -/
theorem mem_fresh (frontier : automaton.Frontier number seen candidates) :
    position ∈ Breadth.fresh id seen candidates ↔ automaton.Distance position number := by
  have member : position ∈ (Breadth.fresh id seen candidates).map id ↔
      position ∈ candidates.map id ∧ position ∉ seen := Breadth.mem_keys_fresh position
  rw [List.map_id, List.map_id] at member
  rw [member, frontier.mem_seen]
  constructor
  · rintro ⟨candidate, unseen⟩
    obtain ⟨nearest, near, distance⟩ := exists_distance (frontier.leads position candidate)
    rcases Nat.lt_or_eq_of_le near with nearer | rfl
    · exact absurd ⟨nearest, nearer, distance⟩ unseen
    · exact distance
  · intro distance
    refine ⟨frontier.covers position distance, ?_⟩
    rintro ⟨earlier, less, other⟩
    exact Nat.ne_of_lt less (other.unique distance)

/-- The positions behind a layer are the candidates for the next one. -/
theorem next (frontier : automaton.Frontier number seen candidates) :
    automaton.Frontier (number + 1) ((Breadth.fresh id seen candidates).map id ++ seen)
      (automaton.targetsBehind (Breadth.fresh id seen candidates)) where
  mem_seen := by
    intro position
    rw [List.map_id, List.mem_append, frontier.mem_fresh, frontier.mem_seen]
    constructor
    · rintro (here | ⟨earlier, less, distance⟩)
      · exact ⟨number, Nat.lt_succ_self number, here⟩
      · exact ⟨earlier, Nat.lt_succ_of_lt less, distance⟩
    · rintro ⟨earlier, less, distance⟩
      rcases Nat.lt_or_eq_of_le (Nat.le_of_lt_succ less) with nearer | rfl
      · exact .inr ⟨earlier, nearer, distance⟩
      · exact .inl distance
  leads := by
    intro position behind
    obtain ⟨source, member, follows⟩ := List.mem_flatMap.mp behind
    exact leads_succ.mpr ⟨source, (frontier.mem_fresh.mp member).1, follows⟩
  covers := by
    intro position distance
    obtain ⟨source, shortest, follows⟩ := exists_source_of_distance distance
    exact List.mem_flatMap.mpr ⟨source, frontier.mem_fresh.mpr shortest, follows⟩

/-- No position lies at or behind a layer that would be empty. -/
theorem not_distance (frontier : automaton.Frontier number seen candidates)
    (none : Breadth.fresh id seen candidates = []) (more : Nat) :
    ¬ automaton.Distance position (number + more) := by
  intro distance
  obtain ⟨nearer, shortest⟩ := exists_nearer more distance
  have member := frontier.mem_fresh.mpr shortest
  rw [none] at member
  exact List.not_mem_nil member

/-- The layers from a number on hold the positions at the distances from there on. -/
theorem mem_layersFrom {known : Finset Int}
    (targets : ∀ transition ∈ automaton.transitions, transition.target ∈ known) {limit : Nat}
    (frontier : automaton.Frontier number seen candidates)
    (inside : ∀ position ∈ candidates, position ∈ known)
    (enough : (known.filter (· ∉ seen)).card ≤ limit) (place : Nat) :
    (∃ layer, (Breadth.layersFrom id automaton.targetsBehind limit seen candidates)[place]? =
      some layer ∧ position ∈ layer) ↔ automaton.Distance position (number + place) := by
  induction limit generalizing number seen candidates place with
  | zero =>
      have none : Breadth.fresh id seen candidates = [] := by
        by_contra some
        have fewer := Breadth.card_unseen_lt inside some
        omega
      rw [Breadth.layersFrom_of_fresh_eq_nil none]
      exact iff_of_false (by simp) (frontier.not_distance none place)
  | succ limit ih =>
      by_cases none : Breadth.fresh id seen candidates = []
      · rw [Breadth.layersFrom_of_fresh_eq_nil none]
        exact iff_of_false (by simp) (frontier.not_distance none place)
      · rw [Breadth.layersFrom_succ none]
        cases place with
        | zero =>
            rw [List.getElem?_cons_zero, Nat.add_zero, ← frontier.mem_fresh]
            constructor
            · rintro ⟨_, same, member⟩
              exact Option.some.inj same ▸ member
            · exact fun member => ⟨_, rfl, member⟩
        | succ place =>
            have behind : ∀ position ∈ automaton.targetsBehind (Breadth.fresh id seen candidates),
                position ∈ known := by
              intro position member
              obtain ⟨source, _, follows⟩ := List.mem_flatMap.mp member
              obtain ⟨transition, edge, _, rfl⟩ := mem_targets.mp follows
              exact targets transition edge
            have fewer : (known.filter (· ∉ (Breadth.fresh id seen candidates).map id ++ seen)).card <
                (known.filter (· ∉ seen)).card := Breadth.card_unseen_lt inside none
            rw [List.getElem?_cons_succ, ih frontier.next behind (by omega) place]
            rw [Nat.add_right_comm, Nat.add_assoc]

end Frontier

/-! ## All layers -/

/-- A layer holds the positions at its distance. -/
theorem mem_layers (automaton : Automaton) (number : Nat) (position : Int) :
    (∃ layer, automaton.layers[number]? = some layer ∧ position ∈ layer) ↔
      automaton.Distance position number := by
  have start : ∀ position ∈ [automaton.startState], position ∈ automaton.positions :=
    List.forall_mem_singleton.mpr automaton.start_mem_positions
  have found : (∃ layer, automaton.layers[number]? = some layer ∧ position ∈ layer) ↔
      automaton.Distance position (0 + number) :=
    automaton.frontier_start.mem_layersFrom (fun _ => target_mem_positions) start
      ((Finset.card_filter_le _ _).trans automaton.card_positions_le) number
  rwa [Nat.zero_add] at found

/--
The search by a queue does not go on forever, and it comes to its end from wherever it is, so it
never looks up a layer in vain.  Each layer then lists the positions at its distance from the
start, each once, and there is a layer for each distance.
-/
theorem layers_exact (automaton : Automaton) :
    Acc (fun next search => Search.Round automaton search next) (.begin automaton) ∧
    (∃ visited, ∀ search, Search.Run automaton (.begin automaton) search →
      Search.Run automaton search ⟨automaton.layers, visited, []⟩) ∧
    (∀ number position, (∃ layer, automaton.layers[number]? = some layer ∧ position ∈ layer) ↔
      automaton.Distance position number) ∧
    (∀ layer ∈ automaton.layers, layer ≠ []) ∧ automaton.layers.flatten.Nodup := by
  obtain ⟨ends, same⟩ := Search.exists_end automaton
  exact ⟨ends, same, automaton.mem_layers, fun _ => Breadth.ne_nil_of_mem_layersFrom,
    automaton.nodup_layers⟩

example : Automaton.layers ⟨[], [⟨-1, 3, "a", .shift⟩, ⟨7, 7, "b", .goto⟩, ⟨7, -1, "a", .shift⟩,
    ⟨7, 3, "c", .shift⟩, ⟨7, -1, "b", .goto⟩, ⟨3, 7, "a", .shift⟩, ⟨5, 6, "a", .shift⟩], none, 7⟩ =
    [[7], [-1, 3]] := by decide

end GrammarWorkbench.Automaton
