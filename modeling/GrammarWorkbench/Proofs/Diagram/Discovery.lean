import GrammarWorkbench.Proofs.Breadth.Image
import GrammarWorkbench.Proofs.Diagram.Overview
import GrammarWorkbench.Proofs.Diagram.Queue

/-!
# The layers in the order of discovery

The states of an automaton are numbered in the order in which a search along goto finds them,
and its layers are found by a search along the transitions.  The numbers of the states take one
search into the other, so the layers list the states in the order of their numbers.  The canvas
therefore shows each state once and in order, and no edge on it has a loose end.
-/

namespace GrammarWorkbench

variable {rules : List Rule} {first : Rule}

namespace Ruleset

/-- The number of a state, told by its key. -/
def number (ruleset : Ruleset) (first : Rule) (state : State) : Int :=
  position (ruleset.statesFrom first) state.key

/-- The state has the key of a collected state. -/
def Collected (ruleset : Ruleset) (first : Rule) (state : State) : Prop :=
  state.key ∈ (ruleset.statesFrom first).map State.key

theorem number_of_getElem? {ruleset : Ruleset} {place : Nat} {state : State}
    (found : (ruleset.statesFrom first)[place]? = some state) :
    ruleset.number first state = place :=
  congrArg _ ((position_eq_iff (nodup_keys_statesFrom ruleset first) found).mpr rfl)

theorem map_number_statesFrom (ruleset : Ruleset) (first : Rule) :
    (ruleset.statesFrom first).map (ruleset.number first) =
      (List.range (ruleset.statesFrom first).length).map Int.ofNat := by
  refine List.ext_getElem (by simp) fun place inside _ => ?_
  rw [List.length_map] at inside
  simpa using number_of_getElem? (List.getElem?_eq_getElem inside)

/-- Collected states have one number exactly if they have one key. -/
theorem faithful_number (ruleset : Ruleset) (first : Rule) :
    Breadth.Faithful State.key id (ruleset.number first) (ruleset.Collected first) := by
  intro left right leftCollected rightCollected
  obtain ⟨state, found, same⟩ := getElem?_position leftCollected
  have place : position (ruleset.statesFrom first) right.key = _ ↔ right.key = state.key :=
    position_eq_iff (nodup_keys_statesFrom ruleset first) found
  rw [same] at place
  exact (Int.ofNat_inj.trans eq_comm).trans (place.trans eq_comm)

/-- The transitions from a state lead to the numbers of its successors. -/
theorem targets_automatonFrom {ruleset : Ruleset} {place : Nat} {state : State}
    (found : (ruleset.statesFrom first)[place]? = some state) :
    (ruleset.automatonFrom first).targets place =
      (ruleset.successors state).map (ruleset.number first) := by
  rw [Automaton.targets, transitionsFrom_automatonFrom found]
  simp [transitionsOf, successors, number]

/-! ## Bounds -/

/-- The numbers of the states. -/
def numbers (ruleset : Ruleset) (first : Rule) : Finset Int :=
  ((List.range (ruleset.statesFrom first).length).map Int.ofNat).toFinset

theorem mem_numbers {ruleset : Ruleset} {number : Int} :
    number ∈ ruleset.numbers first ↔ Numbers (ruleset.statesFrom first).length number := by
  simp [numbers, Numbers, eq_comm, and_comm]

theorem card_numbers_le (ruleset : Ruleset) (first : Rule) :
    (ruleset.numbers first).card ≤ (ruleset.statesFrom first).length :=
  (List.toFinset_card_le _).trans (by simp)

/-- Each state but the first needs a transition of its own. -/
theorem card_numbers_le_transitions (member : first ∈ rules) :
    ((ofRules rules).numbers first).card ≤
      ((ofRules rules).automatonFrom first).transitions.length + 1 := by
  have canonical := canonical_automatonFrom member
  have reached : (ofRules rules).numbers first ⊆
      (0 :: ((ofRules rules).automatonFrom first).transitions.map Transition.target).toFinset := by
    intro number inside
    obtain ⟨place, rfl, less⟩ := mem_numbers.mp inside
    rw [List.mem_toFinset]
    rcases Nat.eq_zero_or_pos place with rfl | later
    · exact List.mem_cons_self
    · obtain ⟨transition, edge, _, leads⟩ := canonical.found place later less
      exact List.mem_cons_of_mem _ (leads ▸ List.mem_map_of_mem edge)
  refine (Finset.card_le_card reached).trans ((List.toFinset_card_le _).trans ?_)
  simp

/-! ## One search and the other -/

theorem mem_numbers_of_mem_targetsBehind (member : first ∈ rules) (sources : List Int) :
    ∀ target ∈ ((ofRules rules).automatonFrom first).targetsBehind sources,
      target ∈ (ofRules rules).numbers first := by
  intro target behind
  obtain ⟨source, _, follows⟩ := List.mem_flatMap.mp behind
  obtain ⟨transition, edge, _, rfl⟩ := Automaton.mem_targets.mp follows
  obtain ⟨_, place, _, _, _, atTarget, _, found, _, _⟩ := target_of_mem_transitions member edge
  exact mem_numbers.mpr ⟨place, atTarget, (List.getElem?_eq_some_iff.mp found).1⟩

theorem collected_of_mem_statesBehind (member : first ∈ rules) {layer : List State}
    (inside : ∀ state ∈ layer, state ∈ (ofRules rules).statesFrom first) :
    ∀ state ∈ (ofRules rules).statesBehind layer, (ofRules rules).Collected first state := by
  intro next behind
  obtain ⟨state, here, symbol, awaited, rfl⟩ := mem_statesBehind.mp behind
  exact statesFrom_closed member state (inside state here) symbol awaited

/-- Behind the numbers of some states stand the numbers of what is behind the states. -/
theorem targetsBehind_map_number {ruleset : Ruleset} {layer : List State}
    (inside : ∀ state ∈ layer, state ∈ ruleset.statesFrom first) :
    (ruleset.automatonFrom first).targetsBehind (layer.map (ruleset.number first)) =
      (ruleset.statesBehind layer).map (ruleset.number first) := by
  rw [Automaton.targetsBehind, List.flatMap_map, statesBehind, List.map_flatMap]
  refine List.flatMap_congr fun state here => ?_
  obtain ⟨place, found⟩ := List.mem_iff_getElem?.mp (inside state here)
  rw [number_of_getElem? found, targets_automatonFrom found]

/-- The layers of the automaton are those in which its states are found. -/
theorem layers_automatonFrom (member : first ∈ rules) :
    ((ofRules rules).automatonFrom first).layers =
      (Breadth.layers State.key (ofRules rules).statesBehind
        (Nat.pow 2 (ofRules rules).dotPlaces) [(ofRules rules).startState first]).map
          (List.map ((ofRules rules).number first)) := by
  have zero : (ofRules rules).number first ((ofRules rules).startState first) = 0 :=
    number_of_getElem? (statesFrom_zero _ first)
  have start : 0 ∈ (ofRules rules).numbers first :=
    mem_numbers.mpr ⟨0, rfl, (List.getElem?_eq_some_iff.mp (statesFrom_zero _ first)).1⟩
  have unlimited : ((ofRules rules).automatonFrom first).layers =
      Breadth.layersFrom id ((ofRules rules).automatonFrom first).targetsBehind
        (Nat.pow 2 (ofRules rules).dotPlaces) []
        ([(ofRules rules).startState first].map ((ofRules rules).number first)) := by
    rw [List.map_singleton, zero]
    refine Breadth.layersFrom_limit ((ofRules rules).numbers first) (fun _ inside => inside)
      ?_ ?_ ?_ ?_
    · exact fun layer _ => mem_numbers_of_mem_targetsBehind member layer
    · exact List.forall_mem_singleton.mpr start
    · exact card_numbers_le_transitions member
    · exact (card_numbers_le _ first).trans (length_statesFrom_le member)
  rw [unlimited]
  refine Breadth.layersFrom_map (faithful_number _ first) (fun _ _ => by simp) ?_ ?_
  · exact List.forall_mem_singleton.mpr
      (List.mem_map_of_mem (List.mem_of_getElem? (statesFrom_zero _ first)))
  · intro layer reached
    have inside : ∀ state ∈ layer, state ∈ (ofRules rules).statesFrom first :=
      fun state here => List.mem_flatten_of_mem reached here
    exact ⟨collected_of_mem_statesBehind member inside, targetsBehind_map_number inside⟩

/-- The layers list the numbers of the states in their order. -/
theorem flatten_layers_automatonFrom (member : first ∈ rules) :
    ((ofRules rules).automatonFrom first).layers.flatten =
      (List.range ((ofRules rules).statesFrom first).length).map Int.ofNat := by
  rw [layers_automatonFrom member, ← List.map_flatten]
  exact map_number_statesFrom (ofRules rules) first

end Ruleset

end GrammarWorkbench
