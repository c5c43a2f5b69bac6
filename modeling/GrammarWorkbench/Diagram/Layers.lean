import GrammarWorkbench.Automaton.Basic
import GrammarWorkbench.Breadth

/-!
# Layers of an automaton

A position lies in the layer of its distance from the start.  Positions need not be
those of states, so that any list of transitions has layers.
-/

namespace GrammarWorkbench.Automaton

/-- The positions right behind a position, in the order of the transitions. -/
def targets (automaton : Automaton) (source : Int) : List Int :=
  (automaton.transitionsFrom source).map Transition.target

/-- The positions right behind some positions, in their order. -/
def targetsBehind (automaton : Automaton) (sources : List Int) : List Int :=
  sources.flatMap automaton.targets

/-- The layers, of which each but the first needs a transition of its own. -/
def layers (automaton : Automaton) : List (List Int) :=
  Breadth.layers id automaton.targetsBehind (automaton.transitions.length + 1) [automaton.startState]

theorem mem_targets {automaton : Automaton} {source target : Int} :
    target ∈ automaton.targets source ↔
      ∃ transition ∈ automaton.transitions,
        transition.source = source ∧ transition.target = target := by
  simp [targets, transitionsFrom, and_assoc]

/-- No position lies in two layers, or twice in one. -/
theorem nodup_layers (automaton : Automaton) : automaton.layers.flatten.Nodup := by
  have keys := Breadth.nodup_keys_reached id automaton.targetsBehind
    (automaton.transitions.length + 1) [automaton.startState]
  rwa [List.map_id] at keys

end GrammarWorkbench.Automaton
