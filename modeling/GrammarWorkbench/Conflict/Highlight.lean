import GrammarWorkbench.Breadth
import GrammarWorkbench.Conflict.Basic

/-!
# Highlights of states

A state in conflict is highlighted with the kind and the symbol of the first conflict
that names it.
-/

namespace GrammarWorkbench

structure Highlight where
  kind : ConflictKind
  symbol : Symbol
  deriving DecidableEq, Repr

def Conflict.highlight (conflict : Conflict) : Highlight :=
  ⟨conflict.kind, conflict.symbol⟩

/-- One highlight for each state in conflict, in the order of the first conflicts. -/
def highlights (conflicts : List Conflict) : List (Int × Highlight) :=
  (Breadth.fresh Conflict.state [] conflicts).map fun conflict =>
    (conflict.state, conflict.highlight)

/-- The highlighted states are those that some conflict names. -/
theorem mem_states_highlights {conflicts : List Conflict} {state : Int} :
    state ∈ (highlights conflicts).map (·.1) ↔ ∃ conflict ∈ conflicts, conflict.state = state := by
  have keys : (highlights conflicts).map (·.1) =
      (Breadth.fresh Conflict.state [] conflicts).map Conflict.state := by
    simp [highlights]
  rw [keys, Breadth.mem_keys_fresh]
  simp

/-- No state is highlighted twice. -/
theorem nodup_states_highlights (conflicts : List Conflict) :
    ((highlights conflicts).map (·.1)).Nodup := by
  have keys : (highlights conflicts).map (·.1) =
      (Breadth.fresh Conflict.state [] conflicts).map Conflict.state := by
    simp [highlights]
  rw [keys]
  exact Breadth.nodup_keys_fresh Conflict.state [] conflicts

end GrammarWorkbench
