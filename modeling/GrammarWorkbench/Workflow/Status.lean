import GrammarWorkbench.Workflow.Basic

/-!
# Status of a workflow

The status tells how far a workflow is, what was found and what may be done next.
-/

namespace GrammarWorkbench

inductive Status where
  | initial
  | parsed (productions : Nat) (choices : List Symbol)
  | built (start : Symbol) (conflicts : Nat)
  deriving DecidableEq, Repr

namespace Status

/-- The names of the actions that lead on. -/
def actions : Status → List String
  | .initial => ["parse_productions"]
  | .parsed _ _ => ["set_start_symbol"]
  | .built _ _ => ["set_start_symbol"]

def description : Status → String
  | .initial => "Ready to parse grammar rules"
  | .parsed _ _ => "Rules parsed, ready to select start symbol"
  | .built _ _ => "Automaton built"

end Status

def Workflow.status (workflow : Workflow) : Status :=
  match workflow.stage with
  | .initial => .initial
  | .parsed _ => .parsed workflow.rules.length workflow.choices
  | .built analysis => .built analysis.start analysis.conflicts.length

end GrammarWorkbench
