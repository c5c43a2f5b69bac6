import GrammarWorkbench.Grammar

/-!
# Conflict reports as text

A report names each conflict and shows the items of its state, its rules and the
symbols that they share.
-/

namespace GrammarWorkbench.Report

def noConflicts : String := "No conflicts detected in the grammar."

/-- A rule of the grammar with its position. -/
def ruleLine (grammar : Grammar) (position : Int) : Except LookupError String := do
  return "    (" ++ toString position ++ ") " ++ (← grammar.ruleText position)

/-- The lines on one conflict, which is counted from one. -/
def conflictLines (grammar : Grammar) (entry : Conflict × Nat) :
    Except LookupError (List String) := do
  let (conflict, count) := entry
  let state ← itemAt grammar.states conflict.state
  let rules ← conflict.rules.mapM (ruleLine grammar)
  return ["Conflict " ++ toString count ++ ": " ++ conflict.text,
      "  State " ++ toString conflict.state ++ " items:"] ++
    state.items.map (fun item => "    " ++ item.text) ++ "  Rules involved:" :: rules ++
    ["  Lookahead intersection: \x7b" ++ ", ".intercalate conflict.intersection ++ "\x7d", ""]

/-- The report on some conflicts of a grammar. -/
def written (grammar : Grammar) (conflicts : List Conflict) : Except LookupError String := do
  if conflicts.isEmpty then
    return noConflicts
  let parts ← (conflicts.zipIdx 1).mapM (conflictLines grammar)
  return "\n".intercalate
    (("Found " ++ toString conflicts.length ++ " conflict(s) in the LR(0) automaton:\n") ::
      parts.flatten)

end GrammarWorkbench.Report
