import GrammarWorkbench.Grammar
import GrammarWorkbench.Report.Style
import GrammarWorkbench.Text.Entity

/-!
# Reports in markup

The text of a grammar enters a page with its markup characters written as entities.
-/

namespace GrammarWorkbench.Report

/-- Text of a grammar as it may stand in a page. -/
def entities (text : String) : String :=
  Text.markup .hexadecimal text

def noConflictsPage : String :=
  "<div class=\"no-conflicts\">No conflicts detected in the grammar.</div>"

/-- A rule of the grammar with its position, as an entry of a list. -/
def ruleEntry (grammar : Grammar) (position : Int) : Except LookupError String := do
  return "<li>(" ++ toString position ++ ") " ++ entities (← grammar.ruleText position) ++ "</li>"

/-- The block on one conflict, which is counted from one. -/
def conflictBlock (grammar : Grammar) (entry : Conflict × Nat) :
    Except LookupError (List String) := do
  let (conflict, count) := entry
  let rules ← conflict.rules.mapM (ruleEntry grammar)
  return ["<div class=\"conflict-item\">",
      "<h5>Conflict " ++ toString count ++ ": " ++ entities conflict.kind.name ++ "</h5>",
      "<p><strong>State:</strong> " ++ toString conflict.state ++ "</p>",
      "<p><strong>Symbol:</strong> " ++ entities conflict.symbol ++ "</p>",
      "<p><strong>Rules:</strong></p>", "<ul>"] ++ rules ++
    ["</ul>",
      "<p><strong>Lookahead intersection:</strong> " ++
        entities (", ".intercalate conflict.intersection) ++ "</p>",
      "</div>"]

/-- The page on some conflicts of a grammar. -/
def conflictPage (style : ReportStyle) (grammar : Grammar) (conflicts : List Conflict) :
    Except LookupError String := do
  if conflicts.isEmpty then
    return noConflictsPage
  let blocks ← (conflicts.zipIdx 1).mapM (conflictBlock grammar)
  return "\n".intercalate
    (style.opening ++
      ["<div class=\"" ++ style.conflictClasses ++ "\">",
        "<h4>Grammar Conflicts (" ++ toString conflicts.length ++ " found)</h4>"] ++
      blocks.flatten ++ ["</div>"])

/-- The paragraph that quotes a line, if there is one and it is not empty. -/
def quotedLine : Option String → List String
  | none => []
  | some line =>
      if line.isEmpty then []
      else ["<p><strong>Line:</strong> <code>" ++ entities line ++ "</code></p>"]

/-- The page on an error, with the line to blame. -/
def errorPage (style : ReportStyle) (message : String) (line : Option String) : String :=
  "\n".intercalate
    (style.opening ++
      ["<div class=\"" ++ style.errorClasses ++ "\">", "<h4>Grammar Error</h4>",
        "<p class=\"error-text\">" ++ entities message ++ "</p>"] ++
      quotedLine line ++ ["</div>"])

end GrammarWorkbench.Report
