/-!
# Looks of a report

A report in markup names its classes, and may carry the rules for their looks.
-/

namespace GrammarWorkbench

/-- The classes of the two kinds of report, and whether the style sheet goes with them. -/
structure ReportStyle where
  conflictClasses : String := "conflict-report"
  errorClasses : String := "error-message"
  inlineStyles : Bool := true
  deriving DecidableEq, Repr

/-- The style sheet between its tags. -/
def styleSheet : String :=
  "\n".intercalate
    ["",
     "<style>",
     ".error-message \x7b",
     "    color: #cc0000;",
     "    background-color: #ffeeee;",
     "    border: 1px solid #cc0000;",
     "    border-radius: 4px;",
     "    padding: 10px;",
     "    margin: 10px 0;",
     "    font-family: Arial, sans-serif;",
     "\x7d",
     "",
     ".error-text \x7b",
     "    font-weight: bold;",
     "    margin: 5px 0;",
     "\x7d",
     "",
     ".conflict-report \x7b",
     "    background-color: #fff8e1;",
     "    border: 1px solid #ff9800;",
     "    border-radius: 4px;",
     "    padding: 10px;",
     "    margin: 10px 0;",
     "\x7d",
     "",
     ".conflict-item \x7b",
     "    margin: 10px 0;",
     "    padding: 8px;",
     "    background-color: #ffffff;",
     "    border-left: 3px solid #ff9800;",
     "\x7d",
     "</style>",
     ""]

/-- The style sheet, if the style asks for it. -/
def ReportStyle.opening (style : ReportStyle) : List String :=
  if style.inlineStyles then [styleSheet] else []

end GrammarWorkbench
