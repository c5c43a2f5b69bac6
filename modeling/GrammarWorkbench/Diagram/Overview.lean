import GrammarWorkbench.Diagram.Canvas
import GrammarWorkbench.Diagram.Dot
import GrammarWorkbench.Report.Page
import GrammarWorkbench.Report.Written

/-!
# Overviews of a grammar

An overview gathers all views of an automaton and of its conflicts.
-/

namespace GrammarWorkbench

/-- The choices that the views leave open. -/
structure ViewStyle where
  layout : Layout := {}
  labels : Dot.LabelStyle := {}
  report : ReportStyle := {}

structure Overview where
  canvas : Canvas
  highlights : List (Int × Highlight)
  graph : String
  report : String
  page : String

/-- The views of a grammar with some conflicts, by default those that are found in it. -/
def Grammar.overview (style : ViewStyle) (grammar : Grammar) (conflicts? : Option (List Conflict)) :
    Except LookupError Overview := do
  let conflicts ← match conflicts? with
    | some conflicts => pure conflicts
    | none => grammar.conflicts
  return {
    canvas := ← Canvas.draw style.layout grammar.automaton conflicts
    highlights := highlights conflicts
    graph := Dot.draw style.labels Dot.defaultTitle grammar.automaton conflicts
    report := ← Report.written grammar conflicts
    page := ← Report.conflictPage style.report grammar conflicts }

end GrammarWorkbench
