import GrammarWorkbench.Json.Plain
import GrammarWorkbench.Text.Blank
import GrammarWorkbench.Workflow.Basic

/-!
# Questions

A request comes with the value that its body is read as, if it is read as one.  An
object with the text of a grammar asks about this grammar, and it may wish for a start
symbol.
-/

namespace GrammarWorkbench

/-- A request as far as it is looked at: its data, if there is any. -/
structure Request where
  data? : Option Json

/-- What is asked about: a grammar, and a start symbol if one is wished for. -/
structure Question where
  grammar : String
  start? : Option Json

/-- The question needs a grammar that is not blank; a start symbol without content is none. -/
def Request.question? (request : Request) : Option Question := do
  let data ← request.data?
  match data.member? "grammar" with
  | some (.string grammar) =>
      if (Text.trim grammar.toList).isEmpty then none
      else
        some ⟨grammar, (data.member? "start_symbol").filter fun value => !value.isBlank⟩
  | _ => none

namespace Question

/-- The start symbol as a choice. -/
def choice (question : Question) : StartChoice :=
  match question.start? with
  | none => .first
  | some (.string name) => .symbol name
  | some value => .other value.plain

/-- The start symbol as it is shown. -/
def shownStart (question : Question) : String :=
  match question.start? with
  | none => "(first rule)"
  | some value => value.plain

end Question

end GrammarWorkbench
