import GrammarWorkbench.Proofs.Rule.Flawed
import GrammarWorkbench.Proofs.Workflow.Start
import GrammarWorkbench.Service.Answer

/-!
# What becomes of a request

A request is answered by what it asks for or told what is wrong with it: its data has no grammar,
the grammar or the accept rule has a flawed line, or the start symbol is none of its left sides.
No other failure is left, and the two endpoints that analyse the grammar tell the same.
-/

namespace GrammarWorkbench

/-! ## Requests -/

namespace Request

/-- The body is an object whose grammar is a text of more than blanks. -/
def Supplies (request : Request) (text : String) : Prop :=
  ∃ members, request.data? = some (.object members) ∧
    members.lookup "grammar" = some (.string text) ∧
      ∃ char ∈ text.toList, ¬ Text.isBlank char = true

/-- The start symbol that stands in the body. -/
def startSymbol? (request : Request) : Option Json :=
  request.data?.bind (·.member? "start_symbol")

/-- The start symbol that is asked for: a left side, the first one by default. -/
inductive Starts (request : Request) (rules : List Rule) : Symbol → Prop where
  | first {rule : Rule}
      (default : ∀ value, request.startSymbol? = some value → value.isBlank = true)
      (head : rules.head? = some rule) : Starts request rules rule.lhs
  | named {rule : Rule} (wished : request.startSymbol? = some (.string rule.lhs))
      (member : rule ∈ rules) : Starts request rules rule.lhs

/-- The question that a body with a grammar asks. -/
def asked (request : Request) (text : String) : Question :=
  ⟨text, request.startSymbol?.filter fun value => !value.isBlank⟩

variable {request : Request} {text : String}

theorem Supplies.unique {other : String} (supplies : request.Supplies text)
    (also : request.Supplies other) : text = other := by
  obtain ⟨members, data, grammar, _⟩ := supplies
  obtain ⟨others, again, there, _⟩ := also
  obtain rfl := Json.object.inj (Option.some.inj (data.symm.trans again))
  exact Json.string.inj (Option.some.inj (grammar.symm.trans there))

end Request

/-! ## Answers -/

namespace Service

/-- The body says that nothing was done, names the kind of failure and blames a line, if any. -/
structure Refuses (response : Response) (kind : String) (line? : Option String) : Prop where
  status : response.status = 400
  success : response.body.member? "success" = some (.bool false)
  error_type : response.body.member? "error_type" = some (.string kind)
  line : response.body.member? "line" = line?.map Json.string

/-- The endpoint has an answer for the request, whose grammar is the text. -/
def Accepts (marker : Symbol) (request : Request) (text : String) : Endpoint → Prop
  | .productions => ∃ rules, Rule.readAll (Rule.sourceLines text) defaultEpsilon = .ok rules
  | _ => ∃ rules start, Rule.readAll (Rule.sourceLines text) defaultEpsilon = .ok rules ∧
      request.Starts rules start ∧ ¬ arrow.toList <:+: marker.toList

variable {marker : Symbol} {request : Request} {text : String} {endpoint : Endpoint}

theorem Accepts.read (accepts : Accepts marker request text endpoint) :
    ∃ rules, Rule.readAll (Rule.sourceLines text) defaultEpsilon = .ok rules := by
  cases endpoint with
  | productions => exact accepts
  | automaton | sets =>
      obtain ⟨rules, _, read, _⟩ := accepts
      exact ⟨rules, read⟩

theorem accepts_iff (analyses : endpoint ≠ .productions) :
    Accepts marker request text endpoint ↔
      ∃ rules start, Rule.readAll (Rule.sourceLines text) defaultEpsilon = .ok rules ∧
        request.Starts rules start ∧ ¬ arrow.toList <:+: marker.toList := by
  cases endpoint with
  | productions => exact absurd rfl analyses
  | automaton | sets => rfl

end Service

end GrammarWorkbench
