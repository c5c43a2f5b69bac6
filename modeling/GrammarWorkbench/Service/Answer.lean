import GrammarWorkbench.Report.Page
import GrammarWorkbench.Service.Payload
import GrammarWorkbench.Service.Question
import GrammarWorkbench.Service.Response
import GrammarWorkbench.Workflow.Step

/-!
# Answers

Every question is put to a workflow of its own.  An answer tells what was found, or
why the grammar was refused.  An answer that cannot be written gives way to a report of
this failure.
-/

namespace GrammarWorkbench

inductive Endpoint where
  | productions
  | automaton
  | sets
  deriving DecidableEq, Repr

namespace Service

/-- The answer to a body without a question. -/
def noGrammar : Response :=
  { status := 400, body := .object [("error", .string "No grammar provided")] }

/-- The answer to a grammar that is refused. -/
def refusal (log : List String) (reason : Refusal) : Response :=
  { status := 400
    body := .object
      ([("success", .bool false), ("error", .string reason.message),
        ("error_type", .string reason.kind)] ++
      (reason.line?.map fun line => ("line", Json.string line)).toList ++
      [("errorHtml", .string (Report.errorPage {} reason.message reason.line?))])
    log := log ++ ["--- Grammar Processing FAILED ---", "Error: " ++ reason.message] }

/-- A failure that is not the fault of the grammar, behind what was logged until then. -/
structure Breakdown where
  log : List String
  message : String

def Breakdown.report (breakdown : Breakdown) : Response :=
  { status := 500
    body := .object
      [("error", .string ("Unexpected server error: " ++ Text.markup .decimal breakdown.message)),
        ("error_type", .string "system_error")]
    log := breakdown.log ++ ["--- UNEXPECTED Python Error: " ++ breakdown.message ++ " ---"] }

/-- What comes of a refusal in the workflow. -/
def setback (log : List String) : Refusal → Except Breakdown Response
  | .lookup error => .error ⟨log, error.message⟩
  | reason => .ok (refusal log reason)

/-- A workflow for a question. -/
def start (endMarker : Symbol) (question : Question) : Workflow :=
  { source := question.grammar, endMarker }

/-- Take a question through a whole workflow. -/
def construct (endMarker : Symbol) (question : Question) : Except Refusal Construction := do
  let (read, workflow) := (start endMarker question).parse
  let _ ← read.mapError .rule
  (workflow.choose question.choice).1

def productionsLog : String := "--- Parsing Grammar Productions ---"

def automatonLog : String := "--- Building Automaton ---"

def setsLog : String := "--- Computing FIRST/FOLLOW Sets ---"

/-- The rules of a grammar and the choices for its start symbol. -/
def productions (endMarker : Symbol) (question : Question) : Response :=
  match (start endMarker question).parse.1 with
  | .error error => refusal [productionsLog] (.rule error)
  | .ok found =>
      { status := 200
        body := .object
          [("success", .bool true),
            ("productions", Payload.strings (found.rules.map Rule.text)),
            ("start_symbols", Payload.strings found.choices),
            ("grammar_info", Payload.grammarInfo found)]
        log :=
          [productionsLog, "--- Production Parsing SUCCEEDED ---",
            "Found " ++ toString found.rules.length ++ " productions",
            "Potential start symbols: " ++ Text.quotedList found.choices] }

/-- What is logged of an automaton; conflicts are counted only if there are any. -/
def automatonSummary (analysis : Analysis) : List String :=
  let automaton := analysis.grammar.automaton
  ["--- Automaton Building SUCCEEDED ---",
    "States created: " ++ toString automaton.states.length,
    "Transitions: " ++ toString automaton.transitions.length] ++
  if analysis.conflicts.isEmpty then []
  else ["Conflicts detected: " ++ toString analysis.conflicts.length]

/-- The automaton of a grammar, its conflicts and all views of them, behind what was logged. -/
def automatonFound (log : List String) (found : Construction) : Response :=
  let analysis := found.analysis
  let overview := found.overview
  { status := 200
    body := .object
      [("success", .bool true), ("startSymbol", .string analysis.start),
        ("productions", Payload.strings (analysis.grammar.rules.map Rule.text)),
        ("nodes", Payload.ofNodes overview.canvas),
        ("edges", Payload.ofEdges overview.canvas),
        ("conflicts", .array (analysis.conflicts.map Payload.ofConflict)),
        ("conflictStates", Payload.ofHighlights overview.highlights),
        ("conflictReport", .string overview.report),
        ("conflictReportHtml", .string overview.page),
        ("automatonDot", .string overview.graph),
        ("automatonInfo", Payload.automatonInfo analysis)]
    log := log ++ automatonSummary analysis }

def automaton (endMarker : Symbol) (question : Question) : Except Breakdown Response :=
  let log := [automatonLog, "Start symbol: " ++ question.shownStart]
  match construct endMarker question with
  | .error reason => setback log reason
  | .ok found => .ok (automatonFound log found)

/-- The first sets and the follow sets of a grammar. -/
def setsFound (analysis : Analysis) : Response :=
  { status := 200
    body := .object
      [("success", .bool true), ("startSymbol", .string analysis.start),
        ("firstSets", Payload.ofSets analysis.grammar.first),
        ("followSets", Payload.ofSets analysis.grammar.follow)]
    log := [setsLog] }

def sets (endMarker : Symbol) (question : Question) : Except Breakdown Response :=
  match construct endMarker question with
  | .error reason => setback [setsLog] reason
  | .ok found => .ok (setsFound found.analysis)

/-- What an endpoint has to say to a question. -/
def told (endMarker : Symbol) (question : Question) : Endpoint → Except Breakdown Response
  | .productions => .ok (productions endMarker question)
  | .automaton => automaton endMarker question
  | .sets => sets endMarker question

/-- What becomes of a response.  Nothing comes after the report of a breakdown: if it cannot be
written either, there is no response. -/
def deliver (write : Writer) : Except Breakdown Response → Except String Response
  | .error breakdown => write.send breakdown.report
  | .ok response =>
      match write response.body with
      | .ok _ => .ok response
      | .error fault => write.send (Breakdown.report ⟨response.log, fault⟩)

/-- The response of an endpoint.  A request without a question is told so outside of what may break
down. -/
def answer (write : Writer) (endMarker : Symbol) (endpoint : Endpoint) (request : Request) :
    Except String Response :=
  match request.question? with
  | none => write.send noGrammar
  | some question => deliver write (told endMarker question endpoint)

end Service

end GrammarWorkbench
