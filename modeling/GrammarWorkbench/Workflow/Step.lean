import GrammarWorkbench.Workflow.Basic

/-!
# Steps of a workflow

Reading the rules of the source and choosing a start symbol may be refused.  A
refused reading leaves only the new lines behind, and a refused choice nothing.
-/

namespace GrammarWorkbench.Workflow

/-- Read the source. -/
def parse (workflow : Workflow) : Except RuleError Productions × Workflow :=
  let read := { workflow with lines := Rule.sourceLines workflow.source }
  match Rule.readAll read.lines defaultEpsilon with
  | .error error => (.error error, read)
  | .ok rules =>
      let parsed :=
        { read with
          rules
          choices := (rules.map Rule.lhs).eraseDups
          stage := .parsed workflow.analysis? }
      (.ok parsed.productions, parsed)

/-- The start symbol for a choice, which must be among the choices, the first one by default. -/
def chosen (workflow : Workflow) (choice : StartChoice) : Except Refusal Symbol :=
  match workflow.stage, choice, workflow.choices with
  | .initial, _, _ => .error .unparsed
  | _, .first, [] => .error (.lookup .emptyList)
  | _, .first, first :: _ => .ok first
  | _, .symbol name, choices =>
      if name ∈ choices then .ok name else .error (.unknownStart name choices)
  | _, .other shown, choices => .error (.unknownStart shown choices)

/-- The grammar of lines behind the accept rule for a start symbol. -/
def grammarOf (lines : List String) (start endMarker : Symbol) : Except Failure Grammar := do
  let lines ← (Rule.augment lines (some start) endMarker).mapError .rule
  Grammar.ofLines lines endMarker defaultEpsilon

/-- The analysis for a choice. -/
def analyse (workflow : Workflow) (choice : StartChoice) : Except Refusal Analysis := do
  let start ← workflow.chosen choice
  let grammar ← (grammarOf workflow.lines start workflow.endMarker).mapError .ofFailure
  return ⟨grammar, start, ← grammar.conflicts.mapError .lookup⟩

/-- An analysis with all views of it. -/
def view (analysis : Analysis) : Except Refusal Construction := do
  return ⟨analysis, ← (analysis.grammar.overview {} (some analysis.conflicts)).mapError .lookup⟩

/-- Choose the start symbol. -/
def choose (workflow : Workflow) (choice : StartChoice) : Except Refusal Construction × Workflow :=
  match workflow.analyse choice with
  | .error refusal => (.error refusal, workflow)
  | .ok analysis =>
      (view analysis, { workflow with stage := .built analysis })

/-- What may be done with a workflow. -/
inductive Action where
  | parse
  | choose (choice : StartChoice)
  | setSource (source : String)
  | setEndMarker (endMarker : Symbol)
  deriving DecidableEq, Repr

/-- The workflow after an action. -/
def after (workflow : Workflow) : Action → Workflow
  | .parse => workflow.parse.2
  | .choose choice => (workflow.choose choice).2
  | .setSource source => { workflow with source }
  | .setEndMarker endMarker => { workflow with endMarker }

/-- The workflow after some actions. -/
def run (workflow : Workflow) (actions : List Action) : Workflow :=
  actions.foldl after workflow

@[simp] theorem run_nil (workflow : Workflow) : workflow.run [] = workflow :=
  rfl

@[simp] theorem run_cons (workflow : Workflow) (action : Action) (rest : List Action) :
    workflow.run (action :: rest) = (workflow.after action).run rest :=
  rfl

theorem run_append (workflow : Workflow) (earlier later : List Action) :
    workflow.run (earlier ++ later) = (workflow.run earlier).run later :=
  List.foldl_append

end GrammarWorkbench.Workflow
