import GrammarWorkbench.Diagram.Overview

/-!
# Workflows

A workflow takes a text to its rules, lets one of their left sides be chosen as the
start symbol and analyses the grammar behind that choice.  What has been found stays
in view until something newer takes its place.
-/

namespace GrammarWorkbench

/-- A grammar for a chosen start symbol, with its conflicts. -/
structure Analysis where
  grammar : Grammar
  start : Symbol
  conflicts : List Conflict

/-- How far a workflow is; after new rules have been read an older analysis is still in view. -/
inductive Stage where
  | initial
  | parsed (previous : Option Analysis)
  | built (analysis : Analysis)

/-- The choices are the symbols that may be chosen as the start symbol. -/
structure Workflow where
  source : String
  endMarker : Symbol := defaultEndMarker
  lines : List String := []
  rules : List Rule := []
  choices : List Symbol := []
  stage : Stage := .initial

/-- What is said of the rules of a text. -/
structure Productions where
  rules : List Rule
  choices : List Symbol
  terminals : SymbolSet
  nonterminals : SymbolSet

/-- What is said of an analysed grammar. -/
structure Construction where
  analysis : Analysis
  overview : Overview

/-- The start symbol that is asked for: the first choice, a symbol, or no text at all. -/
inductive StartChoice where
  | first
  | symbol (name : Symbol)
  | other (shown : String)
  deriving DecidableEq, Repr

/-- Why a step of a workflow is refused. -/
inductive Refusal where
  | rule (error : RuleError)
  | unparsed
  | unknownStart (shown : String) (choices : List Symbol)
  | lookup (error : LookupError)
  deriving DecidableEq, Repr

def Stage.name : Stage → String
  | .initial => "initial"
  | .parsed _ => "productions_parsed"
  | .built _ => "automaton_built"

/-- The analysis in view. -/
def Stage.analysis? : Stage → Option Analysis
  | .initial => none
  | .parsed previous => previous
  | .built analysis => some analysis

namespace Refusal

def ofFailure : Failure → Refusal
  | .rule error => .rule error
  | .lookup error => .lookup error

def message : Refusal → String
  | .rule error => error.message
  | .unparsed => "Must parse productions first before setting start symbol"
  | .unknownStart shown choices =>
      "Invalid start symbol '" ++ shown ++ "'. Must be one of: " ++ Text.quotedList choices
  | .lookup error => error.message

/-- The name for the kind of refusal. -/
def kind : Refusal → String
  | .rule (.malformed _ _) => "malformed_rule"
  | .rule (.empty _) => "empty_grammar"
  | .unparsed => "workflow_error"
  | .unknownStart _ _ => "workflow_error"
  | .lookup _ => "system_error"

/-- The line to blame. -/
def line? : Refusal → Option String
  | .rule (.malformed line _) => some line
  | _ => none

end Refusal

namespace Workflow

def analysis? (workflow : Workflow) : Option Analysis :=
  workflow.stage.analysis?

/-- What is said of the rules that were read. -/
def productions (workflow : Workflow) : Productions :=
  ⟨workflow.rules, workflow.choices, Ruleset.rightOnly workflow.rules,
    Ruleset.leftSides workflow.rules⟩

end Workflow

end GrammarWorkbench
