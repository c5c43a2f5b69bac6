import GrammarWorkbench.Automaton.Construction
import GrammarWorkbench.Conflict.Detection
import GrammarWorkbench.Rule.Source
import GrammarWorkbench.Sets.Follow

/-!
# Analysed grammars

A grammar is a ruleset together with its first sets, its follow sets and its
automaton.  The left side of its first rule is the start symbol.
-/

namespace GrammarWorkbench

/-- Why a text has no analysed grammar. -/
inductive Failure where
  | rule (error : RuleError)
  | lookup (error : LookupError)
  deriving DecidableEq, Repr

structure Grammar where
  ruleset : Ruleset
  start : Symbol
  first : SetTable
  follow : SetTable
  automaton : Automaton

namespace Grammar

/-- Analyse rules, of which there is at least one. -/
def ofRules (rules : List Rule) (endMarker epsilon : Symbol) : Except LookupError Grammar := do
  let ruleset := Ruleset.ofRules rules
  let start := (← itemAt rules 0).lhs
  let first ← ruleset.firstSets epsilon
  let follow ← ruleset.followSets first epsilon start endMarker
  return ⟨ruleset, start, first, follow, ← ruleset.automaton⟩

/-- Read lines as rules, the accept rule first, and analyse them. -/
def ofLines (lines : List String) (endMarker epsilon : Symbol) : Except Failure Grammar := do
  let rules ← (Rule.readAll lines epsilon).mapError .rule
  (ofRules rules endMarker epsilon).mapError .lookup

/-- Put the accept rule in front of the rules of a text and analyse them all. -/
def ofText (text : String) (start? : Option Symbol) (endMarker epsilon : Symbol) :
    Except Failure Grammar := do
  let lines ← (Rule.augment (Rule.sourceLines text) start? endMarker).mapError .rule
  ofLines lines endMarker epsilon

def rules (grammar : Grammar) : List Rule :=
  grammar.ruleset.rules

def states (grammar : Grammar) : List State :=
  grammar.automaton.states

/-- The rule at a position, as a line. -/
def ruleText (grammar : Grammar) (position : Int) : Except LookupError String :=
  (itemAt grammar.rules position).map Rule.text

def detector (grammar : Grammar) : Detector :=
  ⟨grammar.rules, grammar.automaton, grammar.follow⟩

def conflicts (grammar : Grammar) : Except LookupError (List Conflict) :=
  grammar.detector.conflicts

def text (grammar : Grammar) : String :=
  "\n".intercalate
    (["Start Symbol: " ++ grammar.start,
      "Terminals: " ++ Text.quotedList grammar.ruleset.terminals.elems,
      "Non-terminals: " ++ Text.quotedList grammar.ruleset.nonterminals.elems, "Rules:"] ++
      grammar.rules.map fun rule => "  " ++ toString rule.index ++ ": " ++ rule.text)

end Grammar

end GrammarWorkbench
