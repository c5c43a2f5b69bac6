import GrammarWorkbench.Rule.Basic
import GrammarWorkbench.Sets.SymbolSet

/-!
# Rulesets

A ruleset is a list of rules with its symbols sorted into two classes.  The symbols
on left sides are the nonterminals; the other symbols on right sides are the terminals.
-/

namespace GrammarWorkbench

structure Ruleset where
  rules : List Rule
  terminals : SymbolSet
  nonterminals : SymbolSet

namespace Ruleset

def leftSides (rules : List Rule) : SymbolSet :=
  .ofList (rules.map Rule.lhs)

def rightOnly (rules : List Rule) : SymbolSet :=
  (SymbolSet.ofList (rules.flatMap Rule.rhs)).filter (· ∉ leftSides rules)

/-- The rules with their own classes of symbols. -/
def ofRules (rules : List Rule) : Ruleset :=
  ⟨rules, rightOnly rules, leftSides rules⟩

theorem mem_leftSides {rules : List Rule} {symbol : Symbol} :
    symbol ∈ leftSides rules ↔ ∃ rule ∈ rules, rule.lhs = symbol := by
  simp [leftSides]

theorem mem_rightOnly {rules : List Rule} {symbol : Symbol} :
    symbol ∈ rightOnly rules ↔
      (∃ rule ∈ rules, symbol ∈ rule.rhs) ∧ symbol ∉ leftSides rules := by
  simp [rightOnly]

/-- All symbols of the two classes. -/
def symbols (ruleset : Ruleset) : SymbolSet :=
  ruleset.terminals ∪ ruleset.nonterminals

/-- The rules with a given left side, in order. -/
def rulesOf (ruleset : Ruleset) (symbol : Symbol) : List Rule :=
  ruleset.rules.filter (·.lhs = symbol)

end Ruleset

end GrammarWorkbench
