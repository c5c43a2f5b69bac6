import GrammarWorkbench.Rule.Ruleset
import GrammarWorkbench.Sets.Saturation
import GrammarWorkbench.Sets.Table

/-!
# First sets

The first set of a symbol holds the terminals that may begin what it derives, and
the word for the empty right side if it may derive nothing.  It is the least table
that every rule leaves as it is.
-/

namespace GrammarWorkbench.Ruleset

/-- The first set of a list of symbols, given those of single symbols. -/
def firstOf (table : SetTable) (epsilon : Symbol) :
    List Symbol → Except LookupError SymbolSet
  | [] => .ok (.single epsilon)
  | symbol :: rest => do
      let set ← table.get symbol
      if epsilon ∈ set then
        return set.erase epsilon ∪ (← firstOf table epsilon rest)
      else
        return set

/-- Add what one rule says about its left side. -/
def firstStep (epsilon : Symbol) (table : SetTable) (rule : Rule) :
    Except LookupError SetTable := do
  let _ ← table.get rule.lhs
  return table.add rule.lhs (← firstOf table epsilon rule.rhs)

/-- A terminal begins with itself, and nothing is known of the other symbols yet. -/
def firstStart (ruleset : Ruleset) : SetTable :=
  .ofSymbols ruleset.symbols fun symbol =>
    if symbol ∈ ruleset.terminals then .single symbol else ∅

/-- One pass over the rules, each of which sees what those before it added. -/
def firstPass (ruleset : Ruleset) (epsilon : Symbol) (table : SetTable) :
    Except LookupError SetTable :=
  ruleset.rules.foldlM (firstStep epsilon) table

def saturateFirst (ruleset : Ruleset) (epsilon : Symbol) :
    Except LookupError (Saturated SetTable) :=
  saturate (ruleset.firstPass epsilon) SetTable.size
    (ruleset.symbols.size * (ruleset.terminals.size + 1) + 1) ruleset.firstStart

/-- The first sets of all symbols. -/
def firstSets (ruleset : Ruleset) (epsilon : Symbol) : Except LookupError SetTable :=
  (ruleset.saturateFirst epsilon).map Saturated.value

end GrammarWorkbench.Ruleset
