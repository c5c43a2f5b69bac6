import GrammarWorkbench.Sets.First

/-!
# Follow sets

The follow set of a nonterminal holds the terminals that may stand right behind it,
and the end marker if it may end the input.  It is the least table that every
occurrence of a nonterminal on a right side leaves as it is.
-/

namespace GrammarWorkbench.Ruleset

/-- Add what one occurrence of a nonterminal before some symbols says about it. -/
def followStep (first : SetTable) (epsilon lhs symbol : Symbol) (rest : List Symbol)
    (table : SetTable) : Except LookupError SetTable := do
  let _ ← table.get symbol
  let begins ← firstOf first epsilon rest
  let table := table.add symbol (begins.erase epsilon)
  if epsilon ∈ begins then
    return table.add symbol (← table.get lhs)
  else
    return table

/-- Go through the occurrences of nonterminals from left to right. -/
def followRule (nonterminals : SymbolSet) (first : SetTable) (epsilon lhs : Symbol) :
    List Symbol → SetTable → Except LookupError SetTable
  | [], table => .ok table
  | symbol :: rest, table => do
      let next ←
        if symbol ∈ nonterminals then followStep first epsilon lhs symbol rest table
        else pure table
      followRule nonterminals first epsilon lhs rest next

/-- One pass over the rules, each of which sees what those before it added. -/
def followPass (ruleset : Ruleset) (first : SetTable) (epsilon : Symbol) (table : SetTable) :
    Except LookupError SetTable :=
  ruleset.rules.foldlM
    (fun table rule => followRule ruleset.nonterminals first epsilon rule.lhs rule.rhs table)
    table

/-- Only the start symbol is known to end the input. -/
def followStart (ruleset : Ruleset) (start endMarker : Symbol) : SetTable :=
  .ofSymbols ruleset.nonterminals fun symbol =>
    if symbol = start then .single endMarker else ∅

def saturateFollow (ruleset : Ruleset) (first : SetTable) (epsilon start endMarker : Symbol) :
    Except LookupError (Saturated SetTable) :=
  if start ∈ ruleset.nonterminals then
    saturate (ruleset.followPass first epsilon) SetTable.size
      (ruleset.nonterminals.size * (first.members.size + 1) + 1)
      (ruleset.followStart start endMarker)
  else
    .error (.unknownSymbol start)

/-- The follow sets of all nonterminals. -/
def followSets (ruleset : Ruleset) (first : SetTable) (epsilon start endMarker : Symbol) :
    Except LookupError SetTable :=
  (ruleset.saturateFollow first epsilon start endMarker).map Saturated.value

end GrammarWorkbench.Ruleset
