import GrammarWorkbench.Automaton.State
import GrammarWorkbench.Breadth
import GrammarWorkbench.Rule.Ruleset

/-!
# Closure and goto

A nonterminal after a dot predicts the first items of its rules.  The closure of
some items adds all that is predicted, and goto moves the dot behind one symbol
before it takes the closure.
-/

namespace GrammarWorkbench.Ruleset

/-- The first items of the rules with a given left side. -/
def predicted (ruleset : Ruleset) (symbol : Symbol) : List Item :=
  (ruleset.rulesOf symbol).map Item.predict

/-- The nonterminals after the dots of some items, each once. -/
def awaited (ruleset : Ruleset) (items : List Item) : List Symbol :=
  ((items.filterMap Item.next?).filter (· ∈ ruleset.nonterminals)).eraseDups

/-- The items that some items predict. -/
def predictions (ruleset : Ruleset) (items : List Item) : List Item :=
  (ruleset.awaited items).flatMap ruleset.predicted

/-- The given items, each once, and those that they predict in the order in which they are. -/
def closureItems (ruleset : Ruleset) (items : List Item) : List Item :=
  Breadth.reached Item.key ruleset.predictions (ruleset.rules.length + 1) items

def closureState (ruleset : Ruleset) (items : List Item) : State :=
  .ofItems (ruleset.closureItems items)

/-- The closure of items whose dots have a place, where the first item for a key counts. -/
def closure (ruleset : Ruleset) (items : List Item) : Except LookupError State :=
  if (State.ofItems (Breadth.fresh Item.key [] items)).Readable then
    .ok (ruleset.closureState items)
  else
    .error .outOfRange

/-- The items of a state with their dots moved behind a symbol. -/
def moved (state : State) (symbol : Symbol) : List Item :=
  (state.items.filter fun item => item.next? = some symbol).map Item.advance

def gotoState (ruleset : Ruleset) (state : State) (symbol : Symbol) : State :=
  ruleset.closureState (moved state symbol)

/-- The state behind a symbol, if the dots of the state have a place. -/
def goto (ruleset : Ruleset) (state : State) (symbol : Symbol) : Except LookupError State :=
  if state.Readable then .ok (ruleset.gotoState state symbol) else .error .outOfRange

theorem mem_awaited {ruleset : Ruleset} {items : List Item} {symbol : Symbol} :
    symbol ∈ ruleset.awaited items ↔
      symbol ∈ ruleset.nonterminals ∧ ∃ item ∈ items, item.next? = some symbol := by
  simp [awaited, and_comm]

theorem mem_predicted {ruleset : Ruleset} {symbol : Symbol} {item : Item} :
    item ∈ ruleset.predicted symbol ↔
      ∃ rule ∈ ruleset.rules, rule.lhs = symbol ∧ Item.predict rule = item := by
  simp [predicted, rulesOf, and_assoc]

theorem mem_predictions {ruleset : Ruleset} {items : List Item} {item : Item} :
    item ∈ ruleset.predictions items ↔
      ∃ symbol ∈ ruleset.awaited items, item ∈ ruleset.predicted symbol := by
  simp [predictions]

theorem mem_moved {state : State} {symbol : Symbol} {item : Item} :
    item ∈ moved state symbol ↔
      ∃ before ∈ state.items, before.next? = some symbol ∧ before.advance = item := by
  simp [moved, and_assoc]

end GrammarWorkbench.Ruleset
