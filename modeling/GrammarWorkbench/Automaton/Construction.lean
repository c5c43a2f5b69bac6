import GrammarWorkbench.Automaton.Basic
import GrammarWorkbench.Automaton.Closure

/-!
# The canonical collection

The states of a ruleset are those that goto reaches from the closure of the first
item, in the order in which they are reached.  Each state has one transition for
each of its next symbols.
-/

namespace GrammarWorkbench.Ruleset

/-- The number of places for a dot in all rules. -/
def dotPlaces (ruleset : Ruleset) : Nat :=
  ruleset.rules.foldr (fun rule total => rule.rhs.length + 1 + total) 0

/-- The states right behind a state, in the order of its next symbols. -/
def successors (ruleset : Ruleset) (state : State) : List State :=
  state.nextSymbols.map (ruleset.gotoState state)

/-- The states right behind some states, in their order. -/
def statesBehind (ruleset : Ruleset) (states : List State) : List State :=
  states.flatMap ruleset.successors

/-- The closure of the first item of a rule. -/
def startState (ruleset : Ruleset) (first : Rule) : State :=
  ruleset.closureState [⟨first, 0, false⟩]

/-- The states that are reached; a state is a set of places for dots, so there are finitely many. -/
def statesFrom (ruleset : Ruleset) (first : Rule) : List State :=
  Breadth.reached State.key ruleset.statesBehind (Nat.pow 2 ruleset.dotPlaces)
    [ruleset.startState first]

/-- The position of the state with a key. -/
def position (states : List State) (key : List (Int × Int)) : Nat :=
  states.findIdx fun state => state.key = key

def kindOf (ruleset : Ruleset) (symbol : Symbol) : TransitionKind :=
  if symbol ∈ ruleset.terminals then .shift else .goto

/-- The transitions that leave one state, in the order of its next symbols. -/
def transitionsOf (ruleset : Ruleset) (states : List State) (entry : State × Nat) :
    List Transition :=
  entry.1.nextSymbols.map fun symbol =>
    ⟨entry.2, position states (ruleset.gotoState entry.1 symbol).key, symbol,
      ruleset.kindOf symbol⟩

/-- The state holds a rule whose symbols have all been read. -/
def accepts (rule : Rule) (state : State) : Bool :=
  state.items.any fun item => item.rule.Same rule && item.isComplete

/-- The automaton of a ruleset whose first rule is the given one. -/
def automatonFrom (ruleset : Ruleset) (first : Rule) : Automaton :=
  let states := ruleset.statesFrom first
  { states
    transitions := states.zipIdx.flatMap (ruleset.transitionsOf states)
    acceptState := (states.findIdx? (accepts first)).map Int.ofNat }

/-- The automaton of a ruleset, which needs a first rule. -/
def automaton (ruleset : Ruleset) : Except LookupError Automaton :=
  match ruleset.rules with
  | [] => .error .outOfRange
  | first :: _ => .ok (ruleset.automatonFrom first)

end GrammarWorkbench.Ruleset
