import GrammarWorkbench.Automaton.State

/-!
# Automata

An automaton has states, and transitions between their positions.  It may name the
state that accepts, and it names the one where it starts.
-/

namespace GrammarWorkbench

/-- A shift reads a terminal, and a goto follows a nonterminal that was reduced. -/
inductive TransitionKind where
  | shift
  | goto
  deriving DecidableEq, Repr

def TransitionKind.name : TransitionKind → String
  | .shift => "shift"
  | .goto => "goto"

def TransitionKind.title : TransitionKind → String
  | .shift => "SHIFT"
  | .goto => "GOTO"

structure Transition where
  source : Int
  target : Int
  symbol : Symbol
  kind : TransitionKind
  deriving DecidableEq, Repr

def Transition.text (transition : Transition) : String :=
  transition.kind.title ++ "(" ++ toString transition.source ++ ", " ++ transition.symbol ++
    ") = " ++ toString transition.target

structure Automaton where
  states : List State
  transitions : List Transition
  acceptState : Option Int := none
  startState : Int := 0

namespace Automaton

/-- Automata are the same when their states, one by one, and all else are. -/
def Same (left right : Automaton) : Prop :=
  left.states.map State.key = right.states.map State.key ∧
    left.transitions = right.transitions ∧ left.acceptState = right.acceptState ∧
    left.startState = right.startState

instance (left right : Automaton) : Decidable (Same left right) :=
  inferInstanceAs (Decidable (_ ∧ _ ∧ _ ∧ _))

/-- The transitions that leave a position. -/
def transitionsFrom (automaton : Automaton) (source : Int) : List Transition :=
  automaton.transitions.filter (·.source = source)

/-- The lines about one state. -/
def stateLines (entry : State × Nat) : List String :=
  ("State " ++ toString entry.2 ++ ":") :: entry.1.items.map fun item => "  " ++ item.text

def acceptText : Option Int → String
  | some state => toString state
  | none => "None"

def text (automaton : Automaton) : String :=
  "\n".intercalate
    (["LR(0) Automaton with " ++ toString automaton.states.length ++ " states",
      "Accept state: " ++ acceptText automaton.acceptState, "\nStates:"] ++
      automaton.states.zipIdx.flatMap stateLines ++ ["\nTransitions:"] ++
      automaton.transitions.map fun transition => "  " ++ transition.text)

end Automaton

end GrammarWorkbench
