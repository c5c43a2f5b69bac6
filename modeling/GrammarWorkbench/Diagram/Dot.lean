import GrammarWorkbench.Automaton.Basic
import GrammarWorkbench.Conflict.Highlight

/-!
# Automata as directed graphs in text

Every state and every transition takes one line.  A label stands between quotation
marks, where a backslash tells that the character behind it is meant otherwise.
-/

namespace GrammarWorkbench.Dot

/-- One character of a label. -/
def labelChar : Char → List Char
  | '\\' => ['\\', '\\']
  | '"' => ['\\', '"']
  | '\n' => ['\\', 'n']
  | '\t' => ['\\', 't']
  | '\r' => ['\\', 'r']
  | char => [char]

def labelChars (text : List Char) : List Char :=
  text.flatMap labelChar

/-- A text as it stands in a label. -/
def label (text : String) : String :=
  String.ofList (labelChars text.toList)

/-- A label shows the number of a state alone, or its items up to a limit other than zero. -/
structure LabelStyle where
  compact : Bool := false
  limit : Int := 0
  deriving DecidableEq, Repr

/-- The lines for items, cut at the limit. -/
def itemLines (limit : Int) (items : List Item) : List String :=
  if limit ≠ 0 ∧ limit.toNat < items.length then
    (items.take limit.toNat).map Item.text ++ ["..."]
  else
    items.map Item.text

/-- What the label of a state says. -/
def stateLabel (style : LabelStyle) (position : Nat) (state : State) : String :=
  if style.compact then toString position
  else
    "State " ++ toString position ++ "\n" ++
      "\n".intercalate (itemLines style.limit state.items)

/-- The marks of the start, of the state that accepts and of conflicts. -/
def stateMarks (automaton : Automaton) (conflicted : List Int) (position : Nat) : List String :=
  (if (position : Int) = automaton.startState then ["style=bold"] else []) ++
    (if some (position : Int) = automaton.acceptState then ["peripheries=2"] else []) ++
    (if (position : Int) ∈ conflicted then ["color=red"] else [])

def stateLine (style : LabelStyle) (automaton : Automaton) (conflicted : List Int)
    (entry : State × Nat) : String :=
  "  state" ++ toString entry.2 ++ " [" ++ ", ".intercalate
    (("label=\"" ++ label (stateLabel style entry.2 entry.1) ++ "\"") ::
      stateMarks automaton conflicted entry.2) ++ "];"

/-- A line of dashes stands for a goto. -/
def edgeStyle : TransitionKind → String
  | .shift => ""
  | .goto => ", style=dashed"

def transitionLine (transition : Transition) : String :=
  "  state" ++ toString transition.source ++ " -> state" ++ toString transition.target ++
    " [label=\"" ++ label transition.symbol ++ "\"" ++ edgeStyle transition.kind ++ "];"

def headerLines (title : String) : List String :=
  ["digraph \"" ++ label title ++ "\" \x7b", "  rankdir=LR;",
    "  node [shape=box, fontname=\"Arial\", fontsize=8];",
    "  edge [fontname=\"Arial\", fontsize=8];"]

/-- The title of a graph unless another one is chosen. -/
def defaultTitle : String := "LR(0) Automaton"

def lines (style : LabelStyle) (title : String) (automaton : Automaton)
    (conflicts : List Conflict) : List String :=
  headerLines title ++
    automaton.states.zipIdx.map
      (stateLine style automaton ((highlights conflicts).map (·.1))) ++
    automaton.transitions.map transitionLine ++ ["\x7d"]

/-- The graph of an automaton. -/
def draw (style : LabelStyle) (title : String) (automaton : Automaton)
    (conflicts : List Conflict) : String :=
  "\n".intercalate (lines style title automaton conflicts)

theorem length_lines (style : LabelStyle) (title : String) (automaton : Automaton)
    (conflicts : List Conflict) :
    (lines style title automaton conflicts).length =
      automaton.states.length + automaton.transitions.length + 5 := by
  simp [lines, headerLines]
  omega

end GrammarWorkbench.Dot
