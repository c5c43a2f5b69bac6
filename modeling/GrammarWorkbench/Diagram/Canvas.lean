import GrammarWorkbench.Conflict.Highlight
import GrammarWorkbench.Diagram.Layers

/-!
# Automata on a canvas

The layers go from top to bottom and the states of a layer from left to right, both
centred on the canvas.  A node shows the items of its state and is highlighted if the
state is in conflict.
-/

namespace GrammarWorkbench

/-- The measures of a canvas and the words for its parts. -/
structure Layout where
  spacingX : Float := 400
  spacingY : Float := 400
  width : Float := 10000
  height : Float := 10000
  nodeType : String := "custom"
  edgeType : String := "custom"
  emptyLabel : String := "New State"

structure Node where
  name : String
  type : String
  x : Float
  y : Float
  label : String
  highlight : Option Highlight

structure Edge where
  name : String
  source : String
  target : String
  type : String
  label : String

structure Canvas where
  nodes : List Node
  edges : List Edge

namespace Canvas

/-- The name of the node for a state. -/
def nodeName (state : Int) : String :=
  "state-" ++ toString state

/-- The place of the first of some things that are spread evenly around a centre. -/
def firstPlace (size spacing : Float) (count : Nat) : Float :=
  size / 2 - Float.ofNat (count - 1) * spacing / 2

/-- The place of one of them, counted from zero. -/
def place (first spacing : Float) (position : Nat) : Float :=
  first + Float.ofNat position * spacing

/-- The label for a state without items is the one of the layout. -/
def label (layout : Layout) (state : State) : String :=
  if state.text.isEmpty then layout.emptyLabel else state.text

/-- The node for the state at a position in a layer. -/
def node (layout : Layout) (automaton : Automaton) (highlights : List (Int × Highlight))
    (x y : Float) (state : Int) : Except LookupError Node := do
  let found ← itemAt automaton.states state
  return ⟨nodeName state, layout.nodeType, x, y, label layout found, highlights.lookup state⟩

/-- The nodes of one layer, from left to right. -/
def layerNodes (layout : Layout) (automaton : Automaton) (highlights : List (Int × Highlight))
    (y : Float) (layer : List Int) : Except LookupError (List Node) :=
  let first := firstPlace layout.width layout.spacingX layer.length
  layer.zipIdx.mapM fun (state, position) =>
    node layout automaton highlights (place first layout.spacingX position) y state

def edge (layout : Layout) (entry : Transition × Nat) : Edge :=
  ⟨"edge-" ++ toString entry.2, nodeName entry.1.source, nodeName entry.1.target,
    layout.edgeType, entry.1.symbol⟩

/-- The nodes in the order of the layers, and the edges in the order of the transitions. -/
def draw (layout : Layout) (automaton : Automaton) (conflicts : List Conflict) :
    Except LookupError Canvas := do
  let layers := automaton.layers
  let first := firstPlace layout.height layout.spacingY layers.length
  let rows ← layers.zipIdx.mapM fun (layer, position) =>
    layerNodes layout automaton (highlights conflicts) (place first layout.spacingY position) layer
  return ⟨rows.flatten, automaton.transitions.zipIdx.map (edge layout)⟩

end Canvas

end GrammarWorkbench
