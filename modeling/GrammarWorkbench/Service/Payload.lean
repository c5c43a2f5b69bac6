import GrammarWorkbench.Json.Basic
import GrammarWorkbench.Workflow.Basic

/-!
# Parts of an answer

The parts of an answer are Json values: conflicts and highlights, the nodes and
edges of a canvas, tables of sets and facts about rules and automata.
-/

namespace GrammarWorkbench.Payload

def strings (values : List String) : Json :=
  .array (values.map Json.string)

def count (value : Nat) : Json :=
  .integer value

def ofHighlight (highlight : Highlight) : List (String × Json) :=
  [("conflictType", .string highlight.kind.name), ("conflictToken", .string highlight.symbol)]

def ofConflict (conflict : Conflict) : Json :=
  .object
    [("state", .integer conflict.state), ("type", .string conflict.kind.name),
      ("symbol", .string conflict.symbol),
      ("rules", .array (conflict.rules.map Json.integer)),
      ("intersection", strings conflict.intersection)]

/-- The highlights under the numbers of their states. -/
def ofHighlights (highlights : List (Int × Highlight)) : Json :=
  .object (highlights.map fun entry => (toString entry.1, .object (ofHighlight entry.2)))

def ofNode (node : Node) : Json :=
  .object
    [("id", .string node.name), ("type", .string node.type),
      ("position", .object [("x", .number node.x), ("y", .number node.y)]),
      ("data", .object (("label", .string node.label) ::
        (node.highlight.map ofHighlight).getD []))]

def ofEdge (edge : Edge) : Json :=
  .object
    [("id", .string edge.name), ("source", .string edge.source),
      ("target", .string edge.target), ("type", .string edge.type),
      ("data", .object [("label", .string edge.label)])]

def ofNodes (canvas : Canvas) : Json :=
  .array (canvas.nodes.map ofNode)

def ofEdges (canvas : Canvas) : Json :=
  .array (canvas.edges.map ofEdge)

def ofSets (table : SetTable) : Json :=
  .object (table.entries.map fun entry => (entry.1, strings entry.2.elems))

/-- The classes of the symbols and the number of rules. -/
def grammarInfo (productions : Productions) : Json :=
  .object
    [("terminals", strings productions.terminals.elems),
      ("non_terminals", strings productions.nonterminals.elems),
      ("production_count", count productions.rules.length)]

/-- The sizes of an automaton and the state that accepts. -/
def automatonInfo (analysis : Analysis) : Json :=
  let automaton := analysis.grammar.automaton
  .object
    [("states_count", count automaton.states.length),
      ("transitions_count", count automaton.transitions.length),
      ("accept_state", (automaton.acceptState.map Json.integer).getD .null),
      ("conflicts_count", count analysis.conflicts.length)]

end GrammarWorkbench.Payload
