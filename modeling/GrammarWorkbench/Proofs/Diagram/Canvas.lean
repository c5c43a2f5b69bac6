import GrammarWorkbench.Proofs.Diagram.Discovery
import Mathlib.Data.List.Forall2

/-!
# The canvas of a grammar

The nodes of a canvas stand for what the layers list, one by one.  The layers of a grammar list
its states in their order, and its transitions lead from state to state, so the canvas shows each
state once, in order, and no edge on it has a loose end.
-/

namespace GrammarWorkbench

/-- The results of lookups that succeed together belong to what was looked up, one by one. -/
theorem forall₂_of_mapM_ok {α β ε : Type} {items : List α} {lookup : α → Except ε β}
    {values : List β} (done : items.mapM lookup = .ok values) :
    List.Forall₂ (fun item value => lookup item = .ok value) items values := by
  induction items generalizing values with
  | nil =>
      obtain rfl := Except.ok.inj done
      exact .nil
  | cons item items ih =>
      rw [List.mapM_cons] at done
      cases here : lookup item with
      | error failure =>
          rw [here] at done
          cases done
      | ok value =>
          rw [here] at done
          cases later : items.mapM lookup with
          | error failure =>
              rw [later] at done
              cases done
          | ok rest =>
              rw [later] at done
              obtain rfl := Except.ok.inj done
              exact .cons here (ih later)

theorem map_eq_map_of_forall₂ {α β γ : Type} {items : List α} {values : List β}
    {told : α → γ} {shown : β → γ}
    (alike : List.Forall₂ (fun item value => shown value = told item) items values) :
    values.map shown = items.map told := by
  induction alike with
  | nil => rfl
  | cons same _ ih => rw [List.map_cons, List.map_cons, same, ih]

/-! ## What the nodes show -/

/-- The node stands for the state at a position. -/
structure Node.Shows (layout : Layout) (automaton : Automaton) (conflicts : List Conflict)
    (position : Int) (node : Node) : Prop where
  name : node.name = Canvas.nodeName position
  label : ∃ state, itemAt automaton.states position = .ok state ∧
    node.label = Canvas.label layout state
  highlight : node.highlight = (highlights conflicts).lookup position

namespace Canvas

variable {layout : Layout} {automaton : Automaton} {conflicts : List Conflict}

theorem shows_of_node {x y : Float} {position : Int} {shown : Node}
    (done : node layout automaton (highlights conflicts) x y position = .ok shown) :
    shown.Shows layout automaton conflicts position := by
  unfold node at done
  cases found : itemAt automaton.states position with
  | error failure =>
      rw [found] at done
      cases done
  | ok state =>
      rw [found] at done
      obtain rfl := Except.ok.inj done
      exact ⟨rfl, ⟨state, found, rfl⟩, rfl⟩

/-- Nodes that are made along an enumeration belong to what is enumerated. -/
theorem forall₂_of_zipIdx {α β : Type} {items : List α} {values : List β} {shows : α → β → Prop}
    (numbered : List.Forall₂ (fun entry value => shows entry.1 value) items.zipIdx values) :
    List.Forall₂ shows items values := by
  rw [← List.forall₂_map_left_iff, List.zipIdx_map_fst] at numbered
  exact numbered

/-- The nodes of a canvas stand for the positions in the layers. -/
theorem shows_of_draw {canvas : Canvas} (drawn : draw layout automaton conflicts = .ok canvas) :
    List.Forall₂ (Node.Shows layout automaton conflicts) automaton.layers.flatten canvas.nodes := by
  unfold draw at drawn
  simp only [bind, Except.bind] at drawn
  split at drawn
  · cases drawn
  · rename_i rows made
    obtain rfl := Except.ok.inj drawn
    refine List.rel_flatten (forall₂_of_zipIdx ((forall₂_of_mapM_ok made).imp ?_))
    intro entry row done
    refine forall₂_of_zipIdx ((forall₂_of_mapM_ok done).imp ?_)
    exact fun _ _ => shows_of_node

theorem edges_of_draw {canvas : Canvas} (drawn : draw layout automaton conflicts = .ok canvas) :
    canvas.edges = automaton.transitions.zipIdx.map (edge layout) := by
  unfold draw at drawn
  simp only [bind, Except.bind] at drawn
  split at drawn
  · cases drawn
  · obtain rfl := Except.ok.inj drawn
    rfl

/-- The canvas has the states in their order and the transitions in theirs, with no loose end. -/
structure InOrder (grammar : Grammar) (canvas : Canvas) : Prop where
  names : canvas.nodes.map Node.name =
    (List.range grammar.states.length).map fun position => "state-" ++ toString position
  labels : canvas.nodes.map Node.label = grammar.states.map State.text
  edges : canvas.edges.map (fun edge => (edge.source, edge.label, edge.target)) =
    grammar.automaton.transitions.map fun transition =>
      (nodeName transition.source, transition.symbol, nodeName transition.target)
  attached : ∀ edge ∈ canvas.edges, (∃ node ∈ canvas.nodes, node.name = edge.source) ∧
    ∃ node ∈ canvas.nodes, node.name = edge.target

end Canvas

/-! ## The states of a grammar -/

theorem Item.text_ne_empty (item : Item) : item.text ≠ "" := by
  simp [text, String.append_eq_empty_iff]

theorem Canvas.label_of_text_ne_empty {layout : Layout} {state : State} (filled : state.text ≠ "") :
    label layout state = state.text := by
  rw [label, String.isEmpty_eq_false_iff.mpr filled]
  rfl

theorem State.text_ne_empty {state : State} (filled : state.items ≠ []) : state.text ≠ "" := by
  obtain ⟨item, rest, split⟩ := List.exists_cons_of_ne_nil filled
  rw [text, split]
  cases rest with
  | nil => simpa using item.text_ne_empty
  | cons next others =>
      simp [String.intercalate_cons_cons, String.append_eq_empty_iff, item.text_ne_empty]

namespace Ruleset

/-- A state holds the first item of the accept rule, or one that was moved. -/
theorem items_ne_nil_of_mem_statesFrom {rules : List Rule} {first : Rule} (member : first ∈ rules)
    {state : State} (inside : state ∈ (ofRules rules).statesFrom first) : state.items ≠ [] := by
  obtain ⟨place, found⟩ := List.mem_iff_getElem?.mp inside
  rcases Nat.eq_zero_or_pos place with rfl | later
  · obtain rfl := Option.some.inj (found.symm.trans (statesFrom_zero _ first))
    have start := (closureItems_closed rules [⟨first, 0, false⟩]).1 _ List.mem_cons_self
    obtain ⟨item, here, _⟩ := List.mem_map.mp start
    exact List.ne_nil_of_mem here
  · obtain ⟨source, before, _, there, follows⟩ := exists_earlier_of_statesFrom later found
    obtain ⟨symbol, awaited, rfl⟩ := List.mem_map.mp follows
    obtain ⟨item, here, _⟩ := exists_moved_mem_gotoState
      (placed_of_mem_statesFrom member before (List.mem_of_getElem? there)) awaited
    exact List.ne_nil_of_mem here

end Ruleset

namespace Grammar

namespace Analysed

variable {grammar : Grammar} {endMarker epsilon : Symbol} {accept : Rule}
  (analysed : grammar.Analysed endMarker epsilon accept)
include analysed

theorem flatten_layers : grammar.automaton.layers.flatten =
    (List.range grammar.states.length).map Int.ofNat := by
  rw [states, analysed.automaton_eq]
  exact Ruleset.flatten_layers_automatonFrom (List.mem_of_head? analysed.head)

theorem numbers_of_mem_transitions {transition : Transition}
    (inside : transition ∈ grammar.automaton.transitions) :
    Numbers grammar.states.length transition.source ∧
      Numbers grammar.states.length transition.target := by
  rw [analysed.automaton_eq] at inside
  rw [states, analysed.automaton_eq]
  obtain ⟨source, target, _, _, atSource, atTarget, found, there, _, _⟩ :=
    Ruleset.target_of_mem_transitions (List.mem_of_head? analysed.head) inside
  exact ⟨⟨source, atSource, (List.getElem?_eq_some_iff.mp found).1⟩,
    ⟨target, atTarget, (List.getElem?_eq_some_iff.mp there).1⟩⟩

theorem items_ne_nil {state : State} (inside : state ∈ grammar.states) : state.items ≠ [] := by
  rw [states, analysed.automaton_eq] at inside
  exact Ruleset.items_ne_nil_of_mem_statesFrom (List.mem_of_head? analysed.head) inside

theorem label_eq_text (layout : Layout) {state : State} (inside : state ∈ grammar.states) :
    Canvas.label layout state = state.text :=
  Canvas.label_of_text_ne_empty (State.text_ne_empty (analysed.items_ne_nil inside))

variable {layout : Layout} {conflicts : List Conflict} {canvas : Canvas}
  (drawn : Canvas.draw layout grammar.automaton conflicts = .ok canvas)
include drawn

/-- The nodes stand for the states in their order. -/
theorem shows_states : List.Forall₂
    (fun position node => Node.Shows layout grammar.automaton conflicts (Int.ofNat position) node)
    (List.range grammar.states.length) canvas.nodes := by
  have shown := Canvas.shows_of_draw drawn
  rwa [analysed.flatten_layers, List.forall₂_map_left_iff] at shown

theorem names_nodes : canvas.nodes.map Node.name =
    (List.range grammar.states.length).map fun position => "state-" ++ toString position := by
  exact map_eq_map_of_forall₂ ((analysed.shows_states drawn).imp fun _ _ shows => shows.name)

theorem labels_nodes : canvas.nodes.map Node.label = grammar.states.map State.text := by
  have shown := analysed.shows_states drawn
  have count := shown.length_eq
  rw [List.length_range] at count
  refine List.ext_getElem (by simp [count]) fun place inNodes inStates => ?_
  rw [List.length_map] at inNodes inStates
  obtain ⟨state, found, label⟩ :=
    (shown.get (i := place) (by rwa [List.length_range]) inNodes).label
  have here := itemAt_of_getElem? (List.getElem?_eq_getElem inStates)
  simp only [List.get_eq_getElem, List.getElem_range] at found label
  obtain rfl := Except.ok.inj (here.symm.trans found)
  rw [List.getElem_map, List.getElem_map, label]
  exact analysed.label_eq_text layout (List.getElem_mem inStates)

theorem exists_node {position : Int} (inside : Numbers grammar.states.length position) :
    ∃ node ∈ canvas.nodes, node.name = Canvas.nodeName position := by
  obtain ⟨place, rfl, less⟩ := inside
  have named : "state-" ++ toString place ∈ canvas.nodes.map Node.name := by
    rw [analysed.names_nodes drawn]
    exact List.mem_map_of_mem (List.mem_range.mpr less)
  obtain ⟨node, member, same⟩ := List.mem_map.mp named
  exact ⟨node, member, same⟩

theorem canvas_inOrder : canvas.InOrder grammar where
  names := analysed.names_nodes drawn
  labels := analysed.labels_nodes drawn
  edges := by
    have ends : (fun edge : Edge => (edge.source, edge.label, edge.target)) ∘ Canvas.edge layout =
        (fun transition : Transition => (Canvas.nodeName transition.source, transition.symbol,
          Canvas.nodeName transition.target)) ∘ Prod.fst := rfl
    rw [Canvas.edges_of_draw drawn, List.map_map, ends, ← List.map_map, List.zipIdx_map_fst]
  attached := by
    intro edge member
    rw [Canvas.edges_of_draw drawn] at member
    obtain ⟨⟨transition, number⟩, inside, rfl⟩ := List.mem_map.mp member
    obtain ⟨source, target⟩ :=
      analysed.numbers_of_mem_transitions (List.fst_mem_of_mem_zipIdx inside)
    exact ⟨analysed.exists_node drawn source, analysed.exists_node drawn target⟩

end Analysed

/--
The layers that the search by a queue ends with list the states of a grammar in their order.  Each
canvas therefore shows every state once, in that order, and each edge joins nodes that it shows.
-/
theorem canvas_inOrder_of_ofLines {lines : List String} {endMarker epsilon : Symbol}
    {grammar : Grammar} (built : ofLines lines endMarker epsilon = .ok grammar) :
    (∃ visited, Search.Run grammar.automaton (.begin grammar.automaton)
      ⟨grammar.automaton.layers, visited, []⟩) ∧
    grammar.automaton.layers.flatten = (List.range grammar.states.length).map Int.ofNat ∧
    ∀ layout conflicts, ∃ canvas,
      Canvas.draw layout grammar.automaton conflicts = .ok canvas ∧ canvas.InOrder grammar := by
  obtain ⟨accept, analysed⟩ := analysed_of_ofLines built
  refine ⟨Search.run_begin _, analysed.flatten_layers, fun layout conflicts => ?_⟩
  obtain ⟨canvas, drawn⟩ := Canvas.draw_ok layout conflicts analysed.numbers_of_mem_layers
  exact ⟨canvas, drawn, analysed.canvas_inOrder drawn⟩

/-- Two nonterminals lead to each other, so states come back into the queue from later layers. -/
theorem canvas_inOrder_of_ofLines_mutual :
    ∃ grammar canvas, ofLines ["S' -> S $", "S -> a T", "T -> b S", "T -> c", "S -> c"] "$" "ε" =
        .ok grammar ∧
      (∃ visited, Search.Run grammar.automaton (.begin grammar.automaton)
        ⟨[[0], [1, 2, 3], [4, 5, 6, 7], [8]], visited, []⟩) ∧
      Canvas.draw {} grammar.automaton [] = .ok canvas ∧ canvas.InOrder grammar := by
  have evaluated :
      (ofLines ["S' -> S $", "S -> a T", "T -> b S", "T -> c", "S -> c"] "$" "ε").map
        (·.automaton.layers) = .ok [[0], [1, 2, 3], [4, 5, 6, 7], [8]] := by decide +kernel
  obtain ⟨grammar, built, layers⟩ := exists_ok_of_map evaluated
  obtain ⟨searched, _, shown⟩ := canvas_inOrder_of_ofLines built
  obtain ⟨canvas, drawn, inOrder⟩ := shown {} []
  exact ⟨grammar, canvas, built, layers ▸ searched, drawn, inOrder⟩

end Grammar

end GrammarWorkbench
