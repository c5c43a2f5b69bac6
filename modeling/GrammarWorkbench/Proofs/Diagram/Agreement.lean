import GrammarWorkbench.Proofs.Diagram.Canvas
import GrammarWorkbench.Proofs.Diagram.Dot
import GrammarWorkbench.Service.Payload

/-!
# Views that agree on conflicts

The table of highlights, the nodes of the canvas and the lines of the graph are made one by one
from the same conflicts.  The layers show every state, so the three tell of the same states: those
that some conflict names, each with its first conflict.
-/

namespace GrammarWorkbench

variable {conflicts : List Conflict} {state : Int}

/-! ## First conflicts -/

/-- Some conflict names the state. -/
def Conflict.Named (conflicts : List Conflict) (state : Int) : Prop :=
  ∃ conflict ∈ conflicts, conflict.state = state

/-- What the first conflict that names a state tells of it. -/
def firstHighlight? (conflicts : List Conflict) (state : Int) : Option Highlight :=
  (conflicts.find? (·.state = state)).map fun conflict => ⟨conflict.kind, conflict.symbol⟩

theorem isSome_firstHighlight? :
    (firstHighlight? conflicts state).isSome ↔ Conflict.Named conflicts state := by
  simp [firstHighlight?, Conflict.Named]

/-- The table has the first conflict of each state. -/
theorem lookup_highlights (conflicts : List Conflict) (state : Int) :
    (highlights conflicts).lookup state = firstHighlight? conflicts state := by
  have first : ∀ seen : List Int, state ∉ seen →
      ((Breadth.fresh Conflict.state seen conflicts).map fun conflict =>
        (conflict.state, conflict.highlight)).lookup state = firstHighlight? conflicts state := by
    induction conflicts with
    | nil => exact fun _ _ => rfl
    | cons conflict rest ih =>
        intro seen unseen
        by_cases same : conflict.state = state
        · simp [Breadth.fresh, firstHighlight?, Conflict.highlight, same, unseen]
        · have later : firstHighlight? (conflict :: rest) state = firstHighlight? rest state := by
            simp [firstHighlight?, same]
          have other : (state == conflict.state) = false := beq_eq_false_iff_ne.mpr (Ne.symm same)
          rw [later, Breadth.fresh]
          split
          · exact ih seen unseen
          · rw [List.map_cons, List.lookup_cons, other]
            exact ih _ (List.not_mem_cons_of_ne_of_not_mem (Ne.symm same) unseen)
  exact first [] List.not_mem_nil

/-! ## What the views tell -/

/-- The table of highlights, under the written numbers of the states. -/
def Overview.table (overview : Overview) : Json :=
  Payload.ofHighlights overview.highlights

/-- The data of a node. -/
def Node.data? (node : Node) : Option Json :=
  (Payload.ofNode node).member? "data"

/-- The data of the node carry the kind and the symbol of a conflict. -/
def Node.Carries (node : Node) : Prop :=
  ∃ data, node.data? = some data ∧ (data.member? "conflictType").isSome ∧
    (data.member? "conflictToken").isSome

/-- The canvas has a node for the state that carries a conflict. -/
def Canvas.Marked (canvas : Canvas) (state : Int) : Prop :=
  ∃ node ∈ canvas.nodes, node.name = nodeName state ∧ node.Carries

/-- The text of a graph has a line for the state, with the red mark behind its label. -/
def Dot.Red (graph : String) (state : Int) : Prop :=
  ∃ line ∈ graph.toList.splitOn '\n', ∃ literal, literal? line = some literal ∧
    literal.before = "  state" ++ toString state ++ " [label=" ∧
    "color=red".toList <:+: literal.after.toList

/-- The members that tell of a conflict: its kind and its symbol. -/
def Highlight.members : Highlight → List (String × Json)
  | ⟨.shiftReduce, symbol⟩ =>
      [("conflictType", .string "shift/reduce"), ("conflictToken", .string symbol)]
  | ⟨.reduceReduce, symbol⟩ =>
      [("conflictType", .string "reduce/reduce"), ("conflictToken", .string symbol)]

/-- The views tell of the states that some conflict names, each with its first conflict. -/
structure Overview.Agrees (overview : Overview) (conflicts : List Conflict) : Prop where
  keyed : ∀ key, (overview.table.member? key).isSome ↔
    ∃ state, toString state = key ∧ Conflict.Named conflicts state
  marked : ∀ state, overview.canvas.Marked state ↔ Conflict.Named conflicts state
  red : ∀ state, Dot.Red overview.graph state ↔ Conflict.Named conflicts state
  keys_nodup : (overview.highlights.map fun entry => toString entry.1).Nodup
  told : ∀ state, overview.table.member? (toString state) =
    (firstHighlight? conflicts state).map fun highlight => .object highlight.members
  data : ∀ node ∈ overview.canvas.nodes, ∃ state, node.name = Canvas.nodeName state ∧
    node.data? = some (.object (("label", .string node.label) ::
      ((firstHighlight? conflicts state).map Highlight.members).getD []))

theorem Payload.ofHighlight_eq (highlight : Highlight) : ofHighlight highlight = highlight.members := by
  obtain ⟨kind, symbol⟩ := highlight
  cases kind <;> rfl

theorem toString_int_injective {left right : Int} (same : toString left = toString right) :
    left = right :=
  Text.repr_injective same

theorem Canvas.nodeName_injective {left right : Int} (same : nodeName left = nodeName right) :
    left = right := by
  refine toString_int_injective (String.toList_inj.mp ?_)
  simpa [nodeName] using congrArg String.toList same

theorem Payload.member?_ofHighlights (table : List (Int × Highlight)) (state : Int) :
    (ofHighlights table).member? (toString state) =
      (table.lookup state).map fun highlight => .object highlight.members := by
  induction table with
  | nil => rfl
  | cons entry rest ih =>
      obtain ⟨key, highlight⟩ := entry
      by_cases same : state = key
      · simp [ofHighlights, Json.member?, same, ofHighlight_eq]
      · have otherKey : (toString state == toString key) = false :=
          beq_eq_false_iff_ne.mpr fun equal => same (toString_int_injective equal)
        have other : (state == key) = false := beq_eq_false_iff_ne.mpr same
        simp only [ofHighlights, Json.member?, List.map_cons, List.lookup_cons, otherKey,
          other] at ih ⊢
        exact ih

/-- The keys of the table are the written numbers of its states. -/
theorem Payload.isSome_member?_ofHighlights {table : List (Int × Highlight)} {key : String} :
    ((ofHighlights table).member? key).isSome ↔
      ∃ state ∈ table.map (·.1), toString state = key := by
  rw [ofHighlights, Json.member?, List.lookup_isSome_iff]
  simp only [List.mem_map, beq_iff_eq]
  constructor
  · rintro ⟨_, ⟨entry, member, rfl⟩, same⟩
    exact ⟨entry.1, ⟨entry, member, rfl⟩, same.symm⟩
  · rintro ⟨_, ⟨entry, member, rfl⟩, same⟩
    exact ⟨_, ⟨entry, member, rfl⟩, same.symm⟩

theorem Node.data?_eq (node : Node) : node.data? = some (.object (("label", .string node.label) ::
    (node.highlight.map Highlight.members).getD [])) := by
  rw [← funext Payload.ofHighlight_eq]
  rfl

theorem Node.carries_iff (node : Node) : node.Carries ↔ node.highlight.isSome := by
  rw [Carries, data?_eq]
  cases node.highlight with
  | none => simp [Json.member?, List.lookup_cons]
  | some highlight =>
      obtain ⟨kind, symbol⟩ := highlight
      cases kind <;> simp [Json.member?, List.lookup_cons, Highlight.members]

/-! ## Lines of the graph -/

namespace Dot

variable {style : LabelStyle} {title : String} {automaton : Automaton} {conflicted : List Int}
  {position : Nat}

/-- The mark of a conflict is the only one that tells of a color. -/
theorem mem_marksText_iff : 'c' ∈ (marksText automaton conflicted position).toList ↔
    (position : Int) ∈ conflicted := by
  simp only [marksText, stateMarks, String.toList_append, String.toList_join]
  split <;> split <;> split <;> simp_all

theorem red_marksText (inside : (position : Int) ∈ conflicted) :
    "color=red".toList <:+: (marksText automaton conflicted position).toList := by
  have mark : "color=red" ∈ stateMarks automaton conflicted position := by
    simp [stateMarks, inside]
  obtain ⟨before, after, split⟩ := List.append_of_mem mark
  refine ⟨(String.join (before.map (", " ++ ·)) ++ ", ").toList,
    (String.join (after.map (", " ++ ·)) ++ "];").toList, ?_⟩
  simp [marksText, split, String.toList_join]

theorem colorless_header {line : String} {literal : Literal} (member : line ∈ headerLines title)
    (found : literal? line.toList = some literal) : 'c' ∉ literal.after.toList := by
  simp only [headerLines, List.mem_cons, List.not_mem_nil, or_false] at member
  obtain rfl | rfl | rfl | rfl := member
  · rw [literal?_titleLine] at found
    obtain rfl := Option.some.inj found
    exact (by decide : 'c' ∉ " \x7b".toList)
  · have none : literal? "  rankdir=LR;".toList = none := by decide
    cases none.symm.trans found
  · have font : literal? "  node [shape=box, fontname=\"Arial\", fontsize=8];".toList =
        some ⟨"  node [shape=box, fontname=", "Arial", ", fontsize=8];"⟩ := by decide
    obtain rfl := Option.some.inj (font.symm.trans found)
    decide
  · have font : literal? "  edge [fontname=\"Arial\", fontsize=8];".toList =
        some ⟨"  edge [fontname=", "Arial", ", fontsize=8];"⟩ := by decide
    obtain rfl := Option.some.inj (font.symm.trans found)
    decide

theorem colorless_edge (kind : TransitionKind) : 'c' ∉ (edgeStyle kind ++ "];").toList := by
  cases kind <;> decide

/-- The color of a line is the mark of a state in conflict. -/
theorem exists_state_of_color {line : String} {literal : Literal}
    (member : line ∈ lines style title automaton conflicts)
    (found : literal? line.toList = some literal) (color : 'c' ∈ literal.after.toList) :
    ∃ position : Nat, (position : Int) ∈ (highlights conflicts).map (·.1) ∧
      literal.before = "  state" ++ toString position ++ " [label=" := by
  simp only [lines, List.mem_append, List.mem_map] at member
  obtain ((inHeader | ⟨⟨state, position⟩, _, rfl⟩) | ⟨transition, _, rfl⟩) | isLast := member
  · exact absurd color (colorless_header inHeader found)
  · rw [literal?_stateLine] at found
    obtain rfl := Option.some.inj found
    exact ⟨position, mem_marksText_iff.mp color, rfl⟩
  · rw [literal?_transitionLine] at found
    obtain rfl := Option.some.inj found
    exact absurd color (colorless_edge transition.kind)
  · rw [List.mem_singleton.mp isLast] at found
    cases found

/-- A line is red exactly if it is the one of a state in conflict. -/
theorem red_iff (inside : ∀ state ∈ (highlights conflicts).map (·.1),
    Numbers automaton.states.length state) (state : Int) :
    Red (draw style title automaton conflicts) state ↔
      state ∈ (highlights conflicts).map (·.1) := by
  constructor
  · rintro ⟨line, member, literal, found, before, red⟩
    rw [splitOn_draw] at member
    obtain ⟨text, listed, rfl⟩ := List.mem_map.mp member
    obtain ⟨position, named, same⟩ := exists_state_of_color listed found (red.subset (by decide))
    have equal : toString state = toString (position : Int) := by
      have same : literal.before = "  state" ++ toString (position : Int) ++ " [label=" := same
      refine String.toList_inj.mp ?_
      simpa using congrArg String.toList (before.symm.trans same)
    exact toString_int_injective equal ▸ named
  · intro named
    obtain ⟨position, rfl, less⟩ := inside state named
    have legible := legible_draw style title automaton conflicts
    obtain ⟨_, _, _, _, told⟩ := legible.state position _ (List.getElem?_eq_getElem less)
    obtain ⟨line, at?, found⟩ := Option.bind_eq_some_iff.mp told
    exact ⟨line, List.mem_of_getElem? at?, _, found, rfl, red_marksText named⟩

end Dot

/-! ## The whole overview -/

namespace Grammar

theorem overview_eq_ok {grammar : Grammar} {style : ViewStyle} {overview : Overview}
    (done : grammar.overview style (some conflicts) = .ok overview) :
    Canvas.draw style.layout grammar.automaton conflicts = .ok overview.canvas ∧
      overview.highlights = highlights conflicts ∧
      overview.graph = Dot.draw style.labels Dot.defaultTitle grammar.automaton conflicts := by
  unfold Grammar.overview at done
  simp only [pure, Except.pure, bind, Except.bind] at done
  split at done
  · cases done
  · rename_i canvas drawn
    split at done
    · cases done
    · split at done
      · cases done
      · obtain rfl := Except.ok.inj done
        exact ⟨drawn, rfl, rfl⟩

theorem overview_none {grammar : Grammar} {style : ViewStyle}
    (searched : grammar.conflicts = .ok conflicts) :
    grammar.overview style none = grammar.overview style (some conflicts) := by
  simp only [overview, searched, bind, Except.bind, pure, Except.pure]

variable {grammar : Grammar} {endMarker epsilon : Symbol} {accept : Rule}

namespace Analysed

variable {canvas : Canvas} {layout : Layout}

theorem exists_state_of_node (analysed : grammar.Analysed endMarker epsilon accept)
    (drawn : Canvas.draw layout grammar.automaton conflicts = .ok canvas) {node : Node}
    (member : node ∈ canvas.nodes) : ∃ state, node.name = Canvas.nodeName state ∧
      node.highlight = firstHighlight? conflicts state := by
  have shown := analysed.shows_states drawn
  obtain ⟨place, inside, rfl⟩ := List.getElem_of_mem member
  have shows := shown.get (i := place) (shown.length_eq.symm ▸ inside) inside
  exact ⟨_, shows.name, shows.highlight.trans (lookup_highlights conflicts _)⟩

theorem highlight_of_name (analysed : grammar.Analysed endMarker epsilon accept)
    (drawn : Canvas.draw layout grammar.automaton conflicts = .ok canvas) {node : Node}
    (member : node ∈ canvas.nodes) (named : node.name = Canvas.nodeName state) :
    node.highlight = firstHighlight? conflicts state := by
  obtain ⟨other, same, highlight⟩ := analysed.exists_state_of_node drawn member
  rwa [Canvas.nodeName_injective (named.symm.trans same)]

/-- Every state has its node, so no conflict is left out. -/
theorem marked_iff (analysed : grammar.Analysed endMarker epsilon accept)
    (drawn : Canvas.draw layout grammar.automaton conflicts = .ok canvas)
    (within : ∀ conflict ∈ conflicts, conflict.Within grammar) :
    canvas.Marked state ↔ Conflict.Named conflicts state := by
  constructor
  · rintro ⟨node, member, named, carries⟩
    rw [← isSome_firstHighlight?, ← analysed.highlight_of_name drawn member named]
    exact node.carries_iff.mp carries
  · rintro ⟨conflict, inside, rfl⟩
    obtain ⟨node, member, named⟩ := analysed.exists_node drawn (within conflict inside).state
    refine ⟨node, member, named, node.carries_iff.mpr ?_⟩
    rw [analysed.highlight_of_name drawn member named, isSome_firstHighlight?]
    exact ⟨conflict, inside, rfl⟩

theorem agrees (analysed : grammar.Analysed endMarker epsilon accept) {style : ViewStyle}
    {overview : Overview} (within : ∀ conflict ∈ conflicts, conflict.Within grammar)
    (done : grammar.overview style (some conflicts) = .ok overview) :
    overview.Agrees conflicts := by
  obtain ⟨drawn, table, graph⟩ := overview_eq_ok done
  refine ⟨fun key => ?_, fun state => analysed.marked_iff drawn within, fun state => ?_, ?_,
    fun state => ?_, fun node member => ?_⟩
  · rw [Overview.table, table, Payload.isSome_member?_ofHighlights]
    simp only [mem_states_highlights, Conflict.Named, and_comm]
  · rw [Conflict.Named, ← mem_states_highlights, graph]
    refine Dot.red_iff (fun state named => ?_) state
    obtain ⟨conflict, inside, rfl⟩ := mem_states_highlights.mp named
    exact (within conflict inside).state
  · rw [table]
    have keys := (nodup_states_highlights conflicts).map fun _ _ => toString_int_injective
    rwa [List.map_map] at keys
  · rw [Overview.table, table, Payload.member?_ofHighlights, lookup_highlights]
  · obtain ⟨state, named, highlight⟩ := analysed.exists_state_of_node drawn member
    exact ⟨state, named, by rw [node.data?_eq, highlight]⟩

end Analysed

/--
All views of a grammar tell of the same states, with any conflicts that name what the grammar
has, and so with those that are found in it.
-/
theorem overview_agrees {lines : List String} {endMarker epsilon : Symbol} {grammar : Grammar}
    (built : ofLines lines endMarker epsilon = .ok grammar) (style : ViewStyle) :
    (∀ conflicts, (∀ conflict ∈ conflicts, conflict.Within grammar) →
      ∃ overview, grammar.overview style (some conflicts) = .ok overview ∧
        overview.Agrees conflicts) ∧
    ∃ conflicts overview, grammar.conflicts = .ok conflicts ∧
      grammar.overview style none = .ok overview ∧ overview.Agrees conflicts := by
  obtain ⟨accept, analysed⟩ := analysed_of_ofLines built
  have agrees : ∀ conflicts, (∀ conflict ∈ conflicts, conflict.Within grammar) →
      ∃ overview, grammar.overview style (some conflicts) = .ok overview ∧
        overview.Agrees conflicts := by
    intro conflicts within
    obtain ⟨overview, done⟩ := analysed.overview_ok style within
    exact ⟨overview, done, analysed.agrees within done⟩
  have searched := analysed.supplied.conflicts_eq
  obtain ⟨overview, done, agree⟩ := agrees _ (analysed.within_of_conflicts searched)
  exact ⟨agrees, _, overview, searched, (overview_none searched).trans done, agree⟩

/-- A later conflict of a state has no part in the views. -/
theorem overview_agrees_of_repeated :
    ∃ conflicts grammar overview,
      conflicts = [⟨4, .shiftReduce, "+", [1], ["+"]⟩, ⟨1, .reduceReduce, "n", [0, 2], ["n"]⟩,
        ⟨4, .reduceReduce, "$", [2, 1], ["$"]⟩] ∧
      ofLines ["$accept -> E $", "E -> E + E", "E -> n"] "$" "ε" = .ok grammar ∧
      grammar.overview {} (some conflicts) = .ok overview ∧ overview.Agrees conflicts ∧
      firstHighlight? conflicts 4 = some ⟨.shiftReduce, "+"⟩ := by
  have evaluated : (ofLines ["$accept -> E $", "E -> E + E", "E -> n"] "$" "ε").map
      (fun grammar => (grammar.states.length, grammar.rules.length)) = .ok (6, 3) := by
    decide +kernel
  obtain ⟨grammar, built, sizes⟩ := exists_ok_of_map evaluated
  obtain ⟨states, rules⟩ := Prod.mk.inj sizes
  have state : ∀ position : Nat, position < 6 → Numbers grammar.states.length position :=
    fun position less => ⟨position, rfl, states ▸ less⟩
  have rule : ∀ position : Nat, position < 3 → Numbers grammar.rules.length position :=
    fun position less => ⟨position, rfl, rules ▸ less⟩
  have accept : Numbers grammar.rules.length 0 := rule 0 (by decide)
  have sum : Numbers grammar.rules.length 1 := rule 1 (by decide)
  have leaf : Numbers grammar.rules.length 2 := rule 2 (by decide)
  obtain ⟨conflicts, listed⟩ : ∃ conflicts : List Conflict,
      conflicts = [⟨4, .shiftReduce, "+", [1], ["+"]⟩, ⟨1, .reduceReduce, "n", [0, 2], ["n"]⟩,
        ⟨4, .reduceReduce, "$", [2, 1], ["$"]⟩] := ⟨_, rfl⟩
  have within : ∀ conflict ∈ conflicts, conflict.Within grammar := by
    rw [listed]
    simp only [List.forall_mem_cons]
    exact ⟨⟨state 4 (by decide), by simp [sum]⟩, ⟨state 1 (by decide), by simp [accept, leaf]⟩,
      ⟨state 4 (by decide), by simp [leaf, sum]⟩, nofun⟩
  obtain ⟨overview, done, agrees⟩ := (overview_agrees built {}).1 conflicts within
  exact ⟨conflicts, grammar, overview, listed, built, done, agrees, by rw [listed]; rfl⟩

end Grammar

end GrammarWorkbench
