import GrammarWorkbench.Diagram.Overview
import GrammarWorkbench.Proofs.Conflict.Exact

/-!
# Every grammar has its overview

The layers of an automaton lead to its states only, so each node of the canvas has a state.
Reports look up the states and the rules that conflicts name, and those that were found name
what the grammar has.
-/

namespace GrammarWorkbench

/-- Lookups that all succeed succeed together. -/
theorem exists_mapM_ok {α β ε : Type} {items : List α} {lookup : α → Except ε β}
    (done : ∀ item ∈ items, ∃ value, lookup item = .ok value) :
    ∃ values, items.mapM lookup = .ok values := by
  induction items with
  | nil => exact ⟨[], rfl⟩
  | cons first rest ih =>
      obtain ⟨value, here⟩ := done first List.mem_cons_self
      obtain ⟨values, later⟩ := ih fun item member => done item (List.mem_cons_of_mem _ member)
      exact ⟨value :: values, by rw [List.mapM_cons, here, later]; rfl⟩

/-- A number of one of so many things. -/
def Numbers (count : Nat) (number : Int) : Prop :=
  ∃ position : Nat, number = position ∧ position < count

theorem Numbers.itemAt_ok {α : Type} {items : List α} {number : Int}
    (inside : Numbers items.length number) : ∃ item, itemAt items number = .ok item := by
  obtain ⟨position, rfl, less⟩ := inside
  exact ⟨_, itemAt_of_getElem? (List.getElem?_eq_getElem less)⟩

/-- The conflict names a state and rules of the grammar. -/
structure Conflict.Within (grammar : Grammar) (conflict : Conflict) : Prop where
  state : Numbers grammar.states.length conflict.state
  rules : ∀ rule ∈ conflict.rules, Numbers grammar.rules.length rule

/-! ## Layers and nodes -/

/-- Where all transitions lead to states, so do the layers. -/
theorem Automaton.numbers_of_mem_layers {automaton : Automaton}
    (start : Numbers automaton.states.length automaton.startState)
    (targets : ∀ transition ∈ automaton.transitions,
      Numbers automaton.states.length transition.target) :
    ∀ layer ∈ automaton.layers, ∀ state ∈ layer, Numbers automaton.states.length state := by
  intro layer member state inside
  refine Breadth.of_mem_reached (fun sources _ target behind => ?_)
    (fun first only => List.mem_singleton.mp only ▸ start) state
    (List.mem_flatten_of_mem member inside)
  obtain ⟨source, _, follows⟩ := List.mem_flatMap.mp behind
  obtain ⟨transition, edge, _, rfl⟩ := mem_targets.mp follows
  exact targets transition edge

namespace Canvas

variable {layout : Layout} {automaton : Automaton}

theorem node_ok (highlights : List (Int × Highlight)) (x y : Float) {state : Int}
    (inside : Numbers automaton.states.length state) :
    ∃ node, Canvas.node layout automaton highlights x y state = .ok node := by
  obtain ⟨found, here⟩ := inside.itemAt_ok
  exact ⟨_, by rw [node, here]; rfl⟩

theorem draw_ok (layout : Layout) (conflicts : List Conflict)
    (inside : ∀ layer ∈ automaton.layers, ∀ state ∈ layer, Numbers automaton.states.length state) :
    ∃ canvas, draw layout automaton conflicts = .ok canvas := by
  have row : ∀ entry ∈ automaton.layers.zipIdx, ∀ y, ∃ nodes,
      layerNodes layout automaton (highlights conflicts) y entry.1 = .ok nodes := by
    intro entry member y
    refine exists_mapM_ok fun place here => node_ok _ _ _ (inside entry.1 ?_ place.1 ?_)
    · exact (List.mem_zipIdx' member).2 ▸ List.getElem_mem _
    · exact (List.mem_zipIdx' here).2 ▸ List.getElem_mem _
  obtain ⟨rows, done⟩ := exists_mapM_ok fun entry member => row entry member _
  exact ⟨_, by rw [draw]; simp only [bind, Except.bind]; rw [done]; rfl⟩

end Canvas

/-! ## Reports -/

variable {grammar : Grammar} {conflicts : List Conflict}

theorem Grammar.ruleText_ok {index : Int} (inside : Numbers grammar.rules.length index) :
    ∃ text, grammar.ruleText index = .ok text := by
  obtain ⟨rule, found⟩ := inside.itemAt_ok
  exact ⟨rule.text, by rw [ruleText, found]; rfl⟩

namespace Report

theorem conflictLines_ok {entry : Conflict × Nat} (within : entry.1.Within grammar) :
    ∃ lines, conflictLines grammar entry = .ok lines := by
  obtain ⟨state, found⟩ := within.state.itemAt_ok
  obtain ⟨rules, listed⟩ : ∃ rules, entry.1.rules.mapM (ruleLine grammar) = .ok rules := by
    refine exists_mapM_ok fun index member => ?_
    obtain ⟨text, here⟩ := Grammar.ruleText_ok (within.rules index member)
    exact ⟨_, by rw [ruleLine, here]; rfl⟩
  exact ⟨_, by simp only [conflictLines, found, listed, bind, Except.bind]; rfl⟩

theorem written_ok (within : ∀ conflict ∈ conflicts, conflict.Within grammar) :
    ∃ report, written grammar conflicts = .ok report := by
  obtain ⟨parts, done⟩ : ∃ parts, (conflicts.zipIdx 1).mapM (conflictLines grammar) = .ok parts :=
    exists_mapM_ok fun entry member =>
      conflictLines_ok (within entry.1 (List.fst_mem_of_mem_zipIdx member))
  unfold written
  split
  · exact ⟨_, rfl⟩
  · exact ⟨_, by simp only [done, bind, Except.bind]; rfl⟩

theorem conflictBlock_ok {entry : Conflict × Nat} (within : entry.1.Within grammar) :
    ∃ block, conflictBlock grammar entry = .ok block := by
  obtain ⟨rules, listed⟩ : ∃ rules, entry.1.rules.mapM (ruleEntry grammar) = .ok rules := by
    refine exists_mapM_ok fun index member => ?_
    obtain ⟨text, here⟩ := Grammar.ruleText_ok (within.rules index member)
    exact ⟨_, by rw [ruleEntry, here]; rfl⟩
  exact ⟨_, by simp only [conflictBlock, listed, bind, Except.bind]; rfl⟩

theorem conflictPage_ok (style : ReportStyle)
    (within : ∀ conflict ∈ conflicts, conflict.Within grammar) :
    ∃ page, conflictPage style grammar conflicts = .ok page := by
  obtain ⟨blocks, done⟩ :
      ∃ blocks, (conflicts.zipIdx 1).mapM (conflictBlock grammar) = .ok blocks :=
    exists_mapM_ok fun entry member =>
      conflictBlock_ok (within entry.1 (List.fst_mem_of_mem_zipIdx member))
  unfold conflictPage
  split
  · exact ⟨_, rfl⟩
  · exact ⟨_, by simp only [done, bind, Except.bind]; rfl⟩

end Report

namespace Grammar.Analysed

variable {endMarker epsilon : Symbol} {accept : Rule}
  (analysed : grammar.Analysed endMarker epsilon accept)
include analysed

theorem numbers_of_mem_layers :
    ∀ layer ∈ grammar.automaton.layers, ∀ state ∈ layer,
      Numbers grammar.automaton.states.length state := by
  have member := List.mem_of_head? analysed.head
  have same := analysed.automaton_eq
  refine Automaton.numbers_of_mem_layers ?_ fun transition inside => ?_
  · obtain ⟨rest, split⟩ := Ruleset.statesFrom_eq_cons (Ruleset.ofRules grammar.rules) accept
    rw [same]
    exact ⟨0, rfl, (congrArg List.length split).symm ▸ Nat.succ_pos _⟩
  · rw [same] at inside ⊢
    obtain ⟨_, target, _, _, _, atTarget, _, found, _, _⟩ :=
      Ruleset.target_of_mem_transitions member inside
    exact ⟨target, atTarget, (List.getElem?_eq_some_iff.mp found).1⟩

/-- All views of a grammar can be drawn, with any conflicts that name what it has. -/
theorem overview_ok (style : ViewStyle)
    (within : ∀ conflict ∈ conflicts, conflict.Within grammar) :
    ∃ overview, grammar.overview style (some conflicts) = .ok overview := by
  obtain ⟨canvas, drawn⟩ := Canvas.draw_ok style.layout conflicts analysed.numbers_of_mem_layers
  obtain ⟨report, written⟩ := Report.written_ok within
  obtain ⟨page, paged⟩ := Report.conflictPage_ok style.report within
  exact ⟨_, by
    simp only [overview, drawn, written, paged, bind, Except.bind, pure, Except.pure]
    rfl⟩

/-- The conflicts that are found name states and rules of the grammar. -/
theorem within_of_conflicts (done : grammar.conflicts = .ok conflicts) :
    ∀ conflict ∈ conflicts, conflict.Within grammar := by
  obtain rfl := Except.ok.inj (analysed.supplied.conflicts_eq.symm.trans done)
  have exact := analysed.conflictsExact
  intro conflict member
  obtain ⟨position, atState, inside⟩ := exact.placed conflict member
  have found := List.getElem?_eq_getElem inside
  have rules : conflict.rules =
      (grammar.rivals grammar.states[position] conflict.symbol).map Rule.index := by
    cases kind : conflict.kind with
    | shiftReduce =>
        exact (exact.shift_unique position _ found _ conflict member ⟨atState, kind, rfl⟩).2.1
    | reduceReduce =>
        exact (exact.reduce_unique position _ found _ conflict member ⟨atState, kind, rfl⟩).2.1
  refine ⟨⟨position, atState, inside⟩, fun index named => ?_⟩
  rw [rules] at named
  obtain ⟨rule, rival, rfl⟩ := List.mem_map.mp named
  obtain ⟨place, atIndex, here⟩ := analysed.listed.getElem?_index
    (analysed.mem_rules_of_mem_rivals (List.getElem_mem inside) rival)
  exact ⟨place, atIndex, (List.getElem?_eq_some_iff.mp here).1⟩

end Grammar.Analysed

end GrammarWorkbench
