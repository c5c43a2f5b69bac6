import GrammarWorkbench.Proofs.Diagram.Canvas
import GrammarWorkbench.Proofs.Rule.Reread

/-!
# Labels that tell states apart

The words of an item are the left side, an arrow, and the right side with the dot's mark in it.
None of them holds a blank, so they are read back from the text, and the only mark among the symbols
is the dot.  A state shows an item a line.  Where no two rules are written alike, states with one
text thus have one key, and each node of a canvas has a label that no other node has.
-/

namespace GrammarWorkbench

open Text (Solid)

/-- Lists that one function does not tell apart are the same for each function that tells less. -/
theorem map_eq_map_of_told {α β γ : Type} {left right : List α} {told : α → β} {shown : α → γ}
    (tells : ∀ item ∈ left, ∀ other ∈ right, told item = told other → shown item = shown other)
    (same : left.map told = right.map told) : left.map shown = right.map shown := by
  induction left generalizing right with
  | nil => rw [List.map_eq_nil_iff.mp same.symm]
  | cons first rest ih =>
      cases right with
      | nil => cases same
      | cons other others =>
          obtain ⟨here, later⟩ := List.cons.inj same
          rw [List.map_cons, List.map_cons,
            tells first List.mem_cons_self other List.mem_cons_self here,
            ih (fun item inside twin there =>
              tells item (List.mem_cons_of_mem _ inside) twin (List.mem_cons_of_mem _ there)) later]

/-! ## The words of an item -/

namespace Rule

variable {rule : Rule} {epsilon : Symbol}

/-- The symbols of the rule are words, and none on the right side looks like the dot. -/
structure Legible (rule : Rule) : Prop where
  lhs : Solid rule.lhs.toList
  rhs : ∀ symbol ∈ rule.rhs, Solid symbol.toList
  unmarked : dotMarker ∉ rule.rhs

theorem Printable.legible (printable : rule.Printable) (unmarked : dotMarker ∉ rule.rhs) :
    rule.Legible where
  lhs := printable.lhs.solid
  rhs := by
    intro symbol member
    have shown : rule.shown = rule.rhs :=
      if_neg fun empty => List.ne_nil_of_mem member (List.isEmpty_iff.mp empty)
    exact (printable.shown symbol (shown ▸ member)).solid
  unmarked := unmarked

/-- Rules that were read are legible, unless a symbol looks like the dot. -/
theorem legible_of_readAll {lines : List String} {rules : List Rule}
    (read : readAll lines epsilon = .ok rules) (unmarked : ∀ rule ∈ rules, dotMarker ∉ rule.rhs) :
    ∀ rule ∈ rules, rule.Legible := fun rule member =>
  (printable_of_readFrom (readFrom_of_readAll read) rule member).legible (unmarked rule member)

end Rule

namespace Item

variable {item left right : Item}

/-- The words that an item shows. -/
def shown (item : Item) : List Symbol :=
  item.rule.lhs :: "→" :: item.markedSymbols

theorem toList_text (item : Item) :
    item.text.toList = [' '].intercalate (item.shown.map String.toList) := by
  have some : item.markedSymbols ≠ [] := by simp [markedSymbols]
  have joined : item.text = " ".intercalate item.shown := by
    have arrow : " → " = " " ++ ("→" ++ " ") := by decide
    rw [shown, String.intercalate_cons_cons, String.intercalate_cons_of_ne_nil some, text, arrow]
    simp only [String.append_assoc]
  rw [joined, String.toList_intercalate]
  rfl

theorem solid_shown (legible : item.rule.Legible) :
    ∀ part ∈ item.shown.map String.toList, Solid part := by
  have dot : Solid dotMarker.toList := Text.solid_singleton (rfl : Text.isBlank '↑' = false)
  have arrow : Solid "→".toList := Text.solid_singleton (rfl : Text.isBlank '→' = false)
  have symbols : ∀ symbol ∈ item.markedSymbols, Solid symbol.toList := by
    intro symbol member
    rcases List.mem_append.mp member with before | behind
    · exact legible.rhs symbol (List.mem_of_mem_take before)
    · cases List.mem_cons.mp behind with
      | inl mark => exact mark ▸ dot
      | inr behind => exact legible.rhs symbol (List.mem_of_mem_drop behind)
  rw [List.forall_mem_map, shown, List.forall_mem_cons, List.forall_mem_cons]
  exact ⟨legible.lhs, arrow, symbols⟩

/-- The words are read back from the text. -/
theorem words_text (legible : item.rule.Legible) :
    Text.words item.text.toList = item.shown.map String.toList := by
  rw [toList_text, Text.words_intercalate (solid_shown legible)]

/-- A text of an item is one line. -/
theorem newline_not_mem_text (legible : item.rule.Legible) : '\n' ∉ item.text.toList := by
  rw [toList_text]
  exact Text.not_mem_intercalate (by decide) fun part member =>
    (solid_shown legible part member).not_mem_of_isBlank Text.isBlank_newline

theorem marker_of_dot {dot : Nat} (same : item.dot = dot) (inside : dot ≤ item.rule.rhs.length) :
    item.marker = dot := by
  have within : ¬ (item.dot < 0) := by omega
  rw [marker, if_neg within, same, Int.toNat_natCast, Nat.min_eq_left inside]

/-- The only mark among the symbols is the dot, so it parts the same symbols at the same place. -/
theorem markedSymbols_inj {rules : List Rule} (leftPlaced : left.Placed rules)
    (rightPlaced : right.Placed rules) (unmarked : dotMarker ∉ left.rule.rhs)
    (same : left.markedSymbols = right.markedSymbols) :
    left.rule.rhs = right.rule.rhs ∧ left.dot = right.dot := by
  obtain ⟨_, dot, atDot, inside⟩ := leftPlaced
  obtain ⟨_, place, atPlace, within⟩ := rightPlaced
  rw [markedSymbols, markedSymbols, marker_of_dot atDot inside, marker_of_dot atPlace within,
    List.append_cons_inj_of_notMem (fun member => unmarked (List.mem_of_mem_take member))
      (fun member => unmarked (List.mem_of_mem_drop member))] at same
  obtain ⟨before, _, behind⟩ := same
  constructor
  · rw [← List.take_append_drop dot left.rule.rhs, before, behind, List.take_append_drop]
  · have length := congrArg List.length before
    rw [List.length_take_of_le inside, List.length_take_of_le within] at length
    rw [atDot, atPlace, length]

/-- The text of an item tells both sides of its rule and the place of the dot. -/
theorem text_inj {rules : List Rule} (legible : ∀ rule ∈ rules, rule.Legible)
    (leftPlaced : left.Placed rules) (rightPlaced : right.Placed rules)
    (same : left.text = right.text) :
    left.rule.lhs = right.rule.lhs ∧ left.rule.rhs = right.rule.rhs ∧ left.dot = right.dot := by
  have leftLegible := legible left.rule leftPlaced.1
  have words : left.shown.map String.toList = right.shown.map String.toList := by
    rw [← words_text leftLegible, ← words_text (legible right.rule rightPlaced.1), same]
  have shown : left.shown = right.shown :=
    List.map_injective_iff.mpr (fun _ _ => String.toList_injective) words
  obtain ⟨lhs, behind⟩ := List.cons.inj shown
  exact ⟨lhs, markedSymbols_inj leftPlaced rightPlaced leftLegible.unmarked
    (List.cons.inj behind).2⟩

end Item

/-! ## The lines of a state -/

/-- No two of the rules have the same two sides. -/
def Rule.Distinct (rules : List Rule) : Prop :=
  (rules.map fun rule => (rule.lhs, rule.rhs)).Nodup

instance (rules : List Rule) : Decidable (Rule.Distinct rules) :=
  inferInstanceAs (Decidable (List.Nodup _))

namespace State

variable {rules : List Rule} {state other : State}

/-- The lines of the text are the texts of the items. -/
theorem lines_text (legible : ∀ rule ∈ rules, rule.Legible) (placed : state.Placed rules)
    (filled : state.items ≠ []) :
    state.text.toList.splitOn '\n' = (state.items.map Item.text).map String.toList := by
  refine Text.splitOn_lines (by simpa using filled) (List.forall_mem_map.mpr fun item member => ?_)
  exact Item.newline_not_mem_text (legible item.rule (placed item member).1)

/-- Where no two rules are written alike, the text of a state tells its key. -/
theorem key_eq_of_text_eq (legible : ∀ rule ∈ rules, rule.Legible) (distinct : Rule.Distinct rules)
    (placed : state.Placed rules) (otherPlaced : other.Placed rules) (filled : state.items ≠ [])
    (otherFilled : other.items ≠ []) (same : state.text = other.text) : state.key = other.key := by
  have lines := congrArg (fun text : String => text.toList.splitOn '\n') same
  simp only [lines_text legible placed filled, lines_text legible otherPlaced otherFilled] at lines
  have texts := List.map_injective_iff.mpr (fun _ _ => String.toList_injective) lines
  rw [state.key_eq, other.key_eq]
  refine congrArg sortKeys (map_eq_map_of_told (fun item member twin there alike => ?_) texts)
  obtain ⟨lhs, rhs, dot⟩ :=
    Item.text_inj legible (placed item member) (otherPlaced twin there) alike
  have rule : item.rule = twin.rule :=
    List.inj_on_of_nodup_map distinct (placed item member).1 (otherPlaced twin there).1
      (Prod.ext lhs rhs)
  rw [Item.key, Item.key, rule, dot]

/-- The arrow of its first item stands in the text of a state. -/
theorem arrow_mem_text (filled : state.items ≠ []) : '→' ∈ state.text.toList := by
  obtain ⟨item, rest, split⟩ := List.exists_cons_of_ne_nil filled
  rw [text, split, List.map_cons, Text.intercalate_cons]
  simp [Item.text]

end State

/-! ## The labels on a canvas -/

namespace Canvas

variable {automaton : Automaton} {layout : Layout} {conflicts : List Conflict}

/-- Where each state has a text, no node hangs on the label for an empty one. -/
theorem node_emptyLabel (filled : ∀ state ∈ automaton.states, state.text ≠ "") (other : String)
    (table : List (Int × Highlight)) (x y : Float) (position : Int) :
    node { layout with emptyLabel := other } automaton table x y position =
      node layout automaton table x y position := by
  unfold node
  cases found : itemAt automaton.states position with
  | error failure => rfl
  | ok state =>
      have text := filled state (mem_of_itemAt found)
      have label : label { layout with emptyLabel := other } state = label layout state :=
        (label_of_text_ne_empty text).trans (label_of_text_ne_empty text).symm
      show Except.ok (Node.mk _ _ x y _ _) = Except.ok (Node.mk _ _ x y _ _)
      rw [label]

theorem draw_emptyLabel (filled : ∀ state ∈ automaton.states, state.text ≠ "") (other : String) :
    draw { layout with emptyLabel := other } automaton conflicts =
      draw layout automaton conflicts := by
  have row : ∀ y, layerNodes { layout with emptyLabel := other } automaton (highlights conflicts) y =
      layerNodes layout automaton (highlights conflicts) y := by
    intro y
    funext layer
    simp only [layerNodes, node_emptyLabel filled]
  simp only [draw, row]
  rfl

/-- Each node shows its own state, by a text that no other node has. -/
structure Labelled (layout : Layout) (grammar : Grammar) (conflicts : List Conflict)
    (canvas : Canvas) : Prop where
  labels : canvas.nodes.map Node.label = grammar.states.map State.text
  nodup : (canvas.nodes.map Node.label).Nodup
  /-- The label for an empty state is not used, so with any other one the canvas is the same. -/
  unused : ∀ other,
    draw { layout with emptyLabel := other } grammar.automaton conflicts = .ok canvas
  /-- Nor does a node look as if it were, unless that label is written with the arrow of items. -/
  proper : '→' ∉ layout.emptyLabel.toList → ∀ node ∈ canvas.nodes, node.label ≠ layout.emptyLabel

end Canvas

example : '→' ∉ ({} : Layout).emptyLabel.toList := by decide

namespace Grammar

namespace Analysed

variable {grammar : Grammar} {endMarker epsilon : Symbol} {accept : Rule}
  (analysed : grammar.Analysed endMarker epsilon accept)
include analysed

theorem nodup_keys : (grammar.states.map State.key).Nodup := by
  rw [states, analysed.automaton_eq]
  exact Ruleset.nodup_keys_statesFrom _ accept

theorem nodup_texts (legible : ∀ rule ∈ grammar.rules, rule.Legible)
    (distinct : Rule.Distinct grammar.rules) : (grammar.states.map State.text).Nodup := by
  refine List.Nodup.map_on (fun state member other there same => ?_) analysed.nodup_keys.of_map
  refine List.inj_on_of_nodup_map analysed.nodup_keys member there ?_
  exact State.key_eq_of_text_eq legible distinct (analysed.placed member) (analysed.placed there)
    (analysed.items_ne_nil member) (analysed.items_ne_nil there) same

theorem labelled {layout : Layout} {conflicts : List Conflict} {canvas : Canvas}
    (nodup : (grammar.states.map State.text).Nodup)
    (drawn : Canvas.draw layout grammar.automaton conflicts = .ok canvas) :
    canvas.Labelled layout grammar conflicts where
  labels := analysed.labels_nodes drawn
  nodup := analysed.labels_nodes drawn ▸ nodup
  unused := fun other => (Canvas.draw_emptyLabel
    (fun _ member => State.text_ne_empty (analysed.items_ne_nil member)) other).trans drawn
  proper := by
    intro plain node member same
    have shown := List.mem_map_of_mem (f := Node.label) member
    rw [analysed.labels_nodes drawn, same] at shown
    obtain ⟨state, inside, text⟩ := List.mem_map.mp shown
    exact plain (text ▸ State.arrow_mem_text (analysed.items_ne_nil inside))

end Analysed

/--
Where no two rules have the same sides and no symbol of a right side looks like the dot, no two
states of the automaton have one text, and none has an empty one.  On each canvas, whatever its
layout and its conflicts, every node shows its state by a label of its own.
-/
theorem labels_tellApart {lines : List String} {endMarker epsilon : Symbol} {grammar : Grammar}
    (built : ofLines lines endMarker epsilon = .ok grammar) (distinct : Rule.Distinct grammar.rules)
    (unmarked : ∀ rule ∈ grammar.rules, dotMarker ∉ rule.rhs) :
    (grammar.states.map State.text).Nodup ∧ (∀ state ∈ grammar.states, state.text ≠ "") ∧
    ∀ layout conflicts, ∃ canvas,
      Canvas.draw layout grammar.automaton conflicts = .ok canvas ∧
        canvas.Labelled layout grammar conflicts := by
  obtain ⟨accept, analysed⟩ := analysed_of_ofLines built
  have legible := Rule.legible_of_readAll (readAll_of_ofLines built) unmarked
  have nodup := analysed.nodup_texts legible distinct
  refine ⟨nodup, fun state member => State.text_ne_empty (analysed.items_ne_nil member),
    fun layout conflicts => ?_⟩
  obtain ⟨canvas, drawn⟩ := Canvas.draw_ok layout conflicts analysed.numbers_of_mem_layers
  exact ⟨canvas, drawn, analysed.labelled nodup drawn⟩

/-- The arrow of items is a symbol here, and the mark of the dot stands on a left side. -/
theorem labels_tellApart_marks :
    ∃ grammar canvas, ofLines ["↑ -> S →", "S -> → S", "S -> ε"] "$" "ε" = .ok grammar ∧
      Rule.Distinct grammar.rules ∧ (∀ rule ∈ grammar.rules, dotMarker ∉ rule.rhs) ∧
      (grammar.states.map State.text).Nodup ∧
      Canvas.draw {} grammar.automaton [] = .ok canvas ∧ canvas.Labelled {} grammar [] ∧
      canvas.nodes.map Node.label = ["↑ → ↑ S →\nS → ↑ → S\nS → ↑", "↑ → S ↑ →",
        "S → → ↑ S\nS → ↑ → S\nS → ↑", "↑ → S → ↑", "S → → S ↑"] ∧
      ∀ node ∈ canvas.nodes, node.label ≠ "New State" := by
  have evaluated : (ofLines ["↑ -> S →", "S -> → S", "S -> ε"] "$" "ε").map
      (fun grammar => (grammar.rules, grammar.states.map State.text)) =
      .ok ([⟨0, "↑", ["S", "→"], "ε"⟩, ⟨1, "S", ["→", "S"], "ε"⟩, ⟨2, "S", [], "ε"⟩],
        ["↑ → ↑ S →\nS → ↑ → S\nS → ↑", "↑ → S ↑ →",
          "S → → ↑ S\nS → ↑ → S\nS → ↑", "↑ → S → ↑", "S → → S ↑"]) := by decide +kernel
  obtain ⟨grammar, built, told⟩ := exists_ok_of_map evaluated
  obtain ⟨rules, texts⟩ := Prod.mk.inj told
  have distinct : Rule.Distinct grammar.rules := by
    rw [rules]
    decide
  have unmarked : ∀ rule ∈ grammar.rules, dotMarker ∉ rule.rhs := by
    rw [rules]
    decide
  obtain ⟨nodup, _, shown⟩ := labels_tellApart built distinct unmarked
  obtain ⟨canvas, drawn, labelled⟩ := shown {} []
  exact ⟨grammar, canvas, built, distinct, unmarked, nodup, drawn, labelled,
    labelled.labels.trans texts, labelled.proper (by decide)⟩

/-- A symbol that looks like the dot makes two states look alike. -/
example : (ofLines ["S -> ↑"] "$" "ε").map (·.states.map State.text) =
    .ok ["S → ↑ ↑", "S → ↑ ↑"] := by decide +kernel

end Grammar

end GrammarWorkbench
