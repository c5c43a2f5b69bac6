import Mathlib.Data.List.Forall2
import GrammarWorkbench.Proofs.Diagram.Literal
import GrammarWorkbench.Proofs.Text.Digits
import GrammarWorkbench.Proofs.Text.Joined

/-!
# Graphs read line by line

The text of a graph has as many lines as it is made of: none of its parts brings a line end along.
Each line of a state or of a transition has its label in its first literal, with the number of
the state or the two ends of the transition before it.
-/

namespace GrammarWorkbench.Dot

open Text (not_mem_toDigits not_mem_repr)

/-! ## Parts without line ends -/

theorem newline_not_mem_label (text : String) : '\n' ∉ (label text).toList := by
  rw [label, String.toList_ofList]
  exact newline_not_mem_labelChars _

/-! ## Lines of states and transitions -/

variable {style : LabelStyle} {title : String} {automaton : Automaton} {conflicts : List Conflict}
  {conflicted : List Int} {position : Nat} {state : State} {transition : Transition}

/-- What follows the label on the line of a state. -/
def marksText (automaton : Automaton) (conflicted : List Int) (position : Nat) : String :=
  String.join ((stateMarks automaton conflicted position).map (", " ++ ·)) ++ "];"

theorem stateLine_eq (style : LabelStyle) (automaton : Automaton) (conflicted : List Int)
    (state : State) (position : Nat) : stateLine style automaton conflicted (state, position) =
      "  state" ++ toString position ++ " [label=" ++ "\"" ++
        label (stateLabel style position state) ++ "\"" ++
          marksText automaton conflicted position := by
  have quote : "label=\"" = "label=" ++ "\"" := rfl
  have opening : " [label=" = " [" ++ "label=" := rfl
  unfold stateLine marksText
  rw [Text.intercalate_cons, quote, opening]
  simp only [String.append_assoc]

theorem transitionLine_eq (transition : Transition) : transitionLine transition =
    "  state" ++ toString transition.source ++ " -> state" ++ toString transition.target ++
      " [label=" ++ "\"" ++ label transition.symbol ++ "\"" ++
        (edgeStyle transition.kind ++ "];") := by
  have quote : " [label=\"" = " [label=" ++ "\"" := rfl
  unfold transitionLine
  rw [quote]
  simp only [String.append_assoc]

theorem literal?_stateLine (style : LabelStyle) (automaton : Automaton) (conflicted : List Int)
    (state : State) (position : Nat) :
    literal? (stateLine style automaton conflicted (state, position)).toList =
      some ⟨"  state" ++ toString position ++ " [label=", stateLabel style position state,
        marksText automaton conflicted position⟩ := by
  rw [stateLine_eq]
  refine literal?_label ?_ _ _
  simp [not_mem_toDigits]

theorem literal?_transitionLine (transition : Transition) :
    literal? (transitionLine transition).toList =
      some ⟨"  state" ++ toString transition.source ++ " -> state" ++ toString transition.target ++
        " [label=", transition.symbol, edgeStyle transition.kind ++ "];"⟩ := by
  rw [transitionLine_eq]
  refine literal?_label ?_ _ _
  simp [not_mem_repr]

/-- The marks of a state are some of three, in this order. -/
theorem stateMarks_sublist (automaton : Automaton) (conflicted : List Int) (position : Nat) :
    (stateMarks automaton conflicted position).Sublist
      ["style=bold", "peripheries=2", "color=red"] := by
  have chosen : ∀ (condition : Prop) [Decidable condition] (mark : String),
      (if condition then [mark] else []).Sublist [mark] := by
    intro condition _ mark
    split
    · exact .refl _
    · exact List.nil_sublist _
  exact ((chosen _ _).append (chosen _ _)).append (chosen _ _)

theorem literal?_titleLine (title : String) :
    literal? ("digraph \"" ++ label title ++ "\" \x7b").toList =
      some ⟨"digraph ", title, " \x7b"⟩ := by
  have opening : "digraph \"" = "digraph " ++ "\"" := rfl
  have closing : "\" \x7b" = "\"" ++ " \x7b" := rfl
  rw [opening, closing, ← String.append_assoc]
  exact literal?_label (by decide) title " \x7b"

theorem newline_not_mem_marksText : '\n' ∉ (marksText automaton conflicted position).toList := by
  have plain : ∀ mark ∈ ["style=bold", "peripheries=2", "color=red"], '\n' ∉ mark.toList := by
    decide
  have marks : ∀ mark ∈ stateMarks automaton conflicted position, '\n' ∉ mark.toList :=
    fun mark member => plain mark ((stateMarks_sublist automaton conflicted position).subset member)
  simpa [marksText, String.toList_join] using marks

theorem newline_not_mem_lines :
    ∀ line ∈ lines style title automaton conflicts, '\n' ∉ line.toList := by
  intro line member
  simp only [lines, List.mem_append, List.mem_map] at member
  obtain ((inHeader | ⟨⟨state, position⟩, _, rfl⟩) | ⟨transition, _, rfl⟩) | isLast := member
  · simp only [headerLines, List.mem_cons, List.not_mem_nil, or_false] at inHeader
    obtain rfl | rfl | rfl | rfl := inHeader
    · simp [newline_not_mem_label]
    · decide
    · decide
    · decide
  · rw [stateLine_eq]
    simp [newline_not_mem_label, newline_not_mem_marksText, not_mem_toDigits]
  · rw [transitionLine_eq]
    cases transition.kind <;> simp [newline_not_mem_label, not_mem_repr, edgeStyle]
  · rw [List.mem_singleton.mp isLast]
    decide

/-! ## The whole text -/

/-- The text of a graph has its lines as they were made. -/
theorem splitOn_draw (style : LabelStyle) (title : String) (automaton : Automaton)
    (conflicts : List Conflict) :
    (draw style title automaton conflicts).toList.splitOn '\n' =
      (lines style title automaton conflicts).map String.toList := by
  refine Text.splitOn_lines ?_ newline_not_mem_lines
  simp [lines, headerLines]

/-- The line of an item: its left side, an arrow, and its right side with the mark of the dot.  A
dot below zero counts from the end, and the mark stays among the symbols. -/
def Shows (item : Item) (line : String) : Prop :=
  ∃ before behind : List Symbol, before ++ behind = item.rule.rhs ∧
    (0 ≤ item.dot → before.length = min item.dot.toNat item.rule.rhs.length) ∧
    (item.dot < 0 → before.length = (item.rule.rhs.length + item.dot).toNat) ∧
    line = item.rule.lhs ++ " → " ++ " ".intercalate (before ++ "↑" :: behind)

theorem shows_text (item : Item) : Shows item item.text := by
  refine ⟨item.rule.rhs.take item.marker, item.rule.rhs.drop item.marker,
    List.take_append_drop _ _, fun behind => ?_, fun ahead => ?_, rfl⟩
  · rw [List.length_take, Item.marker, if_neg (Int.not_lt.mpr behind)]
    omega
  · rw [List.length_take, Item.marker, if_pos ahead]
    omega

/-- What the label of a state says: its number if labels are compact, and otherwise a heading over
the lines of its items.  A limit other than zero keeps the first lines, with dots for the rest. -/
structure Says (style : LabelStyle) (position : Nat) (shown : List String) (said : String) :
    Prop where
  compact : style.compact = true → said = toString position
  full : style.compact = false → style.limit = 0 ∨ shown.length ≤ style.limit.toNat →
    said = "State " ++ toString position ++ "\n" ++ "\n".intercalate shown
  cut : style.compact = false → style.limit ≠ 0 → style.limit.toNat < shown.length →
    said = "State " ++ toString position ++ "\n" ++
      "\n".intercalate (shown.take style.limit.toNat ++ ["..."])

theorem says_stateLabel (style : LabelStyle) (position : Nat) (state : State) :
    Says style position (state.items.map Item.text) (stateLabel style position state) where
  compact := by
    intro isCompact
    rw [stateLabel, if_pos isCompact]
  full := by
    intro isFull fits
    rw [List.length_map] at fits
    have uncut : ¬ (style.limit ≠ 0 ∧ style.limit.toNat < state.items.length) := by omega
    rw [stateLabel, if_neg (by simp [isFull]), itemLines, if_neg uncut]
  cut := by
    intro isFull limited more
    rw [List.length_map] at more
    rw [stateLabel, if_neg (by simp [isFull]), itemLines, if_pos ⟨limited, more⟩, List.map_take]

/-- The lines show a title, the states in their order and the transitions in theirs. -/
structure Legible (style : LabelStyle) (title : String) (automaton : Automaton)
    (conflicted : List Int) (text : List (List Char)) : Prop where
  length_eq : text.length = 5 + automaton.states.length + automaton.transitions.length
  title : text[0]?.bind literal? = some ⟨"digraph ", title, " \x7b"⟩
  header : (text.drop 1).take 3 = ["  rankdir=LR;",
    "  node [shape=box, fontname=\"Arial\", fontsize=8];",
    "  edge [fontname=\"Arial\", fontsize=8];"].map String.toList
  state : ∀ position state, automaton.states[position]? = some state →
    ∃ shown said, List.Forall₂ Shows state.items shown ∧ Says style position shown said ∧
      text[4 + position]?.bind literal? =
        some ⟨"  state" ++ toString position ++ " [label=", said,
          marksText automaton conflicted position⟩
  transition : ∀ position transition, automaton.transitions[position]? = some transition →
    text[4 + automaton.states.length + position]?.bind literal? =
      some ⟨"  state" ++ toString transition.source ++ " -> state" ++ toString transition.target ++
        " [label=", transition.symbol, edgeStyle transition.kind ++ "];"⟩
  close : text[4 + automaton.states.length + automaton.transitions.length]? = some ['\x7d']

/-- Behind the header come the states, then the transitions. -/
theorem getElem?_lines (style : LabelStyle) (title : String) (automaton : Automaton)
    (conflicts : List Conflict) (index : Nat) :
    (lines style title automaton conflicts)[4 + index]? =
      (automaton.states.zipIdx.map (stateLine style automaton ((highlights conflicts).map (·.1))) ++
        (automaton.transitions.map transitionLine ++ ["\x7d"]))[index]? := by
  have split : lines style title automaton conflicts = headerLines title ++
      (automaton.states.zipIdx.map (stateLine style automaton ((highlights conflicts).map (·.1))) ++
        (automaton.transitions.map transitionLine ++ ["\x7d"])) := by
    simp only [lines, List.append_assoc]
  rw [split, List.getElem?_append_right (Nat.le_add_right 4 index)]
  exact congrArg _ (Nat.add_sub_cancel_left 4 index)

theorem getElem?_state (found : automaton.states[position]? = some state) :
    (lines style title automaton conflicts)[4 + position]? =
      some (stateLine style automaton ((highlights conflicts).map (·.1)) (state, position)) := by
  have inside := (List.getElem?_eq_some_iff.mp found).1
  rw [getElem?_lines, List.getElem?_append_left (by simpa using inside), List.getElem?_map,
    List.getElem?_zipIdx, found]
  simp

/-- Behind the states come the transitions. -/
theorem getElem?_lines_transition (style : LabelStyle) (title : String) (automaton : Automaton)
    (conflicts : List Conflict) (index : Nat) :
    (lines style title automaton conflicts)[4 + automaton.states.length + index]? =
      (automaton.transitions.map transitionLine ++ ["\x7d"])[index]? := by
  rw [Nat.add_assoc, getElem?_lines, List.getElem?_append_right (by simp)]
  simp

/-- The text of a graph can be read line by line. -/
theorem legible_draw (style : LabelStyle) (title : String) (automaton : Automaton)
    (conflicts : List Conflict) :
    Legible style title automaton ((highlights conflicts).map (·.1))
      ((draw style title automaton conflicts).toList.splitOn '\n') := by
  rw [splitOn_draw]
  refine ⟨?_, ?_, rfl, ?_, ?_, ?_⟩
  · rw [List.length_map, length_lines]
    omega
  · have first : (lines style title automaton conflicts)[0]? =
        some ("digraph \"" ++ label title ++ "\" \x7b") := rfl
    rw [List.getElem?_map, first, Option.map_some, Option.bind_some, literal?_titleLine]
  · intro position state found
    have shown : List.Forall₂ Shows state.items (state.items.map Item.text) :=
      List.forall₂_map_right_iff.mpr (List.forall₂_same.mpr fun item _ => shows_text item)
    refine ⟨_, _, shown, says_stateLabel style position state, ?_⟩
    rw [List.getElem?_map, getElem?_state found, Option.map_some, Option.bind_some,
      literal?_stateLine]
  · intro position transition found
    have inside := (List.getElem?_eq_some_iff.mp found).1
    rw [List.getElem?_map, getElem?_lines_transition,
      List.getElem?_append_left (by simpa using inside), List.getElem?_map, found,
      Option.map_some, Option.map_some, Option.bind_some, literal?_transitionLine]
  · rw [List.getElem?_map, getElem?_lines_transition, List.getElem?_append_right (by simp)]
    simp

end GrammarWorkbench.Dot
