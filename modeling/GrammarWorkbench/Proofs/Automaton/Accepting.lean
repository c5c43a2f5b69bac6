import GrammarWorkbench.Proofs.Automaton.Canonical
import GrammarWorkbench.Proofs.Conflict.Exact

/-!
# The state that accepts

Reading the right side of the accept rule leads from the first state to one in which the rule is
complete, so there is a state that accepts.  Where the left side of the accept rule stands on no
right side, the rule is valid behind its own symbols only, and no other state accepts.
-/

namespace GrammarWorkbench

/-- All symbols of the rule have been read in the state. -/
def State.Completes (state : State) (rule : Rule) : Prop :=
  ∃ item ∈ state.items, item.rule = rule ∧ item.isComplete

variable {rules : List Rule} {first rule : Rule} {path : List Symbol} {state : State}

theorem State.Placed.completes_iff (placed : state.Placed rules) :
    state.Completes rule ↔ state.Has rule rule.rhs.length := by
  constructor
  · rintro ⟨item, member, rfl, complete⟩
    exact ⟨item, member, rfl, (placed item member).dot_of_isComplete complete⟩
  · rintro ⟨item, member, rfl, same⟩
    exact ⟨item, member, rfl, decide_eq_true (Int.le_of_eq same.symm)⟩

/-- A state completes the rules that are valid behind its path with their dots at the end. -/
theorem State.Describes.completes_iff (describes : state.Describes rules path) :
    state.Completes rule ↔ ValidItem rules path rule rule.rhs.length := by
  rw [describes.placed.completes_iff]
  constructor
  · rintro ⟨item, member, rfl, same⟩
    obtain ⟨dot, atDot, valid⟩ := describes.sound item member
    exact Int.ofNat_inj.mp (same.symm.trans atDot) ▸ valid
  · exact describes.complete rule _

/-! ## Where the accept rule is valid -/

/-- The accept rule has no left context but the empty one if its left side is never awaited. -/
theorem LeftContext.eq_nil (reached : LeftContext rules path rule)
    (unused : ∀ outer ∈ rules, rule.lhs ∉ outer.rhs) : path = [] := by
  cases reached with
  | root first => rfl
  | inner outside member occurs =>
      exact absurd (occurs ▸ List.mem_append_right _ List.mem_cons_self) (unused _ outside.mem)

theorem ValidItem.path_eq {dot : Nat} (valid : ValidItem rules path rule dot)
    (unused : ∀ outer ∈ rules, rule.lhs ∉ outer.rhs) : path = rule.rhs.take dot := by
  obtain ⟨context, reached, _, rfl⟩ := valid
  rw [reached.eq_nil unused, List.nil_append]

/-! ## Paths to the states -/

namespace Ruleset

/-- No two transitions leave a state along one symbol. -/
theorem transition_unique {ruleset : Ruleset} {left right : Transition}
    (leftMember : left ∈ (ruleset.automatonFrom first).transitions)
    (rightMember : right ∈ (ruleset.automatonFrom first).transitions)
    (sameSource : left.source = right.source) (sameSymbol : left.symbol = right.symbol) :
    left = right := by
  obtain ⟨source, state, symbol, found, _, rfl⟩ := mem_transitions.mp leftMember
  obtain ⟨other, otherState, otherSymbol, there, _, rfl⟩ := mem_transitions.mp rightMember
  obtain rfl : source = other := Int.ofNat_inj.mp sameSource
  obtain rfl : symbol = otherSymbol := sameSymbol
  obtain rfl : state = otherState := Option.some.inj (found.symm.trans there)
  rfl

/-- A path leads to one state only. -/
theorem path_unique {ruleset : Ruleset} {left right : Int}
    (toLeft : (ruleset.automatonFrom first).Path 0 path left)
    (toRight : (ruleset.automatonFrom first).Path 0 path right) : left = right := by
  induction toLeft generalizing right with
  | nil =>
      generalize same : ([] : List Symbol) = path at toRight
      cases toRight with
      | nil => rfl
      | snoc _ _ => simp at same
  | @snoc path transition _ member ih =>
      generalize same : path ++ [transition.symbol] = whole at toRight
      cases toRight with
      | nil => simp at same
      | snoc walk inside =>
          obtain ⟨rfl, last⟩ := List.append_inj' same rfl
          exact congrArg Transition.target
            (transition_unique member inside (ih walk) (List.cons.inj last).1)

/-- A path leads to each state. -/
theorem exists_path_to (ruleset : Ruleset) (first : Rule) {target : Nat} {state : State}
    (found : (ruleset.statesFrom first)[target]? = some state) :
    ∃ path, (ruleset.automatonFrom first).Path 0 path target := by
  induction target using Nat.strongRecOn generalizing state with
  | ind target ih =>
      rcases Nat.eq_zero_or_pos target with rfl | later
      · exact ⟨[], .nil⟩
      · obtain ⟨source, before, earlier, there, follows⟩ :=
          exists_earlier_of_statesFrom later found
        obtain ⟨symbol, awaited, made⟩ := List.mem_map.mp follows
        obtain ⟨path, walk⟩ := ih source earlier there
        have edge := mem_transitions.mpr ⟨source, before, symbol, there, awaited, rfl⟩
        have leads : position (ruleset.statesFrom first) (ruleset.gotoState before symbol).key =
            target :=
          (position_eq_iff (nodup_keys_statesFrom _ first) found).mpr (congrArg State.key made)
        exact ⟨path ++ [symbol], leads ▸ Automaton.Path.snoc walk edge⟩

end Ruleset

namespace Grammar

/-- The state at the position accepts, and is the one that the grammar names. -/
structure AcceptsAt (grammar : Grammar) (accept : Rule) (target : Nat) : Prop where
  named : grammar.automaton.acceptState = some (target : Int)
  completes : ∃ state, grammar.states[target]? = some state ∧ state.Completes accept

/-- No other state accepts, and the right side of the accept rule leads to this one. -/
structure AcceptsOnlyAt (grammar : Grammar) (accept : Rule) (target : Nat) : Prop where
  only : ∀ (position : Nat) (state : State), grammar.states[position]? = some state →
    (state.Completes accept ↔ position = target)
  path_iff : ∀ reached : Int,
    grammar.automaton.Path 0 accept.rhs reached ↔ reached = (target : Int)

namespace Analysed

variable {grammar : Grammar} {endMarker epsilon : Symbol} {accept : Rule}
  (analysed : grammar.Analysed endMarker epsilon accept)
include analysed

/-- Each state describes a path that leads to it. -/
theorem exists_path_describes {position : Nat} (found : grammar.states[position]? = some state) :
    ∃ path, grammar.automaton.Path 0 path position ∧ state.Describes grammar.rules path := by
  rw [states, analysed.automaton_eq] at found
  obtain ⟨path, walk⟩ := Ruleset.exists_path_to _ accept found
  obtain ⟨place, other, same, there, describes⟩ :=
    Ruleset.describes_of_path analysed.listed analysed.head walk
  obtain rfl := Int.ofNat_inj.mp same
  obtain rfl := Option.some.inj (found.symm.trans there)
  exact ⟨path, analysed.automaton_eq ▸ walk, describes⟩

theorem path_unique {left right : Int} (toLeft : grammar.automaton.Path 0 path left)
    (toRight : grammar.automaton.Path 0 path right) : left = right := by
  rw [analysed.automaton_eq] at toLeft toRight
  exact Ruleset.path_unique toLeft toRight

theorem accepts_iff (found : state ∈ grammar.states) :
    Ruleset.accepts accept state = true ↔ state.Completes accept := by
  have placed := analysed.placed found
  simp only [Ruleset.accepts, List.any_eq_true, Bool.and_eq_true, decide_eq_true_eq]
  constructor
  · rintro ⟨item, member, same, complete⟩
    exact ⟨item, member, analysed.listed.eq_of_index_eq (placed item member).1
      (List.mem_of_head? analysed.head) same.1, complete⟩
  · rintro ⟨item, member, rfl, complete⟩
    exact ⟨item, member, .refl _, complete⟩

/-- The right side of the accept rule leads to a state that completes it. -/
theorem exists_path_completes : ∃ (position : Nat) (state : State),
    grammar.automaton.Path 0 accept.rhs position ∧
      grammar.states[position]? = some state ∧ state.Completes accept := by
  have valid : ValidItem grammar.rules accept.rhs accept accept.rhs.length :=
    (LeftContext.root analysed.head).validItem.complete
  obtain ⟨target, walk⟩ := Ruleset.exists_path_of_validItem analysed.listed analysed.head valid
  obtain ⟨position, state, rfl, found, describes⟩ :=
    Ruleset.describes_of_path analysed.listed analysed.head walk
  rw [← analysed.automaton_eq] at walk
  refine ⟨position, state, walk, ?_, describes.completes_iff.mpr valid⟩
  rw [states, analysed.automaton_eq]
  exact found

theorem exists_acceptsAt : ∃ target, grammar.AcceptsAt accept target := by
  obtain ⟨position, state, _, found, completes⟩ := analysed.exists_path_completes
  have member := List.mem_of_getElem? found
  have searched : grammar.automaton.acceptState =
      (grammar.states.findIdx? (Ruleset.accepts accept)).map Int.ofNat := by
    rw [states, analysed.automaton_eq]
    rfl
  cases place : grammar.states.findIdx? (Ruleset.accepts accept) with
  | none =>
      have none := List.findIdx?_eq_none_iff.mp place state member
      rw [(analysed.accepts_iff member).mpr completes] at none
      cases none
  | some target =>
      obtain ⟨inside, accepts, _⟩ := List.findIdx?_eq_some_iff_getElem.mp place
      refine ⟨target, by rw [searched, place]; rfl, _, List.getElem?_eq_getElem inside, ?_⟩
      exact (analysed.accepts_iff (List.getElem_mem inside)).mp accepts

/-- A state that completes the accept rule ends its right side, if nothing awaits the rule. -/
theorem path_of_completes (unused : ∀ rule ∈ grammar.rules, accept.lhs ∉ rule.rhs)
    {position : Nat} (found : grammar.states[position]? = some state)
    (completes : state.Completes accept) : grammar.automaton.Path 0 accept.rhs position := by
  obtain ⟨path, walk, describes⟩ := analysed.exists_path_describes found
  have whole := (describes.completes_iff.mp completes).path_eq unused
  rw [List.take_length] at whole
  exact whole ▸ walk

theorem acceptsOnlyAt {target : Nat} (accepts : grammar.AcceptsAt accept target)
    (unused : ∀ rule ∈ grammar.rules, accept.lhs ∉ rule.rhs) :
    grammar.AcceptsOnlyAt accept target := by
  obtain ⟨state, found, completes⟩ := accepts.completes
  have walk := analysed.path_of_completes unused found completes
  refine ⟨fun position other there => ⟨fun also => ?_, ?_⟩, fun reached => ⟨fun also => ?_, ?_⟩⟩
  · have same := analysed.path_unique (analysed.path_of_completes unused there also) walk
    exact Int.ofNat_inj.mp same
  · rintro rfl
    exact Option.some.inj (found.symm.trans there) ▸ completes
  · exact analysed.path_unique also walk
  · rintro rfl
    exact walk

end Analysed

/--
A grammar names a state that accepts.  If the left side of its accept rule stands on no right
side, this state alone accepts, and it is the one behind the right side of the accept rule.
-/
theorem acceptState_exact {lines : List String} {endMarker epsilon : Symbol} {grammar : Grammar}
    (built : ofLines lines endMarker epsilon = .ok grammar) :
    ∃ accept target, grammar.rules.head? = some accept ∧ grammar.AcceptsAt accept target ∧
      ((∀ rule ∈ grammar.rules, accept.lhs ∉ rule.rhs) →
        grammar.AcceptsOnlyAt accept target) := by
  obtain ⟨accept, analysed⟩ := analysed_of_ofLines built
  obtain ⟨target, accepts⟩ := analysed.exists_acceptsAt
  exact ⟨accept, target, analysed.head, accepts, analysed.acceptsOnlyAt accepts⟩

/-- Another rule has the right side of the accept rule and may be complete where it is. -/
theorem acceptState_exact_shared :
    ∃ grammar accept target, ofLines ["A -> B $", "B -> B $", "B -> ε"] "$" "ε" = .ok grammar ∧
      accept.rhs = ["B", "$"] ∧ (∀ rule ∈ grammar.rules, accept.lhs ∉ rule.rhs) ∧
      grammar.AcceptsAt accept target ∧ grammar.AcceptsOnlyAt accept target := by
  have evaluated : (ofLines ["A -> B $", "B -> B $", "B -> ε"] "$" "ε").map rules =
      .ok [⟨0, "A", ["B", "$"], "ε"⟩, ⟨1, "B", ["B", "$"], "ε"⟩, ⟨2, "B", [], "ε"⟩] := by
    decide +kernel
  obtain ⟨grammar, built, listed⟩ := exists_ok_of_map evaluated
  obtain ⟨accept, target, head, accepts, only⟩ := acceptState_exact built
  rw [listed] at head
  obtain rfl := Option.some.inj head
  have unused : ∀ rule ∈ grammar.rules, "A" ∉ rule.rhs := by
    rw [listed]
    decide
  exact ⟨grammar, _, target, built, rfl, unused, accepts, only unused⟩

end Grammar

end GrammarWorkbench
