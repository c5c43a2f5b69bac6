import GrammarWorkbench.Proofs.Automaton.Collection
import GrammarWorkbench.Proofs.Breadth.Order

/-!
# The canonical collection in the order of discovery

The automaton has one state for each key that goto reaches and one transition for each
symbol that a state awaits.  Its states are numbered in the order in which the transitions
first lead to them, and each but the first is found from an earlier one.
-/

namespace GrammarWorkbench

/-! ## One item among several -/

/-- Where a test accepts only what one item of a list contributes, the others drop out. -/
theorem filter_flatMap_unique {α β : Type} {items : List α} {parts : α → List β}
    {test : β → Bool} {item : α} (nodup : items.Nodup) (member : item ∈ items)
    (unique : ∀ other ∈ items, ∀ part ∈ parts other, test part = true → other = item) :
    (items.flatMap parts).filter test = (parts item).filter test := by
  obtain ⟨before, after, rfl⟩ := List.append_of_mem member
  have apart := List.nodup_middle.mp nodup
  have dropped : ∀ others : List α, (∀ other ∈ others, other ∈ before ++ after) →
      (others.flatMap parts).filter test = [] := by
    intro others inside
    refine List.filter_eq_nil_iff.mpr fun part contributed accepted => ?_
    obtain ⟨other, here, contribution⟩ := List.mem_flatMap.mp contributed
    have there := inside other here
    have same : other = item := by
      refine unique other ?_ part contribution accepted
      simp only [List.mem_append, List.mem_cons] at there ⊢
      exact there.imp_right .inr
    exact (List.nodup_cons.mp apart).1 (same ▸ there)
  rw [List.flatMap_append, List.flatMap_cons, List.filter_append, List.filter_append,
    dropped before fun _ => List.mem_append_left _, dropped after fun _ => List.mem_append_right _,
    List.nil_append, List.append_nil]

theorem filter_map_unique {α β : Type} {items : List α} {image : α → β} {test : β → Bool}
    {item : α} (nodup : items.Nodup) (member : item ∈ items)
    (accepted : test (image item) = true)
    (unique : ∀ other ∈ items, test (image other) = true → other = item) :
    (items.map image).filter test = [image item] := by
  rw [List.map_eq_flatMap, filter_flatMap_unique nodup member]
  · rw [List.filter_cons_of_pos accepted, List.filter_nil]
  · intro other inside part contributed
    rw [List.mem_singleton.mp contributed]
    exact unique other inside

theorem State.nodup_nextSymbols (state : State) : state.nextSymbols.Nodup :=
  Breadth.nodup_eraseDups _

variable {rules : List Rule} {first : Rule}

theorem State.Placed.readable {state : State} (placed : state.Placed rules) : state.Readable := by
  intro item member
  obtain ⟨_, _, same, _⟩ := placed item member
  exact Item.readable_of_dot same

namespace Ruleset

/-! ## The order of the states -/

theorem closure_start (ruleset : Ruleset) (first : Rule) :
    ruleset.closure [⟨first, 0, false⟩] = .ok (ruleset.startState first) :=
  closure_ok ruleset (List.forall_mem_singleton.mpr (Item.readable_of_natCast first 0 false))

theorem goto_ok {state : State} (placed : state.Placed rules) (symbol : Symbol) :
    (ofRules rules).goto state symbol = .ok ((ofRules rules).gotoState state symbol) :=
  if_pos placed.readable

theorem nodup_keys_statesFrom (ruleset : Ruleset) (first : Rule) :
    ((ruleset.statesFrom first).map State.key).Nodup :=
  Breadth.nodup_keys_reached _ _ _ _

/-- There are no more states than sets of places for dots. -/
theorem length_statesFrom_le (member : first ∈ rules) :
    ((ofRules rules).statesFrom first).length ≤ Nat.pow 2 (ofRules rules).dotPlaces := by
  have card := List.toFinset_card_of_nodup (nodup_keys_statesFrom (ofRules rules) first)
  rw [List.length_map] at card
  rw [← card]
  refine (Finset.card_le_card fun key inside => ?_).trans (card_stateKeys_le (ofRules rules))
  obtain ⟨state, here, rfl⟩ := List.mem_map.mp (List.mem_toFinset.mp inside)
  exact key_mem_stateKeys (placed_of_mem_statesFrom member state here)

theorem position_eq_iff {states : List State} (nodup : (states.map State.key).Nodup) {target : Nat}
    {state : State} (found : states[target]? = some state) {key : List (Int × Int)} :
    position states key = target ↔ key = state.key := by
  obtain ⟨inside, rfl⟩ := List.getElem?_eq_some_iff.mp found
  rw [position, List.findIdx_eq inside]
  constructor
  · exact fun ⟨here, _⟩ => (of_decide_eq_true here).symm
  · rintro rfl
    refine ⟨decide_eq_true rfl, fun earlier less => decide_eq_false fun same => ?_⟩
    have apart := List.pairwise_iff_getElem.mp nodup earlier target
    simp only [List.length_map, List.getElem_map] at apart
    exact apart (less.trans inside) inside less same

/-- States at two positions have different keys. -/
theorem eq_of_key_eq {states : List State} (nodup : (states.map State.key).Nodup)
    {left right : Nat} {state other : State} (found : states[left]? = some state)
    (there : states[right]? = some other) (same : state.key = other.key) : left = right :=
  ((position_eq_iff nodup found).mpr rfl).symm.trans ((position_eq_iff nodup there).mpr same)

theorem statesFrom_zero (ruleset : Ruleset) (first : Rule) :
    (ruleset.statesFrom first)[0]? = some (ruleset.startState first) := by
  obtain ⟨rest, split⟩ := statesFrom_eq_cons ruleset first
  rw [split]
  rfl

/-- The states are the first for each key among the start state and all successors. -/
theorem statesFrom_eq_fresh (member : first ∈ rules) :
    (ofRules rules).statesFrom first = Breadth.fresh State.key []
      ((ofRules rules).startState first ::
        ((ofRules rules).statesFrom first).flatMap (ofRules rules).successors) := by
  refine Breadth.reached_eq_fresh fun state inside => ?_
  show state.key ∈ ((ofRules rules).statesFrom first).map State.key
  cases List.mem_cons.mp inside with
  | inl start =>
      rw [start]
      exact List.mem_map_of_mem (List.mem_of_getElem? (statesFrom_zero _ first))
  | inr behind =>
      obtain ⟨before, reached, symbol, awaited, rfl⟩ := mem_statesBehind.mp behind
      exact statesFrom_closed member before reached symbol awaited

/-- Each state but the first is a successor of an earlier one. -/
theorem exists_earlier_of_statesFrom {ruleset : Ruleset} {target : Nat} {next : State}
    (later : 0 < target) (found : (ruleset.statesFrom first)[target]? = some next) :
    ∃ source state, source < target ∧ (ruleset.statesFrom first)[source]? = some state ∧
      next ∈ ruleset.successors state := by
  refine (Breadth.exists_earlier_of_layersFrom found).resolve_left fun start => ?_
  obtain rfl := List.mem_singleton.mp start
  have zero := eq_of_key_eq (nodup_keys_statesFrom ruleset first) found
    (statesFrom_zero ruleset first) rfl
  omega

/-- The place of the transition that first leads to a state. -/
def firstInto (transitions : List Transition) (target : Nat) : Option Nat :=
  transitions.findIdx? (·.target = (target : Int))

/-- The automaton is the canonical collection of the rules, in the order of discovery. -/
structure Canonical (rules : List Rule) (first : Rule) (automaton : Automaton) : Prop where
  start : ∃ state, automaton.states[0]? = some state ∧
    (ofRules rules).closure [⟨first, 0, false⟩] = .ok state
  nodup_keys : (automaton.states.map State.key).Nodup
  /-- Along each symbol behind a dot leads one transition, to the state that goto makes. -/
  edge : ∀ (source : Nat) (state : State), automaton.states[source]? = some state →
    ∀ item ∈ state.items, ∀ symbol, item.next? = some symbol →
      ∃ (target : Nat) (next reached : State) (kind : TransitionKind),
        automaton.transitions.filter (fun transition =>
            transition.source = (source : Int) ∧ transition.symbol = symbol) =
          [⟨source, target, symbol, kind⟩] ∧
        automaton.states[target]? = some next ∧
        (ofRules rules).goto state symbol = .ok reached ∧ next.key = reached.key ∧
        (kind = .shift ↔ symbol ∈ (ofRules rules).terminals)
  /-- There are no other transitions. -/
  only : ∀ transition ∈ automaton.transitions, ∃ (source : Nat) (state : State),
    transition.source = source ∧ automaton.states[source]? = some state ∧
      ∃ item ∈ state.items, item.next? = some transition.symbol
  /-- Each state but the first is found from an earlier one. -/
  found : ∀ target : Nat, 0 < target → target < automaton.states.length →
    ∃ transition ∈ automaton.transitions,
      transition.source < (target : Int) ∧ transition.target = (target : Int)
  sources : automaton.transitions.Pairwise (·.source ≤ ·.source)
  discovered : ∀ target before after, firstInto automaton.transitions target = some before →
    firstInto automaton.transitions (target + 1) = some after → before < after

/-! ## No way back to the start -/

theorem dot_eq_zero_of_mem_startState {item : Item}
    (member : item ∈ ((ofRules rules).startState first).items) : item.dot = 0 := by
  refine of_mem_closureItems (P := fun item => item.dot = 0) ?_ ?_ item member
  · intro item inside
    rw [List.mem_singleton.mp inside]
  · rintro _ _ _ ⟨rule, _, _, rfl⟩
    rfl

/-- What goto makes of a state holds an item that was moved. -/
theorem exists_moved_mem_gotoState {state : State} {symbol : Symbol}
    (placed : state.Placed rules) (awaited : symbol ∈ state.nextSymbols) :
    ∃ item ∈ ((ofRules rules).gotoState state symbol).items, 0 < item.dot := by
  obtain ⟨before, member, awaits⟩ := State.mem_nextSymbols.mp awaited
  have inside := (closureItems_closed rules (moved state symbol)).1 before.advance
    (mem_moved.mpr ⟨before, member, awaits, rfl⟩)
  obtain ⟨item, here, same⟩ := List.mem_map.mp inside
  obtain ⟨_, dot, atDot, _⟩ := placed before member
  refine ⟨item, here, ?_⟩
  have dots : item.dot = before.dot + 1 := (Prod.mk.inj same).2
  omega

theorem key_gotoState_ne {state : State} {symbol : Symbol} (placed : state.Placed rules)
    (awaited : symbol ∈ state.nextSymbols) :
    ((ofRules rules).gotoState state symbol).key ≠ ((ofRules rules).startState first).key := by
  intro same
  obtain ⟨item, member, positive⟩ := exists_moved_mem_gotoState placed awaited
  have inside := same ▸ State.mem_key.mpr ⟨item, member, rfl⟩
  obtain ⟨other, start, keys⟩ := State.mem_key.mp inside
  have zero := dot_eq_zero_of_mem_startState start
  have dots : other.dot = item.dot := (Prod.mk.inj keys).2
  omega

/-! ## The transitions -/

theorem targets_transitions (ruleset : Ruleset) (first : Rule) :
    (ruleset.automatonFrom first).transitions.map Transition.target =
      ((ruleset.statesFrom first).flatMap ruleset.successors).map
        fun next => (position (ruleset.statesFrom first) next.key : Int) := by
  have unnumbered : ∀ (states : List State) (targets : State → List Int),
      states.zipIdx.flatMap (fun entry => targets entry.1) = states.flatMap targets := by
    intro states targets
    conv_rhs => rw [← List.zipIdx_map_fst 0 states, List.flatMap_map]
  rw [automatonFrom, List.map_flatMap, List.map_flatMap, ← unnumbered]
  refine List.flatMap_congr fun entry _ => ?_
  simp [transitionsOf, successors]

theorem positions_zipIdx_statesFrom (ruleset : Ruleset) (first : Rule) :
    (ruleset.statesFrom first).zipIdx.Pairwise (·.2 < ·.2) := by
  rw [← List.pairwise_map (f := Prod.snd), List.zipIdx_map_snd]
  exact List.pairwise_lt_range'

theorem sources_transitions (ruleset : Ruleset) (first : Rule) :
    (ruleset.automatonFrom first).transitions.Pairwise (·.source ≤ ·.source) := by
  rw [automatonFrom, List.pairwise_flatMap]
  constructor
  · intro entry _
    exact List.pairwise_map.mpr (List.pairwise_of_forall fun _ _ => Int.le_refl _)
  · refine (positions_zipIdx_statesFrom ruleset first).imp ?_
    intro left right less transition fromLeft other fromRight
    obtain ⟨_, _, rfl⟩ := List.mem_map.mp fromLeft
    obtain ⟨_, _, rfl⟩ := List.mem_map.mp fromRight
    exact Int.ofNat_le.mpr (Nat.le_of_lt less)

/-- The transitions that leave a position are those of its state. -/
theorem transitionsFrom_automatonFrom {ruleset : Ruleset} {source : Nat} {state : State}
    (found : (ruleset.statesFrom first)[source]? = some state) :
    (ruleset.automatonFrom first).transitionsFrom source =
      ruleset.transitionsOf (ruleset.statesFrom first) (state, source) := by
  have nodup : (ruleset.statesFrom first).zipIdx.Nodup := by
    refine List.Pairwise.imp ?_ (positions_zipIdx_statesFrom ruleset first)
    rintro left _ less rfl
    exact Nat.lt_irrefl _ less
  have member : (state, source) ∈ (ruleset.statesFrom first).zipIdx :=
    List.mem_zipIdx_iff_getElem?.mpr found
  refine (filter_flatMap_unique nodup member ?_).trans (List.filter_eq_self.mpr ?_)
  · rintro ⟨other, position⟩ inside transition contributed accepted
    obtain ⟨next, _, rfl⟩ := List.mem_map.mp contributed
    have same : position = source := Int.ofNat_inj.mp (of_decide_eq_true accepted)
    subst same
    rw [List.mem_zipIdx_iff_getElem?, found] at inside
    rw [Option.some.inj inside]
  · intro transition contributed
    obtain ⟨next, _, rfl⟩ := List.mem_map.mp contributed
    exact decide_eq_true rfl

/-- Exactly one transition leaves a state along each symbol that it awaits. -/
theorem filter_transitions {ruleset : Ruleset} {source : Nat} {state : State}
    (found : (ruleset.statesFrom first)[source]? = some state) {symbol : Symbol}
    (awaited : symbol ∈ state.nextSymbols) :
    (ruleset.automatonFrom first).transitions.filter
        (fun transition => transition.source = (source : Int) ∧ transition.symbol = symbol) =
      [⟨source, position (ruleset.statesFrom first) (ruleset.gotoState state symbol).key, symbol,
        ruleset.kindOf symbol⟩] := by
  have leaving : (ruleset.automatonFrom first).transitions.filter
        (fun transition => transition.source = (source : Int) ∧ transition.symbol = symbol) =
      ((ruleset.automatonFrom first).transitionsFrom source).filter (·.symbol = symbol) := by
    rw [Automaton.transitionsFrom, List.filter_filter]
    refine List.filter_congr fun transition _ => ?_
    rw [Bool.and_comm, Bool.decide_and]
  rw [leaving, transitionsFrom_automatonFrom found]
  refine filter_map_unique state.nodup_nextSymbols awaited (by simp) fun other _ accepted => ?_
  exact of_decide_eq_true accepted

theorem target_ne_zero (member : first ∈ rules) {transition : Transition}
    (inside : transition ∈ ((ofRules rules).automatonFrom first).transitions) :
    transition.target ≠ 0 := by
  intro zero
  obtain ⟨source, target, state, next, _, sameTarget, found, there, awaited, key⟩ :=
    target_of_mem_transitions member inside
  have same : target = 0 := Int.ofNat_inj.mp (sameTarget.symm.trans zero)
  rw [same, statesFrom_zero] at there
  have placed := placed_of_mem_statesFrom member state (List.mem_of_getElem? found)
  exact key_gotoState_ne placed awaited (Option.some.inj there ▸ key.symm)

/-- A transition leads to a state exactly if goto makes a state with its key. -/
theorem firstInto_eq {ruleset : Ruleset} {target : Nat} {state : State}
    (found : (ruleset.statesFrom first)[target]? = some state) :
    firstInto (ruleset.automatonFrom first).transitions target =
      ((ruleset.statesFrom first).flatMap ruleset.successors).findIdx? (·.key = state.key) := by
  have targets := targets_transitions ruleset first
  have mapped : firstInto (ruleset.automatonFrom first).transitions target =
      ((ruleset.automatonFrom first).transitions.map Transition.target).findIdx?
        (· = (target : Int)) := by
    rw [List.findIdx?_map]
    rfl
  rw [mapped, targets, List.findIdx?_map]
  refine congrArg (List.findIdx? · _) (funext fun next => ?_)
  simp only [Function.comp_apply, Int.ofNat_inj,
    position_eq_iff (nodup_keys_statesFrom ruleset first) found]

/-- A transition leads to a state, and never to the first one. -/
theorem exists_state_of_firstInto (member : first ∈ rules) {target position : Nat}
    (into : firstInto ((ofRules rules).automatonFrom first).transitions target = some position) :
    0 < target ∧ ∃ state, ((ofRules rules).statesFrom first)[target]? = some state := by
  obtain ⟨inside, there, _⟩ := List.findIdx?_eq_some_iff_getElem.mp into
  have leads := of_decide_eq_true there
  obtain ⟨_, place, _, state, _, samePlace, _, found, _, _⟩ :=
    target_of_mem_transitions member (List.getElem_mem inside)
  have same : place = target := Int.ofNat_inj.mp (samePlace.symm.trans leads)
  have nonzero := target_ne_zero member (List.getElem_mem inside)
  exact ⟨by omega, state, same ▸ found⟩

/-- The transitions first lead to the states in their order. -/
theorem firstInto_lt (member : first ∈ rules) {target before after : Nat}
    (into : firstInto ((ofRules rules).automatonFrom first).transitions target = some before)
    (next : firstInto ((ofRules rules).automatonFrom first).transitions (target + 1) =
      some after) : before < after := by
  obtain ⟨positive, state, found⟩ := exists_state_of_firstInto member into
  obtain ⟨_, successor, there⟩ := exists_state_of_firstInto member next
  rw [firstInto_eq found, List.findIdx?_eq_some_iff_findIdx_eq] at into
  rw [firstInto_eq there, List.findIdx?_eq_some_iff_findIdx_eq] at next
  have nodup := nodup_keys_statesFrom (ofRules rules) first
  have zero := statesFrom_zero (ofRules rules) first
  have differs : ∀ {place : Nat} {other : State}, 0 < place →
      ((ofRules rules).statesFrom first)[place]? = some other →
      ¬ ((ofRules rules).startState first).key = other.key := by
    intro place other later here same
    have none := eq_of_key_eq nodup zero here same
    omega
  -- The start state stands before all successors and takes no part in the order of the others.
  have order := Breadth.pairwise_findIdx_fresh State.key []
    ((ofRules rules).startState first ::
      ((ofRules rules).statesFrom first).flatMap (ofRules rules).successors)
  rw [← statesFrom_eq_fresh member] at order
  obtain ⟨foundInside, rfl⟩ := List.getElem?_eq_some_iff.mp found
  obtain ⟨thereInside, rfl⟩ := List.getElem?_eq_some_iff.mp there
  have less := List.pairwise_iff_getElem.mp order target (target + 1) foundInside thereInside
    (Nat.lt_succ_self target)
  simp only [List.findIdx_cons, decide_eq_false (differs positive found),
    decide_eq_false (differs (Nat.succ_pos target) there), cond_false] at less
  omega

theorem kindOf_eq_shift_iff {ruleset : Ruleset} {symbol : Symbol} :
    ruleset.kindOf symbol = .shift ↔ symbol ∈ ruleset.terminals := by
  unfold kindOf
  split
  · rename_i terminal
    exact iff_of_true rfl terminal
  · rename_i other
    exact iff_of_false TransitionKind.noConfusion other

theorem canonical_automatonFrom (member : first ∈ rules) :
    Canonical rules first ((ofRules rules).automatonFrom first) where
  start := ⟨_, statesFrom_zero _ first, closure_start _ first⟩
  nodup_keys := nodup_keys_statesFrom _ first
  edge := by
    intro source state found item inside symbol awaits
    have awaited := State.mem_nextSymbols.mpr ⟨item, inside, awaits⟩
    have stateMember := List.mem_of_getElem? found
    obtain ⟨next, there, same⟩ :=
      getElem?_position (statesFrom_closed member state stateMember symbol awaited)
    exact ⟨_, next, _, _, filter_transitions found awaited, there,
      goto_ok (placed_of_mem_statesFrom member state stateMember) symbol, same,
      kindOf_eq_shift_iff⟩
  only := by
    intro transition inside
    obtain ⟨source, state, symbol, found, awaited, rfl⟩ := mem_transitions.mp inside
    exact ⟨source, state, rfl, found, State.mem_nextSymbols.mp awaited⟩
  found := by
    intro target later inside
    obtain ⟨source, state, earlier, found, follows⟩ :=
      exists_earlier_of_statesFrom later (List.getElem?_eq_getElem inside)
    obtain ⟨symbol, awaited, made⟩ := List.mem_map.mp follows
    refine ⟨_, mem_transitions.mpr ⟨source, state, symbol, found, awaited, rfl⟩,
      Int.ofNat_lt.mpr earlier, Int.ofNat_inj.mpr ?_⟩
    exact (position_eq_iff (nodup_keys_statesFrom _ first)
      (List.getElem?_eq_getElem inside)).mpr (congrArg State.key made)
  sources := sources_transitions _ first
  discovered := fun _ _ _ into next => firstInto_lt member into next

/--
The automaton of the rules that were read is their canonical collection: its states have
different keys and are numbered in the order of discovery, and its transitions are those of
goto, one for each state and each symbol that the state awaits.
-/
theorem automaton_canonical {lines : List String} {epsilon : Symbol}
    (read : Rule.readAll lines epsilon = .ok rules) :
    ∃ first automaton, rules.head? = some first ∧ (ofRules rules).automaton = .ok automaton ∧
      Canonical rules first automaton := by
  obtain ⟨first, rest, split⟩ := List.exists_cons_of_ne_nil (Rule.listed_of_readAll read).ne_nil
  have head : rules.head? = some first := by rw [split]; rfl
  refine ⟨first, (ofRules rules).automatonFrom first, head, ?_,
    canonical_automatonFrom (List.mem_of_head? head)⟩
  rw [automaton, rules_ofRules, split]

/-- A cyclic grammar, whose first symbol stands on a right side and has an empty rule. -/
theorem automaton_canonical_cyclic :
    ∃ rules first automaton, Rule.readAll ["S -> A S b", "S -> ε", "A -> S"] "ε" = .ok rules ∧
      rules.head? = some first ∧ first.rhs = ["A", "S", "b"] ∧
      (ofRules rules).automaton = .ok automaton ∧ Canonical rules first automaton := by
  obtain ⟨rules, same, read⟩ : ∃ rules : List Rule, rules = [⟨0, "S", ["A", "S", "b"], "ε"⟩,
      ⟨1, "S", [], "ε"⟩, ⟨2, "A", ["S"], "ε"⟩] ∧
      Rule.readAll ["S -> A S b", "S -> ε", "A -> S"] "ε" = .ok rules := ⟨_, rfl, by decide⟩
  obtain ⟨first, automaton, head, done, canonical⟩ := automaton_canonical read
  refine ⟨rules, first, automaton, read, head, ?_, done, canonical⟩
  rw [same] at head
  exact Option.some.inj head ▸ rfl

end Ruleset

end GrammarWorkbench
