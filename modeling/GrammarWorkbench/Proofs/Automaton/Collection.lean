import GrammarWorkbench.Proofs.Automaton.Closure
import GrammarWorkbench.Proofs.Automaton.Key

/-!
# The canonical collection is closed

The items of all states keep their dots within their rules.  There are thus no more
keys than the limit allows layers, so each state behind a collected one is collected,
and the transitions lead from each state along each of its next symbols.
-/

namespace GrammarWorkbench

variable {rules : List Rule}

/-! ## Items in their places -/

theorem Item.next?_eq {item : Item} {dot : Nat} (same : item.dot = dot) :
    item.next? = item.rule.rhs[dot]? := by
  obtain ⟨rule, _, predicted⟩ := item
  subst same
  exact Item.next?_of_natCast rule dot predicted

theorem Item.readable_of_dot {item : Item} {dot : Nat} (same : item.dot = dot) :
    item.Readable := by
  show -(item.rule.rhs.length : Int) ≤ item.dot
  omega

theorem Item.placed_predict {rule : Rule} (member : rule ∈ rules) :
    (Item.predict rule).Placed rules :=
  ⟨member, 0, rfl, Nat.zero_le _⟩

theorem Item.Placed.advance {item : Item} (placed : item.Placed rules) {symbol : Symbol}
    (awaits : item.next? = some symbol) : item.advance.Placed rules := by
  obtain ⟨member, dot, same, _⟩ := placed
  rw [Item.next?_eq same] at awaits
  obtain ⟨inside, _⟩ := List.getElem?_eq_some_iff.mp awaits
  refine ⟨member, dot + 1, ?_, inside⟩
  rw [Item.advance, same, Int.natCast_succ]

/-- All items of the state have their dots in their places. -/
def State.Placed (rules : List Rule) (state : State) : Prop :=
  ∀ item ∈ state.items, item.Placed rules

/-- The state has an item of the rule with the dot at the place. -/
def State.Has (state : State) (rule : Rule) (dot : Nat) : Prop :=
  ∃ item ∈ state.items, item.rule = rule ∧ item.dot = (dot : Int)

theorem State.Has.key_mem {state : State} {rule : Rule} {dot : Nat} (has : state.Has rule dot) :
    (rule.index, (dot : Int)) ∈ state.key := by
  obtain ⟨item, member, rfl, same⟩ := has
  exact State.mem_key.mpr ⟨item, member, by rw [Item.key, same]⟩

/-- A key tells the rule, because no two rules have one index. -/
theorem State.Placed.has_of_key_mem {epsilon : Symbol} (listed : Rule.Listed epsilon rules)
    {state : State} (placed : state.Placed rules) {rule : Rule} (member : rule ∈ rules) {dot : Nat}
    (inside : (rule.index, (dot : Int)) ∈ state.key) : state.Has rule dot := by
  obtain ⟨item, itemMember, same⟩ := State.mem_key.mp inside
  obtain ⟨index, dots⟩ := Prod.mk.inj same
  exact ⟨item, itemMember, listed.eq_of_index_eq (placed item itemMember).1 member index, dots⟩

/-- States with one key have items of the same rules with the dots at the same places. -/
theorem State.exists_twin {epsilon : Symbol} (listed : Rule.Listed epsilon rules)
    {state other : State} (known : ∀ item ∈ state.items, item.rule ∈ rules)
    (otherKnown : ∀ item ∈ other.items, item.rule ∈ rules) (same : state.key = other.key)
    {item : Item} (member : item ∈ state.items) :
    ∃ twin ∈ other.items, twin.rule = item.rule ∧ twin.dot = item.dot := by
  obtain ⟨twin, twinMember, key⟩ :=
    State.mem_key.mp (same ▸ State.mem_key.mpr ⟨item, member, rfl⟩)
  obtain ⟨index, dot⟩ := Prod.mk.inj key
  exact ⟨twin, twinMember,
    listed.eq_of_index_eq (otherKnown twin twinMember) (known item member) index, dot⟩

namespace Ruleset

theorem placed_closureState {items : List Item} (placed : ∀ item ∈ items, item.Placed rules) :
    ((ofRules rules).closureState items).Placed rules := by
  refine of_mem_closureItems placed fun item next _ predicts => ?_
  obtain ⟨rule, member, _, rfl⟩ := predicts
  exact Item.placed_predict member

theorem has_of_mem_items {items : List Item} (placed : ∀ item ∈ items, item.Placed rules)
    {epsilon : Symbol} (listed : Rule.Listed epsilon rules) {item : Item} (member : item ∈ items)
    {dot : Nat} (same : item.dot = dot) :
    ((ofRules rules).closureState items).Has item.rule dot := by
  have inside := (closureItems_closed rules items).1 item member
  rw [← mem_sortKeys, Item.key, same] at inside
  exact (placed_closureState placed).has_of_key_mem listed (placed item member).1 inside

/-- A closure that awaits the left side of a rule has the first item of the rule. -/
theorem has_predict {items : List Item} (placed : ∀ item ∈ items, item.Placed rules)
    {epsilon : Symbol} (listed : Rule.Listed epsilon rules) {outer rule : Rule} {dot : Nat}
    (has : ((ofRules rules).closureState items).Has outer dot) (member : rule ∈ rules)
    (awaits : outer.rhs[dot]? = some rule.lhs) :
    ((ofRules rules).closureState items).Has rule 0 := by
  obtain ⟨item, itemMember, rfl, same⟩ := has
  have next : item.next? = some rule.lhs := (Item.next?_eq same).trans awaits
  have inside := (closureItems_closed rules items).2 item itemMember _ ⟨rule, member, next, rfl⟩
  rw [← mem_sortKeys] at inside
  exact (placed_closureState placed).has_of_key_mem listed member inside

theorem placed_startState {first : Rule} (member : first ∈ rules) :
    ((ofRules rules).startState first).Placed rules := by
  refine placed_closureState fun item inside => ?_
  obtain rfl := List.mem_singleton.mp inside
  exact ⟨member, 0, rfl, Nat.zero_le _⟩

theorem placed_gotoState {state : State} (placed : state.Placed rules) (symbol : Symbol) :
    ((ofRules rules).gotoState state symbol).Placed rules := by
  refine placed_closureState fun item inside => ?_
  obtain ⟨before, member, awaits, rfl⟩ := mem_moved.mp inside
  exact (placed before member).advance awaits

/-! ## The states -/

variable {first : Rule}

theorem mem_statesBehind {ruleset : Ruleset} {states : List State} {next : State} :
    next ∈ ruleset.statesBehind states ↔
      ∃ state ∈ states, ∃ symbol ∈ state.nextSymbols, next = ruleset.gotoState state symbol := by
  simp [statesBehind, successors, eq_comm]

theorem placed_of_mem_statesFrom (member : first ∈ rules) :
    ∀ state ∈ (ofRules rules).statesFrom first, state.Placed rules := by
  refine Breadth.of_mem_reached (fun layer holds next inside => ?_) fun state inside => ?_
  · obtain ⟨state, stateMember, symbol, _, rfl⟩ := mem_statesBehind.mp inside
    exact placed_gotoState (holds state stateMember) symbol
  · rw [List.mem_singleton.mp inside]
    exact placed_startState member

/-- No state lists a rule with its dot at one place twice. -/
theorem nodup_items_of_mem_statesFrom {ruleset : Ruleset} :
    ∀ state ∈ ruleset.statesFrom first, (state.items.map Item.key).Nodup := by
  refine Breadth.of_mem_reached (fun layer _ next inside => ?_) fun state inside => ?_
  · obtain ⟨state, _, symbol, _, rfl⟩ := mem_statesBehind.mp inside
    exact Breadth.nodup_keys_reached _ _ _ _
  · rw [List.mem_singleton.mp inside]
    exact Breadth.nodup_keys_reached _ _ _ _

/-- The collection begins with the start state. -/
theorem statesFrom_eq_cons (ruleset : Ruleset) (first : Rule) :
    ∃ rest, ruleset.statesFrom first = ruleset.startState first :: rest :=
  Breadth.reached_singleton (Nat.pow_pos (by decide)) _

/-- What goto makes of a collected state has the key of a collected state. -/
theorem statesFrom_closed (member : first ∈ rules) :
    ∀ state ∈ (ofRules rules).statesFrom first, ∀ symbol ∈ state.nextSymbols,
      ((ofRules rules).gotoState state symbol).key ∈
        ((ofRules rules).statesFrom first).map State.key := by
  have closed := Breadth.covered_layersFrom
    (fun layer state inside next (edge : ∃ symbol ∈ state.nextSymbols,
        next = (ofRules rules).gotoState state symbol) =>
      mem_statesBehind.mpr ⟨state, inside, edge⟩)
    (fun layer holds next inside => by
      obtain ⟨state, stateMember, symbol, _, rfl⟩ := mem_statesBehind.mp inside
      exact placed_gotoState (holds state stateMember) symbol)
    (fun state (placed : state.Placed rules) => key_mem_stateKeys placed)
    [] (fun state inside => List.mem_singleton.mp inside ▸ placed_startState member)
    (card_stateKeys_le (ofRules rules))
  intro state inside symbol next
  exact (closed.2 state inside _ ⟨symbol, next, rfl⟩).resolve_left List.not_mem_nil

/-! ## The transitions -/

theorem getElem?_position {states : List State} {key : List (Int × Int)}
    (member : key ∈ states.map State.key) :
    ∃ state, states[position states key]? = some state ∧ state.key = key := by
  obtain ⟨state, inside, same⟩ := List.mem_map.mp member
  have found : position states key < states.length :=
    List.findIdx_lt_length_of_exists ⟨state, inside, by simpa using same⟩
  refine ⟨states[position states key], List.getElem?_eq_getElem found, ?_⟩
  exact of_decide_eq_true (List.findIdx_getElem (w := found))

theorem mem_transitions {ruleset : Ruleset} {transition : Transition} :
    transition ∈ (ruleset.automatonFrom first).transitions ↔
      ∃ (source : Nat) (state : State) (symbol : Symbol),
        (ruleset.statesFrom first)[source]? = some state ∧ symbol ∈ state.nextSymbols ∧
        transition = ⟨source, position (ruleset.statesFrom first)
          (ruleset.gotoState state symbol).key, symbol, ruleset.kindOf symbol⟩ := by
  simp only [automatonFrom, List.mem_flatMap, transitionsOf, List.mem_map, Prod.exists,
    List.mem_zipIdx_iff_getElem?]
  constructor
  · rintro ⟨state, source, found, symbol, next, rfl⟩
    exact ⟨source, state, symbol, found, next, rfl⟩
  · rintro ⟨source, state, symbol, found, next, rfl⟩
    exact ⟨state, source, found, symbol, next, rfl⟩

/-- A transition leads from a state that awaits its symbol to the state that goto makes of it. -/
theorem target_of_mem_transitions (member : first ∈ rules) {transition : Transition}
    (inside : transition ∈ ((ofRules rules).automatonFrom first).transitions) :
    ∃ (source target : Nat) (state next : State),
      transition.source = source ∧ transition.target = target ∧
      ((ofRules rules).statesFrom first)[source]? = some state ∧
      ((ofRules rules).statesFrom first)[target]? = some next ∧
      transition.symbol ∈ state.nextSymbols ∧
      next.key = ((ofRules rules).gotoState state transition.symbol).key := by
  obtain ⟨source, state, symbol, found, awaited, rfl⟩ := mem_transitions.mp inside
  have stateMember := List.mem_of_getElem? found
  obtain ⟨next, there, same⟩ :=
    getElem?_position (statesFrom_closed member state stateMember symbol awaited)
  exact ⟨source, _, state, next, rfl, rfl, found, there, awaited, same⟩

end Ruleset

end GrammarWorkbench
