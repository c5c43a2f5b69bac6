import GrammarWorkbench.Proofs.Automaton.Canonical
import GrammarWorkbench.Proofs.Breadth.Image

/-!
# Rules that are reached

The first rule is reached, and with a rule those for each symbol on its right side.  Rules that
are not reached may stand behind the others: whatever stands behind a dot of the automaton is on
the right side of a rule that is reached, so the closures, the states and the transitions are
made as without them.
-/

namespace GrammarWorkbench

namespace Rule

/-- The rules that the first one leads to. -/
inductive Reached (rules : List Rule) : Rule → Prop
  | first {rule : Rule} (head : rules.head? = some rule) : Reached rules rule
  | behind {outer rule : Rule} (reached : Reached rules outer) (member : rule ∈ rules)
      (used : rule.lhs ∈ outer.rhs) : Reached rules rule

/-- The symbol is on the right side of a rule that is reached. -/
def Used (rules : List Rule) (symbol : Symbol) : Prop :=
  ∃ rule, Reached rules rule ∧ symbol ∈ rule.rhs

/-- Further rules that are not reached, and that make no nonterminal of a terminal. -/
structure Idle (rules extra : List Rule) : Prop where
  not_reached : ∀ rule ∈ extra, ¬ Reached (rules ++ extra) rule
  not_terminal : ∀ rule ∈ extra, rule.lhs ∉ (Ruleset.ofRules rules).terminals

variable {rules extra : List Rule} {symbol : Symbol}

theorem Reached.mem {rule : Rule} (reached : Reached rules rule) : rule ∈ rules := by
  cases reached with
  | first head => exact List.mem_of_head? head
  | behind _ member _ => exact member

/-- Rules that the first one is among and that lead only to each other are all that is reached. -/
theorem Reached.mem_of_closed {kept : List Rule} (head : ∀ rule ∈ rules.head?, rule ∈ kept)
    (closed : ∀ outer ∈ kept, ∀ rule ∈ rules, rule.lhs ∈ outer.rhs → rule ∈ kept) {rule : Rule}
    (reached : Reached rules rule) : rule ∈ kept := by
  induction reached with
  | first here => exact head _ here
  | behind _ member used ih => exact closed _ ih _ member used

theorem Used.reached (used : Used rules symbol) {rule : Rule} (member : rule ∈ rules)
    (same : rule.lhs = symbol) : Reached rules rule := by
  obtain ⟨outer, reached, inside⟩ := used
  exact .behind reached member (same ▸ inside)

theorem Idle.mem_of_reached (idle : Idle rules extra) {rule : Rule}
    (reached : Reached (rules ++ extra) rule) : rule ∈ rules :=
  (List.mem_append.mp reached.mem).resolve_right fun further =>
    idle.not_reached rule further reached

/-- No further rule has a symbol as its left side that is used. -/
theorem Idle.lhs_ne (idle : Idle rules extra) (used : Used (rules ++ extra) symbol) :
    ∀ rule ∈ extra, rule.lhs ≠ symbol := fun rule member same =>
  idle.not_reached rule member (used.reached (List.mem_append_right _ member) same)

/-- Rules that lead only to each other leave the others idle. -/
theorem Idle.of_closed (kept : List Rule) (head : ∀ rule ∈ (rules ++ extra).head?, rule ∈ kept)
    (closed : ∀ outer ∈ kept, ∀ rule ∈ rules ++ extra, rule.lhs ∈ outer.rhs → rule ∈ kept)
    (apart : ∀ rule ∈ extra, rule ∉ kept)
    (not_terminal : ∀ rule ∈ extra, rule.lhs ∉ (Ruleset.ofRules rules).terminals) :
    Idle rules extra :=
  ⟨fun rule member reached => apart rule member (reached.mem_of_closed head closed), not_terminal⟩

end Rule

namespace Ruleset

open Rule (Reached Used Idle)

variable {rules extra : List Rule} {symbol : Symbol}

/-! ## Symbols -/

theorem mem_nonterminals_append :
    symbol ∈ (ofRules (rules ++ extra)).nonterminals ↔
      symbol ∈ (ofRules rules).nonterminals ∨ ∃ rule ∈ extra, rule.lhs = symbol := by
  simp only [ofRules, mem_leftSides, List.mem_append, or_and_right, exists_or]

theorem mem_nonterminals_of_used (idle : Idle rules extra) (used : Used (rules ++ extra) symbol) :
    symbol ∈ (ofRules (rules ++ extra)).nonterminals ↔ symbol ∈ (ofRules rules).nonterminals := by
  rw [mem_nonterminals_append, or_iff_left]
  exact fun ⟨rule, member, same⟩ => idle.lhs_ne used rule member same

theorem mem_terminals_of_used (idle : Idle rules extra) (used : Used (rules ++ extra) symbol) :
    symbol ∈ (ofRules (rules ++ extra)).terminals ↔ symbol ∈ (ofRules rules).terminals := by
  have nonterminal := mem_nonterminals_of_used idle used
  obtain ⟨rule, reached, inside⟩ := used
  have here : ∃ rule ∈ rules, symbol ∈ rule.rhs := ⟨rule, idle.mem_of_reached reached, inside⟩
  have there : ∃ rule ∈ rules ++ extra, symbol ∈ rule.rhs := ⟨rule, reached.mem, inside⟩
  exact mem_rightOnly.trans ((and_congr (iff_of_true there here) (not_congr nonterminal)).trans
    mem_rightOnly.symm)

theorem kindOf_of_used (idle : Idle rules extra) (used : Used (rules ++ extra) symbol) :
    (ofRules (rules ++ extra)).kindOf symbol = (ofRules rules).kindOf symbol := by
  simp only [kindOf, mem_terminals_of_used idle used]

theorem predicted_of_used (idle : Idle rules extra) (used : Used (rules ++ extra) symbol) :
    (ofRules (rules ++ extra)).predicted symbol = (ofRules rules).predicted symbol := by
  have none : extra.filter (·.lhs = symbol) = [] :=
    List.filter_eq_nil_iff.mpr fun rule member same =>
      idle.lhs_ne used rule member (of_decide_eq_true same)
  simp only [predicted, rulesOf, rules_ofRules, List.filter_append, none, List.append_nil]

/-! ## Closures -/

theorem used_of_next? {item : Item} (reached : Reached rules item.rule)
    (awaits : item.next? = some symbol) : Used rules symbol := by
  refine ⟨item.rule, reached, ?_⟩
  unfold Item.next? itemAt? at awaits
  split at awaits
  · cases awaits
  · split at awaits
    · exact List.mem_of_getElem? awaits
    · split at awaits
      · exact List.mem_of_getElem? awaits
      · cases awaits

theorem predictions_of_reached (idle : Idle rules extra) {items : List Item}
    (reached : ∀ item ∈ items, Reached (rules ++ extra) item.rule) :
    (ofRules (rules ++ extra)).predictions items = (ofRules rules).predictions items := by
  have used : ∀ symbol ∈ items.filterMap Item.next?, Used (rules ++ extra) symbol := by
    intro symbol member
    obtain ⟨item, inside, awaits⟩ := List.mem_filterMap.mp member
    exact used_of_next? (reached item inside) awaits
  have awaited : (ofRules (rules ++ extra)).awaited items = (ofRules rules).awaited items := by
    refine congrArg List.eraseDups (List.filter_congr fun symbol member => ?_)
    exact decide_eq_decide.mpr (mem_nonterminals_of_used idle (used symbol member))
  rw [predictions, awaited]
  refine List.flatMap_congr fun symbol member => predicted_of_used idle ?_
  obtain ⟨_, item, inside, awaits⟩ := mem_awaited.mp member
  exact used symbol (List.mem_filterMap.mpr ⟨item, inside, awaits⟩)

theorem reached_of_predicts {item next : Item} (reached : Reached rules item.rule)
    (predicts : Predicts rules item next) : Reached rules next.rule := by
  obtain ⟨rule, member, awaits, rfl⟩ := predicts
  exact (used_of_next? reached awaits).reached member rfl

/-- A closure does not depend on the limit once it leaves room for all rules. -/
theorem closureItems_limit (items : List Item) {limit : Nat} (enough : rules.length ≤ limit) :
    (ofRules rules).closureItems items =
      Breadth.reached Item.key (ofRules rules).predictions (limit + 1) items := by
  unfold closureItems Breadth.reached Breadth.layers
  by_cases none : Breadth.fresh Item.key [] items = []
  · rw [Breadth.layersFrom_of_fresh_eq_nil none, Breadth.layersFrom_of_fresh_eq_nil none]
  · rw [Breadth.layersFrom_succ none, Breadth.layersFrom_succ none]
    have predicted : ∀ layer, ∀ item ∈ (ofRules rules).predictions layer,
        ∃ rule ∈ rules, item = Item.predict rule := by
      intro layer item member
      obtain ⟨_, _, rule, inside, _, same⟩ := mem_predictions_ofRules.mp member
      exact ⟨rule, inside, same⟩
    have count : (rules.map fun rule => (Item.predict rule).key).toFinset.card ≤ rules.length :=
      (List.toFinset_card_le _).trans (Nat.le_of_eq (List.length_map _))
    refine congrArg (fun layers => List.flatten (_ :: layers)) (Breadth.layersFrom_limit
      (rules.map fun rule => (Item.predict rule).key).toFinset ?_ (fun layer _ => predicted layer)
      (predicted _) ?_ ?_)
    · rintro _ ⟨rule, member, rfl⟩
      exact List.mem_toFinset.mpr (List.mem_map_of_mem member)
    · exact count
    · exact count.trans enough

/-- Rules that are not reached have no part in a closure. -/
theorem closureItems_of_reached (idle : Idle rules extra) {items : List Item}
    (reached : ∀ item ∈ items, Reached (rules ++ extra) item.rule) :
    (ofRules (rules ++ extra)).closureItems items = (ofRules rules).closureItems items := by
  rw [closureItems_limit items (List.length_append ▸ Nat.le_add_right _ _ :
    rules.length ≤ (rules ++ extra).length)]
  refine congrArg List.flatten (Breadth.layersFrom_congr_behind (fun layer layerReached => ?_)
    reached _ [])
  refine ⟨fun next member => ?_, fun seen => ?_⟩
  · obtain ⟨item, inside, predicts⟩ := mem_predictions_ofRules.mp member
    exact reached_of_predicts (layerReached item inside) predicts
  · rw [predictions_of_reached idle layerReached]

end Ruleset

/-! ## States -/

/-- The items of the state are of rules that are reached. -/
def State.Reached (rules : List Rule) (state : State) : Prop :=
  ∀ item ∈ state.items, Rule.Reached rules item.rule

namespace Ruleset

open Rule (Reached Used Idle)

variable {rules extra : List Rule} {symbol : Symbol} {state : State} {first : Rule}

theorem used_of_mem_nextSymbols (reached : state.Reached rules)
    (awaited : symbol ∈ state.nextSymbols) : Used rules symbol := by
  obtain ⟨item, member, awaits⟩ := State.mem_nextSymbols.mp awaited
  exact used_of_next? (reached item member) awaits

theorem reached_closureState {items : List Item}
    (reached : ∀ item ∈ items, Reached rules item.rule) :
    ((ofRules rules).closureState items).Reached rules :=
  of_mem_closureItems reached fun _ _ here predicts => reached_of_predicts here predicts

theorem reached_moved (reached : state.Reached rules) (symbol : Symbol) :
    ∀ item ∈ moved state symbol, Reached rules item.rule := by
  intro item member
  obtain ⟨before, inside, _, rfl⟩ := mem_moved.mp member
  exact reached before inside

theorem reached_start (head : rules.head? = some first) :
    ∀ item ∈ [Item.mk first 0 false], Reached rules item.rule := by
  intro item member
  rw [List.mem_singleton.mp member]
  exact .first head

theorem reached_statesBehind {states : List State}
    (reached : ∀ state ∈ states, state.Reached rules) :
    ∀ next ∈ (ofRules rules).statesBehind states, next.Reached rules := by
  intro next member
  obtain ⟨state, inside, symbol, _, rfl⟩ := mem_statesBehind.mp member
  exact reached_closureState (reached_moved (reached state inside) symbol)

theorem reached_of_mem_statesFrom (head : rules.head? = some first) :
    ∀ state ∈ (ofRules rules).statesFrom first, state.Reached rules := by
  refine Breadth.of_mem_reached (fun _ => reached_statesBehind) fun state member => ?_
  rw [List.mem_singleton.mp member]
  exact reached_closureState (reached_start head)

theorem gotoState_of_reached (idle : Idle rules extra) (reached : state.Reached (rules ++ extra))
    (symbol : Symbol) :
    (ofRules (rules ++ extra)).gotoState state symbol = (ofRules rules).gotoState state symbol :=
  congrArg State.ofItems (closureItems_of_reached idle (reached_moved reached symbol))

theorem dotPlaces_le_append (rules extra : List Rule) :
    (ofRules rules).dotPlaces ≤ (ofRules (rules ++ extra)).dotPlaces := by
  rw [← length_places, ← length_places]
  simp [places]

/-- The collection does not depend on the limit once it leaves room for all states. -/
theorem statesFrom_limit (member : first ∈ rules) {limit : Nat}
    (enough : Nat.pow 2 (ofRules rules).dotPlaces ≤ limit) :
    (ofRules rules).statesFrom first = Breadth.reached State.key (ofRules rules).statesBehind limit
      [(ofRules rules).startState first] := by
  have count := card_stateKeys_le (ofRules rules)
  have step : ∀ layer, (∀ state ∈ layer, state.Placed rules) →
      ∀ next ∈ (ofRules rules).statesBehind layer, next.Placed rules := by
    intro layer placed next inside
    obtain ⟨state, stateMember, symbol, _, rfl⟩ := mem_statesBehind.mp inside
    exact placed_gotoState (placed state stateMember) symbol
  exact congrArg List.flatten (Breadth.layersFrom_limit (stateKeys rules)
    (fun _ placed => key_mem_stateKeys placed) step
    (List.forall_mem_singleton.mpr (placed_startState member)) count (count.trans enough))

theorem statesFrom_of_idle (idle : Idle rules extra) (head : (rules ++ extra).head? = some first)
    (member : first ∈ rules) :
    (ofRules (rules ++ extra)).statesFrom first = (ofRules rules).statesFrom first := by
  have start : (ofRules (rules ++ extra)).startState first = (ofRules rules).startState first :=
    congrArg State.ofItems (closureItems_of_reached idle (reached_start head))
  rw [statesFrom_limit member (Nat.pow_le_pow_right (by decide) (dotPlaces_le_append rules extra)),
    ← start]
  refine congrArg List.flatten (Breadth.layersFrom_congr_behind (fun layer reached => ?_)
    (List.forall_mem_singleton.mpr (reached_closureState (reached_start head))) _ [])
  refine ⟨reached_statesBehind reached, fun seen => congrArg _ ?_⟩
  refine List.flatMap_congr fun state inside => ?_
  exact List.map_congr_left fun symbol _ => gotoState_of_reached idle (reached state inside) symbol

/-- Rules that are not reached have no part in the automaton. -/
theorem automatonFrom_of_idle (idle : Idle rules extra)
    (head : (rules ++ extra).head? = some first) (member : first ∈ rules) :
    (ofRules (rules ++ extra)).automatonFrom first = (ofRules rules).automatonFrom first := by
  have states := statesFrom_of_idle idle head member
  have reached := reached_of_mem_statesFrom head
  rw [states] at reached
  have transitions : ∀ entry ∈ ((ofRules rules).statesFrom first).zipIdx,
      (ofRules (rules ++ extra)).transitionsOf ((ofRules rules).statesFrom first) entry =
        (ofRules rules).transitionsOf ((ofRules rules).statesFrom first) entry := by
    intro entry inside
    have here := reached entry.1 (List.fst_mem_of_mem_zipIdx inside)
    refine List.map_congr_left fun symbol awaited => ?_
    rw [gotoState_of_reached idle here, kindOf_of_used idle (used_of_mem_nextSymbols here awaited)]
  simp only [automatonFrom, states, List.flatMap_congr transitions]

end Ruleset

end GrammarWorkbench
