import GrammarWorkbench.Proofs.Automaton.Canonical
import GrammarWorkbench.Proofs.Automaton.Growth

/-!
# Kernels of states

The start state is made of the first item of the first rule, and each other state of items whose
dots were moved behind one symbol.  What a state is made of stands before what it predicts, and is
told from it by its flag.  A key that is made twice is made behind the same symbol, so it does not
matter for this which of its states came first.
-/

namespace GrammarWorkbench

variable {rules : List Rule} {first : Rule} {symbol : Symbol}

/-- The symbol stands right before the dot. -/
def Item.Behind (symbol : Symbol) (item : Item) : Prop :=
  ∃ dot : Nat, item.dot = dot + 1 ∧ item.rule.rhs[dot]? = some symbol

/-- The state is made of the first item of the rule, and all its dots are first. -/
structure State.Opens (rule : Rule) (state : State) : Prop where
  made : state.items.filter (fun item => item.predicted = false) = [⟨rule, 0, false⟩]
  dots : ∀ item ∈ state.items, item.dot = 0

/-- The state is made of items whose dots were moved behind the symbol. -/
structure State.Follows (symbol : Symbol) (state : State) : Prop where
  moved : ∃ item ∈ state.items, 0 < item.dot
  flag : ∀ item ∈ state.items, item.predicted = false ↔ 0 < item.dot
  /-- No item whose dot is first stands before one whose dot was moved. -/
  order : state.items.Pairwise fun earlier later => 0 < later.dot → 0 < earlier.dot
  dots : ∀ item ∈ state.items, 0 ≤ item.dot
  behind : ∀ item ∈ state.items, 0 < item.dot → item.Behind symbol

/-- What the states of an automaton are made of, and how its transitions lead to them. -/
structure Automaton.Kernels (rule : Rule) (automaton : Automaton) : Prop where
  no_return : ∀ transition ∈ automaton.transitions, transition.target ≠ 0
  start : ∃ state, automaton.states[0]? = some state ∧ state.Opens rule
  later : ∀ (place : Nat) (state : State), 0 < place → automaton.states[place]? = some state →
    ∃ symbol, state.Follows symbol ∧
      ∀ transition ∈ automaton.transitions, transition.target = (place : Int) →
        transition.symbol = symbol
  nodup : ∀ state ∈ automaton.states, (state.items.map Item.key).Nodup

/-! ## What states are made of -/

theorem Item.Behind.dot_pos {item : Item} (behind : item.Behind symbol) : 0 < item.dot := by
  obtain ⟨dot, same, _⟩ := behind
  omega

/-- A place in a rule has one symbol before it. -/
theorem Item.Behind.symbol_eq {item other : Item} {otherSymbol : Symbol}
    (behind : item.Behind symbol) (otherBehind : other.Behind otherSymbol)
    (rule : item.rule = other.rule) (dot : item.dot = other.dot) : symbol = otherSymbol := by
  obtain ⟨place, same, there⟩ := behind
  obtain ⟨otherPlace, otherSame, otherThere⟩ := otherBehind
  obtain rfl : place = otherPlace := by omega
  rw [rule, otherThere] at there
  exact (Option.some.inj there).symm

/-- Items that were moved behind a symbol, with what is predicted behind them, follow it. -/
theorem State.follows_of_items {state : State} {given : List Item} {added : List Rule}
    (split : state.items = given ++ added.map Item.predict) (some : given ≠ [])
    (moved : ∀ item ∈ given, item.predicted = false ∧ item.Behind symbol) :
    state.Follows symbol := by
  have cases_of_mem : ∀ item ∈ state.items,
      item.predicted = false ∧ item.Behind symbol ∨ item.predicted = true ∧ item.dot = 0 := by
    intro item member
    rw [split] at member
    rcases List.mem_append.mp member with here | later
    · exact .inl (moved item here)
    · obtain ⟨rule, _, rfl⟩ := List.mem_map.mp later
      exact .inr ⟨rfl, rfl⟩
  obtain ⟨item, here⟩ := List.exists_mem_of_ne_nil given some
  refine ⟨⟨item, split ▸ List.mem_append_left _ here, (moved item here).2.dot_pos⟩, ?_, ?_, ?_, ?_⟩
  · intro item member
    rcases cases_of_mem item member with ⟨flag, behind⟩ | ⟨flag, dot⟩
    · exact iff_of_true flag behind.dot_pos
    · exact iff_of_false (by simp [flag]) (by omega)
  · have first : ∀ item ∈ given, 0 < item.dot := fun item member => (moved item member).2.dot_pos
    have zero : ∀ item ∈ added.map Item.predict, item.dot = 0 :=
      List.forall_mem_map.mpr fun _ _ => rfl
    rw [split]
    apply List.pairwise_append.mpr
    refine ⟨List.pairwise_of_forall_mem_list fun earlier here _ _ _ => first earlier here,
      List.pairwise_of_forall_mem_list fun _ _ later there positive => ?_,
      fun earlier here _ _ _ => first earlier here⟩
    have none := zero later there
    omega
  · intro item member
    rcases cases_of_mem item member with ⟨_, behind⟩ | ⟨_, dot⟩
    · exact Int.le_of_lt behind.dot_pos
    · exact Int.le_of_eq dot.symm
  · intro item member positive
    rcases cases_of_mem item member with ⟨_, behind⟩ | ⟨_, dot⟩
    · exact behind
    · omega

namespace Ruleset

theorem behind_of_mem_moved {state : State} (placed : state.Placed rules) {item : Item}
    (member : item ∈ moved state symbol) : item.predicted = false ∧ item.Behind symbol := by
  obtain ⟨before, inside, awaits, rfl⟩ := mem_moved.mp member
  obtain ⟨_, dot, same, _⟩ := placed before inside
  rw [Item.next?_eq same] at awaits
  exact ⟨rfl, dot, congrArg (· + 1) same, awaits⟩

theorem opens_startState (rules : List Rule) (first : Rule) :
    ((ofRules rules).startState first).Opens first := by
  obtain ⟨added, _, _, whole⟩ := exists_added rules [⟨first, 0, false⟩]
  constructor
  · have none : (added.map Item.predict).filter (fun item => item.predicted = false) = [] := by
      simp [Item.predict]
    show ((ofRules rules).closureItems [⟨first, 0, false⟩]).filter _ = _
    rw [whole, List.filter_append, none]
    rfl
  · exact fun item => dot_eq_zero_of_mem_startState

/-- What goto makes of a state follows the symbol. -/
theorem follows_gotoState {state : State} (placed : state.Placed rules)
    (awaited : symbol ∈ state.nextSymbols) :
    ((ofRules rules).gotoState state symbol).Follows symbol := by
  obtain ⟨added, _, _, whole⟩ := exists_added rules (moved state symbol)
  apply State.follows_of_items whole
  · obtain ⟨before, member, awaits⟩ := State.mem_nextSymbols.mp awaited
    have inside : before.advance ∈ moved state symbol :=
      mem_moved.mpr ⟨before, member, awaits, rfl⟩
    intro none
    have known := (Breadth.firstSeen_fresh Item.key _).covers _ inside
    rw [none] at known
    exact List.not_mem_nil known
  · exact fun item member => behind_of_mem_moved placed (Breadth.subset_of_mem_fresh member).1

end Ruleset

/-- States with one key that follow symbols follow one symbol. -/
theorem State.Follows.symbol_eq {epsilon : Symbol} (listed : Rule.Listed epsilon rules)
    {state other : State} {otherSymbol : Symbol} (placed : state.Placed rules)
    (otherPlaced : other.Placed rules) (same : state.key = other.key)
    (follows : state.Follows symbol) (otherFollows : other.Follows otherSymbol) :
    symbol = otherSymbol := by
  obtain ⟨item, member, positive⟩ := follows.moved
  obtain ⟨twin, there, rule, dot⟩ := State.exists_twin listed (fun item inside =>
    (placed item inside).1) (fun item inside => (otherPlaced item inside).1) same member
  have twinPositive : 0 < twin.dot := dot ▸ positive
  exact (follows.behind item member positive).symbol_eq
    (otherFollows.behind twin there twinPositive) rule.symm dot.symm

/-! ## The automaton -/

namespace Ruleset

/-- Each state but the first follows the symbol of all transitions that lead to it. -/
theorem exists_follows {epsilon : Symbol} (listed : Rule.Listed epsilon rules)
    (member : first ∈ rules) {place : Nat} {state : State} (later : 0 < place)
    (found : ((ofRules rules).statesFrom first)[place]? = some state) :
    ∃ symbol, state.Follows symbol ∧
      ∀ transition ∈ ((ofRules rules).automatonFrom first).transitions,
        transition.target = (place : Int) → transition.symbol = symbol := by
  have placed := placed_of_mem_statesFrom member
  obtain ⟨source, before, _, there, made⟩ := exists_earlier_of_statesFrom later found
  obtain ⟨symbol, awaited, rfl⟩ := List.mem_map.mp made
  have follows := follows_gotoState (placed before (List.mem_of_getElem? there)) awaited
  refine ⟨symbol, follows, fun transition inside leads => ?_⟩
  obtain ⟨_, target, other, next, _, atTarget, foundOther, foundNext, otherAwaited, key⟩ :=
    target_of_mem_transitions member inside
  obtain rfl : target = place := Int.ofNat_inj.mp (atTarget.symm.trans leads)
  obtain rfl := Option.some.inj (foundNext.symm.trans found)
  have otherPlaced := placed other (List.mem_of_getElem? foundOther)
  exact (follows_gotoState otherPlaced otherAwaited).symbol_eq listed
    (placed_gotoState otherPlaced _) (placed _ (List.mem_of_getElem? found)) key.symm follows

/--
The states of the automaton of rules that were read are made as they should be.  Only the start
state is made of the first item of the first rule, and no transition leads back to it; each other
state is made of items that were moved behind the one symbol of the transitions to it.
-/
theorem automaton_kernels {lines : List String} {epsilon : Symbol}
    (read : Rule.readAll lines epsilon = .ok rules) :
    ∃ first automaton, rules.head? = some first ∧ (ofRules rules).automaton = .ok automaton ∧
      automaton.Kernels first := by
  have listed := Rule.listed_of_readAll read
  obtain ⟨first, rest, rfl⟩ := List.exists_cons_of_ne_nil listed.ne_nil
  have member : first ∈ first :: rest := List.mem_cons_self
  exact ⟨first, _, rfl, rfl, {
    no_return := fun _ inside => target_ne_zero member inside
    start := ⟨_, statesFrom_zero _ first, opens_startState _ first⟩
    later := fun _ _ later found => exists_follows listed member later found
    nodup := nodup_items_of_mem_statesFrom }⟩

/-- A state is made three times behind one symbol, once with its items in another order. -/
theorem automaton_kernels_merged : ∃ rules first automaton,
    Rule.readAll ["S -> B y C", "B -> C", "B -> x", "C -> B", "C -> x S"] "ε" = .ok rules ∧
      rules.head? = some first ∧ (ofRules rules).automaton = .ok automaton ∧
      automaton.Kernels first ∧
      (automaton.transitions.filter (·.target = 3)).map (fun edge => (edge.source, edge.symbol)) =
        [(0, "x"), (3, "x"), (4, "x")] := by
  obtain ⟨rules, same, read⟩ : ∃ rules : List Rule, rules = [⟨0, "S", ["B", "y", "C"], "ε"⟩,
      ⟨1, "B", ["C"], "ε"⟩, ⟨2, "B", ["x"], "ε"⟩, ⟨3, "C", ["B"], "ε"⟩,
      ⟨4, "C", ["x", "S"], "ε"⟩] ∧ Rule.readAll ["S -> B y C", "B -> C", "B -> x", "C -> B",
        "C -> x S"] "ε" = .ok rules := ⟨_, rfl, by decide⟩
  obtain ⟨first, automaton, head, done, kernels⟩ := automaton_kernels read
  have evaluated : (ofRules rules).automaton.map (fun automaton =>
      (automaton.transitions.filter (·.target = 3)).map fun edge => (edge.source, edge.symbol)) =
        .ok [(0, "x"), (3, "x"), (4, "x")] := by
    rw [same]
    decide +kernel
  rw [done] at evaluated
  exact ⟨rules, first, automaton, read, head, done, kernels, Except.ok.inj evaluated⟩

end Ruleset

end GrammarWorkbench
