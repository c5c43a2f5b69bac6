import GrammarWorkbench.Proofs.Automaton.Collection
import GrammarWorkbench.Proofs.Automaton.Growth
import Mathlib.Order.Bounds.Basic

/-!
# Closures are least

A closure holds the given items, each once and in their order, and behind them the first items of
rules.  Its keys are the least set that holds the given ones and is closed under prediction, so
they do not depend on the order of the given items, and the closure of a closure is the same.  A
key tells the rule and the dot, so that goto too depends on the keys of a state only.
-/

namespace GrammarWorkbench

variable {rules : List Rule} {epsilon : Symbol} {items : List Item}

/-- The rule of the item is one of the rules, and its dot is not before the first symbol. -/
def Item.Within (rules : List Rule) (item : Item) : Prop :=
  item.rule ∈ rules ∧ 0 ≤ item.dot

/-- The set holds the keys of the items, and with each key those of the items that it predicts. -/
structure ClosedKeys (rules : List Rule) (items : List Item) (keys : Set (Int × Int)) : Prop where
  given : ∀ item ∈ items, item.key ∈ keys
  predicts : ∀ rule ∈ rules, ∀ dot : Nat, (rule.index, (dot : Int)) ∈ keys →
    ∀ next ∈ rules, rule.rhs[dot]? = some next.lhs → (next.index, 0) ∈ keys

/-- The state holds the items, with what they predict behind them, and nothing more. -/
structure State.Closes (rules : List Rule) (items : List Item) (state : State) : Prop where
  order : ∃ (given : List Item) (added : List Rule), Breadth.FirstSeen Item.key items given ∧
    (∀ rule ∈ added, rule ∈ rules) ∧ state.items = given ++ added.map Item.predict
  nodup : (state.items.map Item.key).Nodup
  least : IsLeast {keys | ClosedKeys rules items keys} {key | key ∈ state.items.map Item.key}

/-- What closure and goto owe to items of the rules. -/
structure Ruleset.ClosureLaws (rules : List Rule) : Prop where
  closes : ∀ items : List Item, (∀ item ∈ items, item.Within rules) → ∃ state,
    (ofRules rules).closure items = .ok state ∧ state.Closes rules items ∧
      (ofRules rules).closure state.items = .ok state
  closure_same : ∀ left right : List Item, (∀ item ∈ left, item.Within rules) →
    (∀ item ∈ right, item.Within rules) →
    (∀ key, key ∈ left.map Item.key ↔ key ∈ right.map Item.key) → ∃ state other,
      (ofRules rules).closure left = .ok state ∧ (ofRules rules).closure right = .ok other ∧
        state.Same other
  goto_same : ∀ left right : State, (∀ item ∈ left.items, item.Within rules) →
    (∀ item ∈ right.items, item.Within rules) → left.Same right → ∀ symbol, ∃ state other,
      (ofRules rules).goto left symbol = .ok state ∧
        (ofRules rules).goto right symbol = .ok other ∧ state.Same other

/-! ## Items of the rules -/

namespace Item.Within

variable {item : Item}

theorem exists_dot (within : item.Within rules) : ∃ dot : Nat, item.dot = dot :=
  Int.eq_ofNat_of_zero_le within.2

theorem readable (within : item.Within rules) : item.Readable := by
  obtain ⟨_, same⟩ := within.exists_dot
  exact readable_of_dot same

theorem advance (within : item.Within rules) : item.advance.Within rules :=
  ⟨within.1, Int.le_add_one within.2⟩

end Item.Within

/-- Closed keys depend on the keys of the given items only. -/
theorem ClosedKeys.of_keys {left right : List Item} {keys : Set (Int × Int)}
    (closed : ClosedKeys rules left keys)
    (subset : ∀ key, key ∈ right.map Item.key → key ∈ left.map Item.key) :
    ClosedKeys rules right keys := by
  refine ⟨fun item member => ?_, closed.predicts⟩
  obtain ⟨twin, inside, same⟩ := List.mem_map.mp (subset _ (List.mem_map_of_mem member))
  exact same ▸ closed.given twin inside

namespace Ruleset

theorem within_closureItems (within : ∀ item ∈ items, item.Within rules) :
    ∀ item ∈ (ofRules rules).closureItems items, item.Within rules := by
  refine of_mem_closureItems within fun item next _ predicts => ?_
  obtain ⟨rule, member, _, rfl⟩ := predicts
  exact ⟨member, Int.le_refl 0⟩

/-! ## The least closed keys -/

theorem closedKeys_closureItems (listed : Rule.Listed epsilon rules)
    (within : ∀ item ∈ items, item.Within rules) :
    ClosedKeys rules items {key | key ∈ ((ofRules rules).closureItems items).map Item.key} := by
  obtain ⟨given, closed⟩ := closureItems_closed rules items
  refine ⟨given, fun rule member dot inside next nextMember awaits => ?_⟩
  obtain ⟨item, itemMember, same⟩ := List.mem_map.mp inside
  obtain ⟨index, place⟩ := Prod.mk.inj same
  obtain rfl : item.rule = rule :=
    listed.eq_of_index_eq (within_closureItems within item itemMember).1 member index
  have predicts : Predicts rules item (Item.predict next) :=
    ⟨next, nextMember, (Item.next?_eq place).trans awaits, rfl⟩
  exact closed item itemMember _ predicts

theorem isLeast_closureItems (listed : Rule.Listed epsilon rules)
    (within : ∀ item ∈ items, item.Within rules) :
    IsLeast {keys | ClosedKeys rules items keys}
      {key | key ∈ ((ofRules rules).closureItems items).map Item.key} := by
  refine ⟨closedKeys_closureItems listed within, fun keys closed key member => ?_⟩
  obtain ⟨item, inside, rfl⟩ := List.mem_map.mp member
  have holds : ∀ item ∈ (ofRules rules).closureItems items,
      item.Within rules ∧ item.key ∈ keys := by
    apply of_mem_closureItems
    · exact fun item member => ⟨within item member, closed.given item member⟩
    · rintro before next ⟨beforeWithin, known⟩ ⟨rule, ruleMember, awaits, rfl⟩
      obtain ⟨dot, place⟩ := beforeWithin.exists_dot
      refine ⟨⟨ruleMember, Int.le_refl 0⟩, ?_⟩
      rw [Item.key, place] at known
      rw [Item.next?_eq place] at awaits
      exact closed.predicts before.rule beforeWithin.1 dot known rule ruleMember awaits
  exact (holds item inside).2

/-- A closure is its own closure. -/
theorem closureItems_closureItems (rules : List Rule) (items : List Item) :
    (ofRules rules).closureItems ((ofRules rules).closureItems items) =
      (ofRules rules).closureItems items := by
  apply Breadth.reached_eq_self (Nat.succ_pos _)
  · exact Breadth.nodup_keys_reached _ _ _ items
  · intro next member
    obtain ⟨item, inside, predicts⟩ := mem_predictions_ofRules.mp member
    exact (closureItems_closed rules items).2 item inside next predicts

theorem closes_closureState (listed : Rule.Listed epsilon rules)
    (within : ∀ item ∈ items, item.Within rules) :
    ((ofRules rules).closureState items).Closes rules items := by
  obtain ⟨added, _, inside, whole⟩ := exists_added rules items
  exact {
    order := ⟨_, added, Breadth.firstSeen_fresh Item.key items, inside, whole⟩
    nodup := Breadth.nodup_keys_reached _ _ _ items
    least := isLeast_closureItems listed within }

theorem closure_closes (listed : Rule.Listed epsilon rules)
    (within : ∀ item ∈ items, item.Within rules) :
    ∃ state, (ofRules rules).closure items = .ok state ∧ state.Closes rules items ∧
      (ofRules rules).closure state.items = .ok state := by
  refine ⟨(ofRules rules).closureState items, ?_, closes_closureState listed within, ?_⟩
  · exact closure_ok _ fun item member => (within item member).readable
  · have again := closure_ok (ofRules rules) fun item member =>
      (within_closureItems within item member).readable
    rw [closureState, closureItems_closureItems] at again
    exact again

/-! ## Equal keys -/

theorem closureState_same (listed : Rule.Listed epsilon rules) {left right : List Item}
    (leftWithin : ∀ item ∈ left, item.Within rules)
    (rightWithin : ∀ item ∈ right, item.Within rules)
    (same : ∀ key, key ∈ left.map Item.key ↔ key ∈ right.map Item.key) :
    ((ofRules rules).closureState left).Same ((ofRules rules).closureState right) := by
  have closed : {keys | ClosedKeys rules left keys} = {keys | ClosedKeys rules right keys} :=
    Set.ext fun _ => ⟨fun closed => closed.of_keys fun key => (same key).mpr,
      fun closed => closed.of_keys fun key => (same key).mp⟩
  have leftLeast := isLeast_closureItems listed leftWithin
  rw [closed] at leftLeast
  have keys := leftLeast.unique (isLeast_closureItems listed rightWithin)
  refine (State.ordered_key _).eq (State.ordered_key _) fun key => ?_
  exact (mem_sortKeys.trans (Set.ext_iff.mp keys key)).trans mem_sortKeys.symm

/-- Goto moves the dots of the keys, whatever the items and their order. -/
theorem key_mem_moved (listed : Rule.Listed epsilon rules) {left right : State}
    (leftWithin : ∀ item ∈ left.items, item.Within rules)
    (rightWithin : ∀ item ∈ right.items, item.Within rules) (same : left.Same right)
    {symbol : Symbol} {key : Int × Int} (inside : key ∈ (moved left symbol).map Item.key) :
    key ∈ (moved right symbol).map Item.key := by
  obtain ⟨_, member, rfl⟩ := List.mem_map.mp inside
  obtain ⟨item, itemMember, awaits, rfl⟩ := mem_moved.mp member
  obtain ⟨twin, twinMember, rule, dot⟩ := State.exists_twin listed (fun item inside =>
    (leftWithin item inside).1) (fun item inside => (rightWithin item inside).1) same itemMember
  have twinAwaits : twin.next? = some symbol := by
    obtain ⟨place, there⟩ := (rightWithin twin twinMember).exists_dot
    rw [Item.next?_eq (dot ▸ there)] at awaits
    rw [Item.next?_eq there, rule, awaits]
  refine List.mem_map.mpr ⟨twin.advance, mem_moved.mpr ⟨twin, twinMember, twinAwaits, rfl⟩, ?_⟩
  rw [Item.key, Item.key, Item.advance, Item.advance, rule, dot]

theorem within_moved {state : State} (within : ∀ item ∈ state.items, item.Within rules)
    (symbol : Symbol) : ∀ item ∈ moved state symbol, item.Within rules := by
  intro item member
  obtain ⟨before, inside, _, rfl⟩ := mem_moved.mp member
  exact (within before inside).advance

/--
The closure of items of rules that were read is the least closed one, with the given items first
and no item twice, and it is its own closure.  Which items it holds depends on the keys of the
given ones only, and so does where goto leads.
-/
theorem closureLaws_of_readAll {lines : List String}
    (read : Rule.readAll lines epsilon = .ok rules) : ClosureLaws rules := by
  have listed := Rule.listed_of_readAll read
  have closure_eq : ∀ {items : List Item}, (∀ item ∈ items, item.Within rules) →
      (ofRules rules).closure items = .ok ((ofRules rules).closureState items) :=
    fun within => closure_ok _ fun item member => (within item member).readable
  have goto_eq : ∀ {state : State}, (∀ item ∈ state.items, item.Within rules) → ∀ symbol,
      (ofRules rules).goto state symbol = .ok ((ofRules rules).gotoState state symbol) :=
    fun within _ => if_pos fun item member => (within item member).readable
  refine ⟨fun items within => closure_closes listed within, ?_, ?_⟩
  · intro left right leftWithin rightWithin same
    exact ⟨_, _, closure_eq leftWithin, closure_eq rightWithin,
      closureState_same listed leftWithin rightWithin same⟩
  · intro left right leftWithin rightWithin same symbol
    refine ⟨_, _, goto_eq leftWithin symbol, goto_eq rightWithin symbol, ?_⟩
    apply closureState_same listed (within_moved leftWithin symbol) (within_moved rightWithin symbol)
    exact fun key => ⟨key_mem_moved listed leftWithin rightWithin same,
      key_mem_moved listed rightWithin leftWithin same.symm⟩

/-- An item that is given with both flags keeps the first, and a dot may lie behind its rule. -/
theorem closureLaws_of_readAll_repeated : ∃ outer unit empty state,
    Rule.readAll ["S -> A b", "A -> S", "A -> ε"] "ε" = .ok [outer, unit, empty] ∧
      ClosureLaws [outer, unit, empty] ∧
      (ofRules [outer, unit, empty]).closure
        [⟨unit, 1, false⟩, ⟨outer, 0, true⟩, ⟨outer, 0, false⟩, ⟨empty, 5, false⟩] = .ok state ∧
      state.items = [⟨unit, 1, false⟩, ⟨outer, 0, true⟩, ⟨empty, 5, false⟩, ⟨unit, 0, true⟩,
        ⟨empty, 0, true⟩] := by
  obtain ⟨outer, unit, empty, sameOuter, sameUnit, sameEmpty, read⟩ : ∃ outer unit empty : Rule,
      outer = ⟨0, "S", ["A", "b"], "ε"⟩ ∧ unit = ⟨1, "A", ["S"], "ε"⟩ ∧
      empty = ⟨2, "A", [], "ε"⟩ ∧ Rule.readAll ["S -> A b", "A -> S", "A -> ε"] "ε" =
        .ok [outer, unit, empty] := ⟨_, _, _, rfl, rfl, rfl, by decide⟩
  have laws := closureLaws_of_readAll read
  have within : ∀ item ∈ ([⟨unit, 1, false⟩, ⟨outer, 0, true⟩, ⟨outer, 0, false⟩,
      ⟨empty, 5, false⟩] : List Item), item.Within [outer, unit, empty] := by
    simp [Item.Within]
  obtain ⟨state, done, _, _⟩ := laws.closes _ within
  refine ⟨outer, unit, empty, state, read, laws, done, ?_⟩
  have evaluated : ((ofRules [outer, unit, empty]).closure [⟨unit, 1, false⟩, ⟨outer, 0, true⟩,
      ⟨outer, 0, false⟩, ⟨empty, 5, false⟩]).map State.items = .ok [⟨unit, 1, false⟩,
        ⟨outer, 0, true⟩, ⟨empty, 5, false⟩, ⟨unit, 0, true⟩, ⟨empty, 0, true⟩] := by
    rw [sameOuter, sameUnit, sameEmpty]
    decide +kernel
  rw [done] at evaluated
  exact Except.ok.inj evaluated

end Ruleset

end GrammarWorkbench
