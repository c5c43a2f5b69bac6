import GrammarWorkbench.Automaton.Closure
import GrammarWorkbench.Proofs.Breadth
import GrammarWorkbench.Proofs.Rule.Listed

/-!
# Closures are closed

The closure of some items holds their keys, and with an item the key of each item that
it predicts.  It holds nothing that a property of the items that passes on to
predicted items does not allow.
-/

namespace GrammarWorkbench.Ruleset

variable {rules : List Rule}

/-- The left side of the predicted rule stands behind the dot. -/
def Predicts (rules : List Rule) (item next : Item) : Prop :=
  ∃ rule ∈ rules, item.next? = some rule.lhs ∧ next = Item.predict rule

theorem mem_predictions_ofRules {items : List Item} {next : Item} :
    next ∈ (ofRules rules).predictions items ↔ ∃ item ∈ items, Predicts rules item next := by
  simp only [mem_predictions, mem_awaited, mem_predicted, Predicts, rules_ofRules]
  constructor
  · rintro ⟨symbol, ⟨_, item, member, awaits⟩, rule, ruleMember, rfl, rfl⟩
    exact ⟨item, member, rule, ruleMember, awaits, rfl⟩
  · rintro ⟨item, member, rule, ruleMember, awaits, rfl⟩
    exact ⟨rule.lhs, ⟨lhs_mem_nonterminals ruleMember, item, member, awaits⟩, rule, ruleMember,
      rfl, rfl⟩

/-- What the given items have and what passes on to predicted items holds in the closure. -/
theorem of_mem_closureItems {P : Item → Prop} {items : List Item} (start : ∀ item ∈ items, P item)
    (step : ∀ item next, P item → Predicts rules item next → P next) :
    ∀ item ∈ (ofRules rules).closureItems items, P item := by
  refine Breadth.of_mem_reached (fun layer holds next member => ?_) start
  obtain ⟨item, inside, predicts⟩ := mem_predictions_ofRules.mp member
  exact step item next (holds item inside) predicts

/-- The closure holds the keys of the given items and is closed under prediction. -/
theorem closureItems_closed (rules : List Rule) (items : List Item) :
    (∀ item ∈ items, item.key ∈ ((ofRules rules).closureItems items).map Item.key) ∧
      ∀ item ∈ (ofRules rules).closureItems items, ∀ next, Predicts rules item next →
        next.key ∈ ((ofRules rules).closureItems items).map Item.key := by
  have complete : ∀ layer, ∀ item ∈ layer, ∀ next, Predicts rules item next →
      next ∈ (ofRules rules).predictions layer := fun layer item member next predicts =>
    mem_predictions_ofRules.mpr ⟨item, member, predicts⟩
  have predicted : ∀ layer, ∀ item ∈ (ofRules rules).predictions layer,
      ∃ rule ∈ rules, item = Item.predict rule := by
    intro layer item member
    obtain ⟨_, _, rule, ruleMember, _, same⟩ := mem_predictions_ofRules.mp member
    exact ⟨rule, ruleMember, same⟩
  have known : ∀ item, (∃ rule ∈ rules, item = Item.predict rule) →
      item.key ∈ (rules.map fun rule => (Item.predict rule).key).toFinset := by
    rintro _ ⟨rule, member, rfl⟩
    exact List.mem_toFinset.mpr (List.mem_map_of_mem member)
  have count : (rules.map fun rule => (Item.predict rule).key).toFinset.card ≤ rules.length :=
    (List.toFinset_card_le _).trans (Nat.le_of_eq (List.length_map _))
  have first : ∀ item ∈ items, Breadth.Covered Item.key [] (Breadth.fresh Item.key [] items) item :=
    fun _ member => Breadth.covered_fresh [] member
  unfold closureItems Breadth.reached Breadth.layers Breadth.layersFrom
  dsimp only
  -- The given items make the first layer, and only rules' first items come behind it.
  generalize Breadth.fresh Item.key [] items = layer at first ⊢
  obtain ⟨covered, closed⟩ := Breadth.covered_layersFrom complete (fun layer _ => predicted layer)
    known (layer.map Item.key ++ []) (predicted layer) count
  have inside : ∀ {values item}, Breadth.Covered Item.key [] values item →
      item.key ∈ values.map Item.key := fun covered => covered.resolve_left List.not_mem_nil
  split
  · rename_i empty
    rw [List.isEmpty_iff.mp empty] at first
    exact ⟨fun item member => inside (first item member),
      fun _ member => absurd member List.not_mem_nil⟩
  · rw [List.flatten_cons]
    refine ⟨fun item member => inside ((first item member).append _),
      fun item member next predicts => inside ?_⟩
    cases List.mem_append.mp member with
    | inl here => exact (covered next (complete layer item here next predicts)).behind_layer
    | inr later => exact (closed item later next predicts).behind_layer

/-- A closure is found when the dots of its items have a place. -/
theorem closure_ok (ruleset : Ruleset) {items : List Item}
    (readable : ∀ item ∈ items, item.Readable) :
    ruleset.closure items = .ok (ruleset.closureState items) :=
  if_pos fun item member => readable item (Breadth.subset_of_mem_fresh member).1

end GrammarWorkbench.Ruleset
