import GrammarWorkbench.Proofs.Automaton.Closure
import GrammarWorkbench.Proofs.Breadth.Image
import GrammarWorkbench.Proofs.Breadth.Walk

/-!
# How closures grow

The items of a closure predict one after the other, and what is new joins them at the end.  A
closure therefore begins with the items that it is made of, each once, and goes on with the first
items of rules, no rule twice.
-/

namespace GrammarWorkbench.Ruleset

open Walk (Discovered)

variable {rules : List Rule}

theorem flatMap_predictions (ruleset : Ruleset) (items : List Item) :
    items.flatMap (fun item => ruleset.predictions [item]) =
      ((items.filterMap Item.next?).filter (· ∈ ruleset.nonterminals)).flatMap
        ruleset.predicted := by
  induction items with
  | nil => rfl
  | cons item rest ih =>
      rw [List.flatMap_cons, ih]
      cases awaits : item.next? with
      | none => simp [predictions, awaited, awaits]
      | some symbol =>
          by_cases nonterminal : symbol ∈ ruleset.nonterminals
          · simp [predictions, awaited, awaits, nonterminal, List.eraseDups_cons]
          · simp [predictions, awaited, awaits, nonterminal]

/-- It makes no difference whether items predict together or one after the other. -/
theorem closureItems_eq (ruleset : Ruleset) (items : List Item) :
    ruleset.closureItems items =
      Breadth.reached Item.key (·.flatMap fun item => ruleset.predictions [item])
        (ruleset.rules.length + 1) items := by
  refine congrArg List.flatten
    (Breadth.layersFrom_congr_behind (fun layer _ => ?_) (fun _ _ => trivial) _ [])
  rw [flatMap_predictions]
  exact ⟨fun _ _ => trivial, fun seen => Breadth.fresh_flatMap_eraseDups ruleset.predicted seen _⟩

theorem discovered_closureItems (rules : List Rule) (items : List Item) :
    Discovered Item.key (fun item => (ofRules rules).predictions [item]) items
      ((ofRules rules).closureItems items) := by
  obtain ⟨given, closed⟩ := closureItems_closed rules items
  rw [closureItems_eq] at given closed ⊢
  refine Walk.discovered_reached fun item member => ?_
  cases List.mem_append.mp member with
  | inl start => exact given item start
  | inr behind =>
      obtain ⟨before, inside, predicted⟩ := List.mem_flatMap.mp behind
      obtain ⟨same, single, predicts⟩ := mem_predictions_ofRules.mp predicted
      rw [List.mem_singleton.mp single] at predicts
      exact closed before inside item predicts

/-- Each rule gives a closure one item at most beyond those that it is made of. -/
theorem exists_added (rules : List Rule) (items : List Item) :
    ∃ added : List Rule, added.Nodup ∧ (∀ rule ∈ added, rule ∈ rules) ∧
      (ofRules rules).closureItems items =
        Breadth.fresh Item.key [] items ++ added.map Item.predict := by
  have whole := (discovered_closureItems rules items).eq_fresh
  rw [Breadth.fresh_append] at whole
  obtain ⟨rest, split, nodup, predicted⟩ : ∃ rest,
      (ofRules rules).closureItems items = Breadth.fresh Item.key [] items ++ rest ∧
      (rest.map Item.key).Nodup ∧
      ∀ item ∈ rest, item.rule ∈ rules ∧ Item.predict item.rule = item := by
    refine ⟨_, whole, Breadth.nodup_keys_fresh _ _ _, fun item member => ?_⟩
    obtain ⟨_, _, behind⟩ := List.mem_flatMap.mp (Breadth.subset_of_mem_fresh member).1
    obtain ⟨_, _, rule, inside, _, rfl⟩ := mem_predictions_ofRules.mp behind
    exact ⟨inside, rfl⟩
  have back : (rest.map Item.rule).map Item.predict = rest := by
    rw [List.map_map]
    exact (List.map_congr_left fun item member => (predicted item member).2).trans (List.map_id _)
  refine ⟨rest.map Item.rule, ?_, ?_, split.trans (congrArg _ back.symm)⟩
  · rw [← back, List.map_map] at nodup
    exact nodup.of_map
  · intro rule member
    obtain ⟨item, inside, rfl⟩ := List.mem_map.mp member
    exact (predicted item inside).1

end GrammarWorkbench.Ruleset
