import GrammarWorkbench.Proofs.Derivation
import GrammarWorkbench.Proofs.Rule.Listed

/-!
# Parse trees

A leaf of a tree carries a terminal and an inner node the index of a rule.  The trees
below a node stand for the symbols of the right side, and the word of a tree is what its
leaves spell.
-/

namespace GrammarWorkbench

inductive Tree where
  | leaf (symbol : Symbol)
  | node (index : Int) (children : List Tree)

/-- Trees that stand side by side for some symbols and spell a word. -/
inductive Forest (rules : List Rule) : List Tree → List Symbol → List Symbol → Prop where
  | nil : Forest rules [] [] []
  | leaf {symbol : Symbol} {trees : List Tree} {symbols word : List Symbol}
      (terminal : symbol ∈ (Ruleset.ofRules rules).terminals)
      (rest : Forest rules trees symbols word) :
      Forest rules (.leaf symbol :: trees) (symbol :: symbols) (symbol :: word)
  | node {rule : Rule} {children trees : List Tree} {inner symbols word : List Symbol}
      (member : rule ∈ rules) (below : Forest rules children rule.rhs inner)
      (rest : Forest rules trees symbols word) :
      Forest rules (.node rule.index children :: trees) (rule.lhs :: symbols) (inner ++ word)

/-- The tree has the rule at its root and spells the word. -/
def Tree.Parses (rules : List Rule) (rule : Rule) (word : List Symbol) (tree : Tree) : Prop :=
  ∃ children, tree = .node rule.index children ∧ Forest rules children rule.rhs word

namespace Forest

variable {rules : List Rule} {trees : List Tree} {symbols word : List Symbol}

/-- There is one tree for each symbol. -/
theorem length_eq (forest : Forest rules trees symbols word) : trees.length = symbols.length := by
  induction forest with
  | nil => rfl
  | leaf _ _ ih => simp [ih]
  | node _ _ _ _ ih => simp [ih]

/-- A word consists of terminals. -/
theorem terminals (forest : Forest rules trees symbols word) :
    ∀ symbol ∈ word, symbol ∈ (Ruleset.ofRules rules).terminals := by
  induction forest with
  | nil => simp
  | leaf terminal _ ih => exact List.forall_mem_cons.mpr ⟨terminal, ih⟩
  | node _ _ _ below rest =>
      intro symbol member
      exact (List.mem_append.mp member).elim (below symbol) (rest symbol)

/-- The symbols that trees stand for derive what the trees spell. -/
theorem derives (forest : Forest rules trees symbols word) : Derives rules symbols word := by
  induction forest with
  | nil => exact .refl []
  | @leaf symbol _ _ _ _ _ ih => exact ih.behind [] symbol
  | node member _ _ below rest => exact ((Derives.of_rule member).trans below).append rest

/-- Trees for two strings side by side are trees for each of them. -/
theorem split {left right : List Symbol} (forest : Forest rules trees (left ++ right) word) :
    ∃ leftTrees rightTrees leftWord rightWord, trees = leftTrees ++ rightTrees ∧
      word = leftWord ++ rightWord ∧ Forest rules leftTrees left leftWord ∧
      Forest rules rightTrees right rightWord := by
  induction left generalizing trees word with
  | nil => exact ⟨[], trees, [], word, rfl, rfl, .nil, forest⟩
  | cons first left ih =>
      cases forest with
      | leaf terminal rest =>
          obtain ⟨leftTrees, rightTrees, leftWord, rightWord, rfl, rfl, inLeft, inRight⟩ := ih rest
          exact ⟨_, rightTrees, _, rightWord, rfl, rfl, .leaf terminal inLeft, inRight⟩
      | node member below rest =>
          obtain ⟨leftTrees, rightTrees, leftWord, rightWord, rfl, rfl, inLeft, inRight⟩ := ih rest
          exact ⟨_, rightTrees, _, rightWord, rfl, List.append_assoc _ _ _ |>.symm,
            .node member below inLeft, inRight⟩

/-- Only a leaf stands for a terminal. -/
theorem eq_leaf {terminal : Symbol} (known : terminal ∈ (Ruleset.ofRules rules).terminals)
    (forest : Forest rules trees [terminal] word) : trees = [.leaf terminal] ∧ word = [terminal] := by
  cases forest with
  | leaf _ rest =>
      cases rest
      exact ⟨rfl, rfl⟩
  | node member _ _ => exact absurd rfl (Ruleset.lhs_ne_of_mem_terminals known _ member)

end Forest

end GrammarWorkbench
