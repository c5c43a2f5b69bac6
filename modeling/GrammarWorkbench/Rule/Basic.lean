import GrammarWorkbench.Symbol

/-!
# Rules

A rule rewrites one symbol into a list of symbols.  Its index is its place in the
grammar, and the word for an empty right side is kept for display only.
-/

namespace GrammarWorkbench

structure Rule where
  index : Int
  lhs : Symbol
  rhs : List Symbol
  epsilon : Symbol := defaultEpsilon
  deriving DecidableEq, Repr

namespace Rule

/-- Two rules are the same when only the word for an empty right side may differ. -/
def Same (left right : Rule) : Prop :=
  left.index = right.index ∧ left.lhs = right.lhs ∧ left.rhs = right.rhs

instance (left right : Rule) : Decidable (Same left right) :=
  inferInstanceAs (Decidable (_ ∧ _ ∧ _))

theorem Same.refl (rule : Rule) : Same rule rule :=
  ⟨rfl, rfl, rfl⟩

/-- The rule as a line. -/
def text (rule : Rule) : String :=
  rule.lhs ++ " " ++ arrow ++ " " ++
    if rule.rhs.isEmpty then rule.epsilon else " ".intercalate rule.rhs

end Rule

end GrammarWorkbench
