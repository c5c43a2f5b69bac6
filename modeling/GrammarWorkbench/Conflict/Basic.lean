import GrammarWorkbench.Symbol

/-!
# Conflicts

A state is in conflict on a symbol when more than one action is open to it there.
The conflict names the rules that compete and the symbols on which they do.
-/

namespace GrammarWorkbench

inductive ConflictKind where
  | shiftReduce
  | reduceReduce
  deriving DecidableEq, Repr

def ConflictKind.name : ConflictKind → String
  | .shiftReduce => "shift/reduce"
  | .reduceReduce => "reduce/reduce"

theorem ConflictKind.name_injective {left right : ConflictKind}
    (same : left.name = right.name) : left = right := by
  cases left <;> cases right
  · rfl
  · exact absurd same (by decide)
  · exact absurd same (by decide)
  · rfl

structure Conflict where
  state : Int
  kind : ConflictKind
  symbol : Symbol
  rules : List Int
  intersection : List Symbol
  deriving DecidableEq, Repr

def Conflict.text (conflict : Conflict) : String :=
  conflict.kind.name ++ " conflict in state " ++ toString conflict.state ++ " on symbol '" ++
    conflict.symbol ++ "' (rules " ++ ", ".intercalate (conflict.rules.map toString) ++ ")"

end GrammarWorkbench
