import GrammarWorkbench.Automaton.Basic
import GrammarWorkbench.Conflict.Basic
import GrammarWorkbench.Grouping
import GrammarWorkbench.Sets.Table

/-!
# Finding conflicts

A completed item may be reduced on every symbol of the follow set of its left side.
A conflict arises where a shift or another reduction is open on the same symbol.
The first rule is never reduced, because it accepts.
-/

namespace GrammarWorkbench

/-- What is looked at for conflicts. -/
structure Detector where
  rules : List Rule
  automaton : Automaton
  follow : SetTable

namespace Detector

/-- The terminals that a state shifts, with the target of the last transition on each. -/
def shifts (detector : Detector) (state : Int) : List (Symbol × Int) :=
  (grouped (((detector.automaton.transitionsFrom state).filter (·.kind = .shift)).map
    fun transition => (transition.symbol, transition.target))).filterMap
      fun group => group.2.getLast?.map (group.1, ·)

/-- A symbol of the follow set of the left side beside the rule, for each such symbol. -/
def lookaheads (detector : Detector) (rule : Rule) : Except LookupError (List (Symbol × Int)) :=
  (detector.follow.get rule.lhs).map fun set => set.elems.map (·, rule.index)

/-- The symbols on which a state may reduce, with the rules that it may reduce by. -/
def reductions (detector : Detector) (state : Int) :
    Except LookupError (List (Symbol × List Int)) := do
  let first ← itemAt detector.rules 0
  let found ← itemAt detector.automaton.states state
  let pairs ← (found.completed.filter fun item => ¬ item.rule.Same first).mapM
    fun item => detector.lookaheads item.rule
  return grouped pairs.flatten

/-- The follow set of the left side of the rule at a position. -/
def followAt (detector : Detector) (position : Int) : Except LookupError SymbolSet := do
  detector.follow.get (← itemAt detector.rules position).lhs

/-- The conflict of a shift with those reductions whose follow sets hold the symbol. -/
def shiftConflict (detector : Detector) (state : Int) (symbol : Symbol) (rules : List Int) :
    Except LookupError (Option Conflict) := do
  let sets ← rules.mapM detector.followAt
  let competing := ((rules.zip sets).filter (symbol ∈ ·.2)).map (·.1)
  return if competing.isEmpty then none
    else some ⟨state, .shiftReduce, symbol, competing, [symbol]⟩

/-- The symbols that all of some sets have in common, none if there is no set. -/
def common : List SymbolSet → SymbolSet
  | [] => ∅
  | first :: rest => rest.foldl SymbolSet.inter first

/-- The conflict of several reductions among themselves. -/
def reduceConflict (detector : Detector) (state : Int) (symbol : Symbol) (rules : List Int) :
    Except LookupError (Option Conflict) := do
  if rules.length < 2 then
    return none
  let shared := common (← rules.mapM detector.followAt)
  return if shared.elems.isEmpty then none
    else some ⟨state, .reduceReduce, symbol, rules, shared.elems⟩

/-- The reductions on the symbols that a state shifts, in the order of the shifts. -/
def contested (shifts : List (Symbol × Int)) (reductions : List (Symbol × List Int)) :
    List (Symbol × List Int) :=
  shifts.filterMap fun shift => (reductions.lookup shift.1).map (shift.1, ·)

/-- The conflicts of one state: those with a shift come first. -/
def conflictsIn (detector : Detector) (state : Int) : Except LookupError (List Conflict) := do
  let reductions ← detector.reductions state
  let withShift ← (contested (detector.shifts state) reductions).mapM
    fun entry => detector.shiftConflict state entry.1 entry.2
  let among ← reductions.mapM fun entry => detector.reduceConflict state entry.1 entry.2
  return withShift.filterMap id ++ among.filterMap id

/-- The conflicts of all states in their order. -/
def conflicts (detector : Detector) : Except LookupError (List Conflict) := do
  let found ← (List.range detector.automaton.states.length).mapM
    fun (state : Nat) => detector.conflictsIn state
  return found.flatten

theorem mem_foldl_inter {sets : List SymbolSet} {start : SymbolSet} {symbol : Symbol} :
    symbol ∈ sets.foldl SymbolSet.inter start ↔ symbol ∈ start ∧ ∀ set ∈ sets, symbol ∈ set := by
  induction sets generalizing start with
  | nil => simp
  | cons first rest ih => simp [ih, and_assoc]

theorem mem_common {sets : List SymbolSet} {symbol : Symbol} :
    symbol ∈ common sets ↔ sets ≠ [] ∧ ∀ set ∈ sets, symbol ∈ set := by
  cases sets with
  | nil => simp [common]
  | cons first rest => simp [common, mem_foldl_inter]

end Detector

end GrammarWorkbench
