import GrammarWorkbench.Lookup
import GrammarWorkbench.Rule.Basic

/-!
# Items

An item is a rule with a dot among the symbols of its right side.  The symbols
before the dot have been read, and the next one stands right after it.  A dot
before the first symbol counts from the end, down to the length of the right side.
-/

namespace GrammarWorkbench

/-- The mark that stands for the dot in the text of an item. -/
def dotMarker : Symbol := "↑"

/-- A rule with a dot; the flag tells a predicted item from one that was moved. -/
structure Item where
  rule : Rule
  dot : Int
  predicted : Bool := false
  deriving DecidableEq, Repr

namespace Item

/-- What tells an item from the others of a state. -/
def key (item : Item) : Int × Int :=
  (item.rule.index, item.dot)

/-- Items are the same when their rules and dots are. -/
def Same (left right : Item) : Prop :=
  left.rule.Same right.rule ∧ left.dot = right.dot

instance (left right : Item) : Decidable (Same left right) :=
  inferInstanceAs (Decidable (_ ∧ _))

/-- All symbols have been read. -/
def isComplete (item : Item) : Bool :=
  (item.rule.rhs.length : Int) ≤ item.dot

/-- The dot is no further before the first symbol than the right side is long. -/
def Readable (item : Item) : Prop :=
  -(item.rule.rhs.length : Int) ≤ item.dot

instance (item : Item) : Decidable item.Readable :=
  inferInstanceAs (Decidable (_ ≤ _))

/-- The symbol after the dot. -/
def next? (item : Item) : Option Symbol :=
  if item.isComplete then none else itemAt? item.rule.rhs item.dot

/-- The symbol after the dot, if the dot has a place. -/
def next (item : Item) : Except LookupError (Option Symbol) :=
  if item.Readable then .ok item.next? else .error .outOfRange

/-- The item with its dot behind the next symbol. -/
def advance (item : Item) : Item :=
  ⟨item.rule, item.dot + 1, false⟩

/-- The first item of a rule that a nonterminal after a dot predicts. -/
def predict (rule : Rule) : Item :=
  ⟨rule, 0, true⟩

/-- The place of the dot among the symbols, for a dot on either side of them. -/
def marker (item : Item) : Nat :=
  if item.dot < 0 then (item.rule.rhs.length + item.dot).toNat
  else min item.dot.toNat item.rule.rhs.length

/-- The right side with the dot in its place. -/
def markedSymbols (item : Item) : List Symbol :=
  item.rule.rhs.take item.marker ++ dotMarker :: item.rule.rhs.drop item.marker

def text (item : Item) : String :=
  item.rule.lhs ++ " → " ++ " ".intercalate item.markedSymbols

theorem next?_of_natCast (rule : Rule) (dot : Nat) (predicted : Bool) :
    (Item.mk rule dot predicted).next? = rule.rhs[dot]? := by
  unfold next? isComplete
  by_cases inside : dot < rule.rhs.length
  · have more : ¬ (rule.rhs.length : Int) ≤ (dot : Int) := by omega
    simp [more]
  · have complete : (rule.rhs.length : Int) ≤ (dot : Int) := by omega
    simp [complete, List.getElem?_eq_none (Nat.le_of_not_lt inside)]

theorem readable_of_natCast (rule : Rule) (dot : Nat) (predicted : Bool) :
    (Item.mk rule dot predicted).Readable := by
  show -(rule.rhs.length : Int) ≤ (dot : Int)
  omega

end Item

end GrammarWorkbench
