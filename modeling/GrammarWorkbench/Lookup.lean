import GrammarWorkbench.Symbol
import GrammarWorkbench.Text.Quoted

/-!
# Lookups

A symbol may be missing from a table, a position may lie outside a list, and a list
may have no first item.  A negative position counts from the end of the list.
-/

namespace GrammarWorkbench

inductive LookupError where
  | unknownSymbol (symbol : Symbol)
  | outOfRange
  | emptyList
  deriving DecidableEq, Repr

def LookupError.message : LookupError → String
  | .unknownSymbol symbol => Text.quoted symbol
  | .outOfRange => "tuple index out of range"
  | .emptyList => "list index out of range"

/-- The item of a list at a position, counted from the end if it is negative. -/
def itemAt? {α : Type} (items : List α) (position : Int) : Option α :=
  if 0 ≤ position then items[position.toNat]?
  else if -(items.length : Int) ≤ position then items[(position + items.length).toNat]?
  else none

def itemAt {α : Type} (items : List α) (position : Int) : Except LookupError α :=
  match itemAt? items position with
  | some item => .ok item
  | none => .error .outOfRange

@[simp] theorem itemAt?_natCast {α : Type} (items : List α) (position : Nat) :
    itemAt? items (position : Int) = items[position]? := by
  simp [itemAt?]

theorem itemAt_of_getElem? {α : Type} {items : List α} {position : Nat} {item : α}
    (found : items[position]? = some item) : itemAt items (position : Int) = .ok item := by
  simp [itemAt, found]

theorem mem_of_itemAt {α : Type} {items : List α} {position : Int} {item : α}
    (found : itemAt items position = .ok item) : item ∈ items := by
  have some : itemAt? items position = some item := by
    unfold itemAt at found
    split at found
    · rename_i other here
      rw [here, Except.ok.inj found]
    · cases found
  unfold itemAt? at some
  split at some
  · exact List.mem_of_getElem? some
  · split at some
    · exact List.mem_of_getElem? some
    · cases some

/-- A position has an item exactly when it lies within the list on one side or the other. -/
theorem itemAt?_isSome {α : Type} (items : List α) (position : Int) :
    (itemAt? items position).isSome ↔
      -(items.length : Int) ≤ position ∧ position < items.length := by
  unfold itemAt?
  split
  · simp only [isSome_getElem?]
    omega
  · split
    · simp only [isSome_getElem?]
      omega
    · simp only [Option.isSome_none, Bool.false_eq_true, false_iff]
      omega

end GrammarWorkbench
