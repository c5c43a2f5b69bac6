import GrammarWorkbench.Automaton.Item

/-!
# States

A state lists its items in the order in which they came.  Its key is the ascending
list of the keys of its items, and states with one key are the same state.
-/

namespace GrammarWorkbench

/-- The order of keys: by rule, then by dot. -/
def keyBefore (left right : Int × Int) : Bool :=
  left.1 < right.1 || left.1 == right.1 && left.2 < right.2

/-- Insert a key into an ascending list, unless it is there. -/
def insertKey (key : Int × Int) : List (Int × Int) → List (Int × Int)
  | [] => [key]
  | first :: rest =>
      if key = first then first :: rest
      else if keyBefore key first then key :: first :: rest
      else first :: insertKey key rest

/-- The keys in ascending order, each once. -/
def sortKeys (keys : List (Int × Int)) : List (Int × Int) :=
  keys.foldr insertKey []

theorem mem_insertKey {key other : Int × Int} {keys : List (Int × Int)} :
    other ∈ insertKey key keys ↔ other = key ∨ other ∈ keys := by
  induction keys with
  | nil => simp [insertKey]
  | cons first rest ih =>
      unfold insertKey
      split
      · rename_i same
        subst same
        simp
      · split
        · simp
        · rw [List.mem_cons, ih, List.mem_cons]
          constructor
          · rintro (same | same | later)
            · exact .inr (.inl same)
            · exact .inl same
            · exact .inr (.inr later)
          · rintro (same | same | later)
            · exact .inr (.inl same)
            · exact .inl same
            · exact .inr (.inr later)

theorem mem_sortKeys {key : Int × Int} {keys : List (Int × Int)} :
    key ∈ sortKeys keys ↔ key ∈ keys := by
  induction keys with
  | nil => simp [sortKeys]
  | cons first rest ih =>
      have step : sortKeys (first :: rest) = insertKey first (sortKeys rest) := rfl
      rw [step, mem_insertKey, ih, List.mem_cons]

structure State where
  items : List Item
  key : List (Int × Int)
  key_eq : key = sortKeys (items.map Item.key)

namespace State

def ofItems (items : List Item) : State :=
  ⟨items, sortKeys (items.map Item.key), rfl⟩

/-- States are the same when their keys are. -/
def Same (left right : State) : Prop :=
  left.key = right.key

instance (left right : State) : Decidable (Same left right) :=
  inferInstanceAs (Decidable (_ = _))

@[simp] theorem items_ofItems (items : List Item) : (ofItems items).items = items :=
  rfl

theorem mem_key {state : State} {key : Int × Int} :
    key ∈ state.key ↔ ∃ item ∈ state.items, item.key = key := by
  rw [state.key_eq, mem_sortKeys, List.mem_map]

/-- The dots of all items have a place. -/
def Readable (state : State) : Prop :=
  ∀ item ∈ state.items, item.Readable

instance (state : State) : Decidable state.Readable :=
  inferInstanceAs (Decidable (∀ item ∈ state.items, item.Readable))

/-- The items in which all symbols have been read. -/
def completed (state : State) : List Item :=
  state.items.filter Item.isComplete

/-- The symbols after the dots, in the order of the items, each once. -/
def nextSymbols (state : State) : List Symbol :=
  (state.items.filterMap Item.next?).eraseDups

/-- The symbols after the dots, if all dots have a place. -/
def expected (state : State) : Except LookupError (List Symbol) :=
  if state.Readable then .ok state.nextSymbols else .error .outOfRange

theorem mem_nextSymbols {state : State} {symbol : Symbol} :
    symbol ∈ state.nextSymbols ↔ ∃ item ∈ state.items, item.next? = some symbol := by
  simp [nextSymbols]

/-- One item a line. -/
def text (state : State) : String :=
  "\n".intercalate (state.items.map Item.text)

end State

end GrammarWorkbench
