import GrammarWorkbench.Lookup
import GrammarWorkbench.Sets.SymbolSet

/-!
# Tables of symbol sets

A table gives a set to each of its symbols and grows one entry at a time.
-/

namespace GrammarWorkbench

structure SetTable where
  entries : List (Symbol × SymbolSet)
  deriving DecidableEq, Repr

namespace SetTable

/-- The table that gives each member of a set its first value. -/
def ofSymbols (symbols : SymbolSet) (start : Symbol → SymbolSet) : SetTable :=
  ⟨symbols.elems.map fun symbol => (symbol, start symbol)⟩

def symbols (table : SetTable) : List Symbol :=
  table.entries.map (·.1)

def get? (table : SetTable) (symbol : Symbol) : Option SymbolSet :=
  table.entries.lookup symbol

def get (table : SetTable) (symbol : Symbol) : Except LookupError SymbolSet :=
  match table.get? symbol with
  | some set => .ok set
  | none => .error (.unknownSymbol symbol)

/-- Add the members of a set to the entry of a symbol. -/
def add (table : SetTable) (symbol : Symbol) (set : SymbolSet) : SetTable :=
  ⟨table.entries.map fun entry => if entry.1 = symbol then (entry.1, entry.2 ∪ set) else entry⟩

/-- The number of members of all entries together. -/
def size (table : SetTable) : Nat :=
  table.entries.foldr (fun entry total => entry.2.size + total) 0

/-- The members of all entries. -/
def members (table : SetTable) : SymbolSet :=
  table.entries.foldr (fun entry known => entry.2 ∪ known) ∅

theorem get?_ofSymbols (symbols : SymbolSet) (start : Symbol → SymbolSet) (symbol : Symbol) :
    (ofSymbols symbols start).get? symbol =
      if symbol ∈ symbols then some (start symbol) else none := by
  obtain ⟨elems, ascending⟩ := symbols
  show (elems.map fun symbol => (symbol, start symbol)).lookup symbol =
    if symbol ∈ elems then some (start symbol) else none
  clear ascending
  induction elems with
  | nil => rfl
  | cons first rest ih =>
      by_cases same : symbol = first
      · simp [same]
      · have differ : (symbol == first) = false := by simpa using same
        simp [List.lookup_cons, differ, same, ih]

@[simp] theorem symbols_ofSymbols (symbols : SymbolSet) (start : Symbol → SymbolSet) :
    (ofSymbols symbols start).symbols = symbols.elems := by
  simp [ofSymbols, SetTable.symbols, Function.comp_def]

@[simp] theorem symbols_add (table : SetTable) (symbol : Symbol) (set : SymbolSet) :
    (table.add symbol set).symbols = table.symbols := by
  simp only [add, symbols, List.map_map]
  apply List.map_congr_left
  intro entry _
  show (if entry.1 = symbol then (entry.1, entry.2 ∪ set) else entry).1 = entry.1
  split <;> rfl

theorem get?_add (table : SetTable) (symbol other : Symbol) (set : SymbolSet) :
    (table.add symbol set).get? other =
      if other = symbol then (table.get? other).map (· ∪ set) else table.get? other := by
  obtain ⟨entries⟩ := table
  show (entries.map _).lookup other = _
  induction entries with
  | nil => simp [get?]
  | cons first rest ih =>
      obtain ⟨key, value⟩ := first
      simp only [get?] at ih ⊢
      by_cases same : key = symbol
      · subst same
        by_cases here : other = key
        · simp [here]
        · have differ : (other == key) = false := by simpa using here
          simpa [List.lookup_cons, differ, here] using ih
      · by_cases here : other = key
        · subst here
          simp [same]
        · have differ : (other == key) = false := by simpa using here
          simpa [List.lookup_cons, differ, same] using ih

end SetTable

end GrammarWorkbench
