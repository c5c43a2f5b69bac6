import GrammarWorkbench.Symbol
import GrammarWorkbench.Text.Order

/-!
# Finite sets of symbols

A set is the ascending list of its members, so that equal sets are equal lists and
reading a set in order costs nothing.  Symbols are ordered by their code points.
-/

namespace GrammarWorkbench

open Text (Precedes eq_of_not_precedes)

/-- Each symbol stands before those behind it in the list, so none is repeated. -/
def Ascending (symbols : List Symbol) : Prop :=
  symbols.Pairwise Precedes

instance (symbols : List Symbol) : Decidable (Ascending symbols) :=
  inferInstanceAs (Decidable (symbols.Pairwise Precedes))

theorem takeWhile_of_ascending {symbols : List Symbol} (ascending : Ascending symbols)
    (bound : Symbol) :
    symbols.takeWhile (Precedes · bound) = symbols.filter (Precedes · bound) := by
  induction symbols with
  | nil => rfl
  | cons first rest ih =>
      obtain ⟨below, tail⟩ := List.pairwise_cons.mp ascending
      by_cases less : Precedes first bound
      · simp [less, ih tail]
      · have none : rest.filter (Precedes · bound) = [] := by
          simp only [List.filter_eq_nil_iff, decide_eq_true_eq]
          intro symbol member smaller
          exact less ((below symbol member).trans smaller)
        simp [less, none]

theorem dropWhile_of_ascending {symbols : List Symbol} (ascending : Ascending symbols)
    (bound : Symbol) :
    symbols.dropWhile (¬ Precedes bound ·) = symbols.filter (Precedes bound ·) := by
  induction symbols with
  | nil => rfl
  | cons first rest ih =>
      obtain ⟨below, tail⟩ := List.pairwise_cons.mp ascending
      by_cases greater : Precedes bound first
      · have all : rest.filter (Precedes bound ·) = rest := by
          simp only [List.filter_eq_self, decide_eq_true_eq]
          intro symbol member
          exact greater.trans (below symbol member)
        simp [greater, all]
      · simpa [greater] using ih tail

/-- Two ascending lists as one, in which a common member stands once. -/
def merge : List Symbol → List Symbol → List Symbol
  | [], right => right
  | first :: left, right =>
      right.takeWhile (Precedes · first) ++
        first :: merge left (right.dropWhile (¬ Precedes first ·))

theorem mem_merge (left : List Symbol) {right : List Symbol} (ascending : Ascending right)
    (symbol : Symbol) : symbol ∈ merge left right ↔ symbol ∈ left ∨ symbol ∈ right := by
  induction left generalizing right with
  | nil => simp [merge]
  | cons first left ih =>
      have rest : Ascending (right.filter (Precedes first ·)) := ascending.filter _
      rw [merge, takeWhile_of_ascending ascending, dropWhile_of_ascending ascending]
      simp only [List.mem_append, List.mem_filter, List.mem_cons, ih rest, decide_eq_true_eq]
      constructor
      · rintro (⟨member, _⟩ | same | member | ⟨member, _⟩)
        · exact .inr member
        · exact .inl (.inl same)
        · exact .inl (.inr member)
        · exact .inr member
      · rintro ((same | member) | member)
        · exact .inr (.inl same)
        · exact .inr (.inr (.inl member))
        · by_cases less : Precedes symbol first
          · exact .inl ⟨member, less⟩
          · by_cases greater : Precedes first symbol
            · exact .inr (.inr (.inr ⟨member, greater⟩))
            · exact .inr (.inl (eq_of_not_precedes less greater))

theorem ascending_merge {left right : List Symbol} (leftAscending : Ascending left)
    (rightAscending : Ascending right) : Ascending (merge left right) := by
  induction left generalizing right with
  | nil => exact rightAscending
  | cons first left ih =>
      obtain ⟨above, tail⟩ := List.pairwise_cons.mp leftAscending
      have rest : Ascending (right.filter (Precedes first ·)) := rightAscending.filter _
      have greater : ∀ symbol ∈ merge left (right.filter (Precedes first ·)),
          Precedes first symbol := by
        intro symbol member
        rcases (mem_merge left rest symbol).mp member with inLeft | inRight
        · exact above symbol inLeft
        · exact of_decide_eq_true (List.mem_filter.mp inRight).2
      rw [merge, takeWhile_of_ascending rightAscending,
        dropWhile_of_ascending rightAscending]
      refine List.pairwise_append.mpr ⟨rightAscending.filter _, ?_, ?_⟩
      · exact List.pairwise_cons.mpr ⟨greater, ih tail rest⟩
      · intro lower lowerMember upper upperMember
        have less : Precedes lower first := of_decide_eq_true (List.mem_filter.mp lowerMember).2
        rcases List.mem_cons.mp upperMember with same | later
        · exact same ▸ less
        · exact less.trans (greater upper later)

/-- A finite set of symbols. -/
structure SymbolSet where
  elems : List Symbol
  ascending : Ascending elems
  deriving DecidableEq, Repr

namespace SymbolSet

instance : Membership Symbol SymbolSet where
  mem set symbol := symbol ∈ set.elems

instance (symbol : Symbol) (set : SymbolSet) : Decidable (symbol ∈ set) :=
  inferInstanceAs (Decidable (symbol ∈ set.elems))

theorem mem_elems {symbol : Symbol} {set : SymbolSet} : symbol ∈ set.elems ↔ symbol ∈ set :=
  Iff.rfl

def empty : SymbolSet := ⟨[], List.Pairwise.nil⟩

instance : EmptyCollection SymbolSet := ⟨empty⟩

def single (symbol : Symbol) : SymbolSet := ⟨[symbol], List.pairwise_singleton _ _⟩

def union (left right : SymbolSet) : SymbolSet :=
  ⟨merge left.elems right.elems, ascending_merge left.ascending right.ascending⟩

instance : Union SymbolSet := ⟨union⟩

/-- The members that pass a test. -/
def filter (test : Symbol → Bool) (set : SymbolSet) : SymbolSet :=
  ⟨set.elems.filter test, set.ascending.filter _⟩

/-- The set without one symbol. -/
def erase (set : SymbolSet) (symbol : Symbol) : SymbolSet :=
  set.filter (· ≠ symbol)

/-- The members of both sets. -/
def inter (left right : SymbolSet) : SymbolSet :=
  left.filter (· ∈ right)

def ofList (symbols : List Symbol) : SymbolSet :=
  symbols.foldr (fun symbol set => single symbol ∪ set) ∅

def size (set : SymbolSet) : Nat :=
  set.elems.length

@[simp] theorem not_mem_empty (symbol : Symbol) : symbol ∉ (∅ : SymbolSet) :=
  List.not_mem_nil

@[simp] theorem mem_single {symbol other : Symbol} : symbol ∈ single other ↔ symbol = other :=
  List.mem_singleton

@[simp] theorem mem_union {symbol : Symbol} {left right : SymbolSet} :
    symbol ∈ left ∪ right ↔ symbol ∈ left ∨ symbol ∈ right :=
  mem_merge left.elems right.ascending symbol

@[simp] theorem mem_filter {symbol : Symbol} {test : Symbol → Bool} {set : SymbolSet} :
    symbol ∈ set.filter test ↔ symbol ∈ set ∧ test symbol = true :=
  List.mem_filter

@[simp] theorem mem_erase {symbol other : Symbol} {set : SymbolSet} :
    symbol ∈ set.erase other ↔ symbol ∈ set ∧ symbol ≠ other := by
  simp [erase]

@[simp] theorem mem_inter {symbol : Symbol} {left right : SymbolSet} :
    symbol ∈ left.inter right ↔ symbol ∈ left ∧ symbol ∈ right := by
  simp [inter]

@[simp] theorem mem_ofList {symbol : Symbol} {symbols : List Symbol} :
    symbol ∈ ofList symbols ↔ symbol ∈ symbols := by
  induction symbols with
  | nil => simp [ofList]
  | cons first rest ih =>
      have step : ofList (first :: rest) = single first ∪ ofList rest := rfl
      rw [step, mem_union, mem_single, ih, List.mem_cons]

theorem nodup (set : SymbolSet) : set.elems.Nodup := by
  refine List.Pairwise.imp ?_ set.ascending
  intro lower upper less same
  subst same
  exact Precedes.irrefl lower less

/-- Sets with the same members are equal. -/
theorem ext {left right : SymbolSet} (same : ∀ symbol, symbol ∈ left ↔ symbol ∈ right) :
    left = right := by
  obtain ⟨leftElems, leftAscending⟩ := left
  obtain ⟨rightElems, rightAscending⟩ := right
  have elems : leftElems = rightElems := by
    have perm : leftElems.Perm rightElems :=
      (List.perm_ext_iff_of_nodup (nodup ⟨leftElems, leftAscending⟩)
        (nodup ⟨rightElems, rightAscending⟩)).mpr same
    exact perm.eq_of_pairwise
      (fun _ _ _ _ less greater => absurd (less.trans greater) (Precedes.irrefl _))
      leftAscending rightAscending
  subst elems
  rfl

end SymbolSet

end GrammarWorkbench
