import GrammarWorkbench.Sets.Table
import Mathlib.Data.List.Forall2
import Mathlib.Data.List.Perm.Subperm

/-!
# Growing tables

A table lies below another one when both have the same symbols and each set of the
first is contained in the set of the second.  A table that lies below one that is no
larger is that one.
-/

namespace GrammarWorkbench

namespace SymbolSet

theorem size_le_length {set : SymbolSet} {known : List Symbol}
    (inside : ∀ symbol ∈ set, symbol ∈ known) : set.size ≤ known.length :=
  (List.subperm_of_subset set.nodup inside).length_le

theorem size_le_size {left right : SymbolSet} (below : ∀ symbol ∈ left, symbol ∈ right) :
    left.size ≤ right.size :=
  size_le_length below

theorem eq_of_size_le {left right : SymbolSet} (below : ∀ symbol ∈ left, symbol ∈ right)
    (noLarger : right.size ≤ left.size) : left = right := by
  have perm := (List.subperm_of_subset left.nodup below).perm_of_length_le noLarger
  exact ext fun symbol => perm.mem_iff

end SymbolSet

namespace SetTable

/-- The entry of a symbol holds a member. -/
def Holds (table : SetTable) (symbol member : Symbol) : Prop :=
  ∃ set, table.get? symbol = some set ∧ member ∈ set

theorem mem_symbols {table : SetTable} {symbol : Symbol} :
    symbol ∈ table.symbols ↔ ∃ set, table.get? symbol = some set := by
  rw [← Option.isSome_iff_exists, get?, List.lookup_isSome_iff, symbols, List.mem_map]
  constructor
  · rintro ⟨entry, member, rfl⟩
    exact ⟨entry, member, beq_self_eq_true _⟩
  · rintro ⟨entry, member, same⟩
    exact ⟨entry, member, (eq_of_beq same).symm⟩

theorem get_of_mem_symbols {table : SetTable} {symbol : Symbol}
    (known : symbol ∈ table.symbols) :
    ∃ set, table.get symbol = .ok set ∧ ∀ member, member ∈ set ↔ table.Holds symbol member := by
  obtain ⟨set, found⟩ := mem_symbols.mp known
  refine ⟨set, by simp [get, found], fun member => ?_⟩
  simp [Holds, found]

theorem holds_ofSymbols {symbols : SymbolSet} {start : Symbol → SymbolSet}
    {symbol member : Symbol} :
    (ofSymbols symbols start).Holds symbol member ↔ symbol ∈ symbols ∧ member ∈ start symbol := by
  simp only [Holds, get?_ofSymbols]
  by_cases known : symbol ∈ symbols
  · simp [known]
  · simp [known]

/-- Adding a set to an entry adds its members to that entry and none to the others. -/
theorem holds_add {table : SetTable} {symbol other member : Symbol} {set : SymbolSet} :
    (table.add symbol set).Holds other member ↔
      table.Holds other member ∨ other = symbol ∧ other ∈ table.symbols ∧ member ∈ set := by
  simp only [Holds, get?_add, mem_symbols]
  by_cases here : other = symbol
  · subst here
    cases table.get? other with
    | none => simp
    | some known => simp
  · simp [here]

theorem mem_members_of_holds {table : SetTable} {symbol member : Symbol}
    (held : table.Holds symbol member) : member ∈ table.members := by
  obtain ⟨set, found, inSet⟩ := held
  obtain ⟨entries⟩ := table
  change entries.lookup symbol = some set at found
  induction entries with
  | nil => cases found
  | cons entry rest ih =>
      apply SymbolSet.mem_union.mpr
      rw [List.lookup_cons] at found
      split at found
      · cases found
        exact .inl inSet
      · exact .inr (ih found)

/-- Two entries of one symbol, the second with the larger set. -/
def EntryBelow (left right : Symbol × SymbolSet) : Prop :=
  left.1 = right.1 ∧ ∀ member ∈ left.2, member ∈ right.2

theorem EntryBelow.trans {left middle right : Symbol × SymbolSet}
    (lower : EntryBelow left middle) (upper : EntryBelow middle right) : EntryBelow left right :=
  ⟨lower.1.trans upper.1, fun member inside => upper.2 member (lower.2 member inside)⟩

/-- The second table has the same symbols with larger sets. -/
def Below (left right : SetTable) : Prop :=
  List.Forall₂ EntryBelow left.entries right.entries

namespace Below

theorem refl (table : SetTable) : Below table table :=
  List.forall₂_same.mpr fun _ _ => ⟨rfl, fun _ member => member⟩

theorem trans {left middle right : SetTable} (lower : Below left middle)
    (upper : Below middle right) : Below left right := by
  obtain ⟨entries⟩ := left
  obtain ⟨between⟩ := middle
  obtain ⟨others⟩ := right
  change List.Forall₂ EntryBelow entries between at lower
  change List.Forall₂ EntryBelow between others at upper
  show List.Forall₂ EntryBelow entries others
  induction lower generalizing others with
  | nil => exact upper
  | cons here _ ih =>
      cases upper with
      | cons above rest => exact .cons (here.trans above) (ih _ rest)

theorem symbols_eq {left right : SetTable} (below : Below left right) :
    left.symbols = right.symbols := by
  obtain ⟨entries⟩ := left
  obtain ⟨others⟩ := right
  change List.Forall₂ EntryBelow entries others at below
  induction below with
  | nil => rfl
  | cons here _ ih => exact List.cons_eq_cons.mpr ⟨here.1, ih⟩

/-- A larger table has an entry with a larger set. -/
theorem get?_of_get? {left right : SetTable} (below : Below left right) {symbol : Symbol}
    {set : SymbolSet} (found : left.get? symbol = some set) :
    ∃ larger, right.get? symbol = some larger ∧ ∀ member ∈ set, member ∈ larger := by
  obtain ⟨entries⟩ := left
  obtain ⟨others⟩ := right
  change List.Forall₂ EntryBelow entries others at below
  change entries.lookup symbol = some set at found
  show ∃ larger, others.lookup symbol = some larger ∧ _
  induction below with
  | nil => cases found
  | @cons entry other _ _ here _ ih =>
      rw [List.lookup_cons] at found ⊢
      rw [← here.1]
      split at found
      · cases found
        exact ⟨other.2, rfl, here.2⟩
      · exact ih found

/-- A larger table holds all that a smaller one does. -/
theorem holds {left right : SetTable} (below : Below left right) {symbol member : Symbol}
    (held : left.Holds symbol member) : right.Holds symbol member := by
  obtain ⟨set, found, inside⟩ := held
  obtain ⟨larger, there, contained⟩ := below.get?_of_get? found
  exact ⟨larger, there, contained member inside⟩

/-- A table grows in size as it grows in members. -/
theorem size_le {left right : SetTable} (below : Below left right) : left.size ≤ right.size := by
  obtain ⟨entries⟩ := left
  obtain ⟨others⟩ := right
  change List.Forall₂ EntryBelow entries others at below
  induction below with
  | nil => exact Nat.le_refl _
  | cons here _ ih => exact Nat.add_le_add (SymbolSet.size_le_size here.2) ih

/-- A table is as it was when it is no larger than it was. -/
theorem eq_of_size_le {left right : SetTable} (below : Below left right)
    (noLarger : right.size ≤ left.size) : left = right := by
  obtain ⟨entries⟩ := left
  obtain ⟨others⟩ := right
  change List.Forall₂ EntryBelow entries others at below
  apply congrArg mk
  induction below with
  | nil => rfl
  | @cons entry other rest others here later ih =>
      have first := SymbolSet.size_le_size here.2
      have tail : (mk rest).size ≤ (mk others).size := size_le later
      change other.2.size + (mk others).size ≤ entry.2.size + (mk rest).size at noLarger
      have set : entry.2 = other.2 := SymbolSet.eq_of_size_le here.2 (by omega)
      rw [Prod.ext here.1 set, ih (by omega)]

theorem antisymm {left right : SetTable} (below : Below left right)
    (above : Below right left) : left = right :=
  below.eq_of_size_le above.size_le

end Below

theorem below_add (table : SetTable) (symbol : Symbol) (set : SymbolSet) :
    Below table (table.add symbol set) := by
  unfold Below add
  rw [List.forall₂_map_right_iff]
  refine List.forall₂_same.mpr fun entry _ => ?_
  split
  · exact ⟨rfl, fun member inside => SymbolSet.mem_union.mpr (.inl inside)⟩
  · exact ⟨rfl, fun _ inside => inside⟩

theorem get?_of_mem {table : SetTable} {symbol : Symbol} {set : SymbolSet}
    (nodup : table.symbols.Nodup) (member : (symbol, set) ∈ table.entries) :
    table.get? symbol = some set := by
  obtain ⟨before, after, split⟩ := List.append_of_mem member
  refine List.lookup_eq_some_iff.mpr ⟨before, after, split, fun entry inside => ?_⟩
  rw [symbols, split, List.map_append] at nodup
  have apart := (List.nodup_append.mp nodup).2.2 entry.1 (List.mem_map_of_mem inside) symbol
    (by simp)
  simpa using Ne.symm apart

theorem size_le_of_entries {table : SetTable} {bound : Nat}
    (bounds : ∀ entry ∈ table.entries, entry.2.size ≤ bound) :
    table.size ≤ table.entries.length * bound := by
  obtain ⟨entries⟩ := table
  induction entries with
  | nil => exact Nat.zero_le _
  | cons entry rest ih =>
      have here := bounds entry List.mem_cons_self
      have later := ih fun other member => bounds other (List.mem_cons_of_mem _ member)
      rw [List.length_cons, Nat.succ_mul, Nat.add_comm]
      exact Nat.add_le_add here later

/-- The size of a table whose members are all known. -/
theorem size_le {table : SetTable} {known : List Symbol} (nodup : table.symbols.Nodup)
    (inside : ∀ symbol member, table.Holds symbol member → member ∈ known) :
    table.size ≤ table.symbols.length * known.length := by
  rw [symbols, List.length_map]
  apply size_le_of_entries
  intro entry member
  refine SymbolSet.size_le_length fun symbol inSet => inside entry.1 symbol ?_
  exact ⟨entry.2, get?_of_mem nodup member, inSet⟩

end SetTable

end GrammarWorkbench
