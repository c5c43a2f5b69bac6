/-!
# Groups

Pairs of a key and a value are grouped by key.  The keys keep the order in which
they first come, and so do the values of one key.
-/

namespace GrammarWorkbench

variable {κ α : Type} [DecidableEq κ]

/-- The keys of some pairs, each once. -/
def keysOf (pairs : List (κ × α)) : List κ :=
  (pairs.map (·.1)).eraseDups

/-- The values that stand beside a key. -/
def valuesOf (key : κ) (pairs : List (κ × α)) : List α :=
  (pairs.filter (·.1 = key)).map (·.2)

def grouped (pairs : List (κ × α)) : List (κ × List α) :=
  (keysOf pairs).map fun key => (key, valuesOf key pairs)

theorem mem_valuesOf {key : κ} {pairs : List (κ × α)} {value : α} :
    value ∈ valuesOf key pairs ↔ (key, value) ∈ pairs := by
  simp [valuesOf]

theorem mem_keysOf {key : κ} {pairs : List (κ × α)} :
    key ∈ keysOf pairs ↔ ∃ value, (key, value) ∈ pairs := by
  simp [keysOf]

theorem mem_grouped {key : κ} {values : List α} {pairs : List (κ × α)} :
    (key, values) ∈ grouped pairs ↔ key ∈ keysOf pairs ∧ values = valuesOf key pairs := by
  simp only [grouped, List.mem_map, Prod.mk.injEq]
  constructor
  · rintro ⟨_, member, rfl, rfl⟩
    exact ⟨member, rfl⟩
  · rintro ⟨member, rfl⟩
    exact ⟨key, member, rfl, rfl⟩

/-- No group is empty. -/
theorem ne_nil_of_mem_grouped {key : κ} {values : List α} {pairs : List (κ × α)}
    (member : (key, values) ∈ grouped pairs) : values ≠ [] := by
  obtain ⟨inKeys, same⟩ := mem_grouped.mp member
  obtain ⟨value, inPairs⟩ := mem_keysOf.mp inKeys
  exact same ▸ List.ne_nil_of_mem (mem_valuesOf.mpr inPairs)

end GrammarWorkbench
