import GrammarWorkbench.Automaton.Construction
import Mathlib.Data.Finset.Card
import Mathlib.Data.List.Sublists

/-!
# Keys of states

The key of a state is in strict order, so it is determined by its members.  The keys
of states over given rules are therefore no more than the sets of places for dots.
-/

namespace GrammarWorkbench

theorem keyBefore_iff {left right : Int × Int} :
    keyBefore left right = true ↔ left.1 < right.1 ∨ left.1 = right.1 ∧ left.2 < right.2 := by
  simp [keyBefore]

theorem keyBefore_trans {left middle right : Int × Int} (lower : keyBefore left middle = true)
    (upper : keyBefore middle right = true) : keyBefore left right = true := by
  rw [keyBefore_iff] at *
  omega

theorem keyBefore_total {left right : Int × Int} (differ : left ≠ right) :
    keyBefore left right = true ∨ keyBefore right left = true := by
  rw [keyBefore_iff, keyBefore_iff]
  have apart : ¬ (left.1 = right.1 ∧ left.2 = right.2) := fun ⟨first, second⟩ =>
    differ (Prod.ext first second)
  omega

/-- The keys stand in strict order. -/
def Ordered (keys : List (Int × Int)) : Prop :=
  keys.Pairwise (keyBefore · · = true)

theorem ordered_insertKey {key : Int × Int} {keys : List (Int × Int)} (ordered : Ordered keys) :
    Ordered (insertKey key keys) := by
  induction keys with
  | nil => exact List.pairwise_singleton _ _
  | cons first rest ih =>
      obtain ⟨below, tail⟩ := List.pairwise_cons.mp ordered
      unfold insertKey
      split
      · exact ordered
      · rename_i differ
        split
        · rename_i less
          refine List.pairwise_cons.mpr ⟨fun other member => ?_, ordered⟩
          cases List.mem_cons.mp member with
          | inl same => exact same ▸ less
          | inr later => exact keyBefore_trans less (below other later)
        · rename_i notLess
          have greater : keyBefore first key = true :=
            (keyBefore_total differ).resolve_left notLess
          refine List.pairwise_cons.mpr ⟨fun other member => ?_, ih tail⟩
          cases mem_insertKey.mp member with
          | inl same => exact same ▸ greater
          | inr later => exact below other later

theorem ordered_sortKeys (keys : List (Int × Int)) : Ordered (sortKeys keys) := by
  induction keys with
  | nil => exact List.Pairwise.nil
  | cons first rest ih => exact ordered_insertKey ih

/-- Keys in order are equal when they have the same members. -/
theorem Ordered.eq {left right : List (Int × Int)} (leftOrdered : Ordered left)
    (rightOrdered : Ordered right) (same : ∀ key, key ∈ left ↔ key ∈ right) : left = right := by
  have irrefl : ∀ key : Int × Int, ¬ keyBefore key key = true := fun key less => by
    rw [keyBefore_iff] at less
    omega
  have nodup : ∀ {keys}, Ordered keys → keys.Nodup := by
    intro keys ordered
    refine List.Pairwise.imp (fun less same => ?_) ordered
    exact irrefl _ (same ▸ less)
  have perm := (List.perm_ext_iff_of_nodup (nodup leftOrdered) (nodup rightOrdered)).mpr same
  exact perm.eq_of_pairwise
    (fun _ _ _ _ less greater => absurd (keyBefore_trans less greater) (irrefl _))
    leftOrdered rightOrdered

theorem State.ordered_key (state : State) : Ordered state.key :=
  state.key_eq ▸ ordered_sortKeys _

/-! ## Places for dots -/

/-- The dot of an item has a place in its rule, which is one of the given rules. -/
def Item.Placed (rules : List Rule) (item : Item) : Prop :=
  item.rule ∈ rules ∧ ∃ dot : Nat, item.dot = dot ∧ dot ≤ item.rule.rhs.length

namespace Ruleset

/-- The keys of all items of the rules. -/
def places (rules : List Rule) : List (Int × Int) :=
  rules.flatMap fun rule =>
    (List.range (rule.rhs.length + 1)).map fun dot : Nat => (rule.index, (dot : Int))

theorem length_places (ruleset : Ruleset) : (places ruleset.rules).length = ruleset.dotPlaces := by
  unfold places dotPlaces
  induction ruleset.rules with
  | nil => rfl
  | cons first rest ih =>
      rw [List.flatMap_cons, List.length_append, ih, List.length_map, List.length_range,
        List.foldr_cons]

theorem key_mem_places {rules : List Rule} {item : Item} (placed : item.Placed rules) :
    item.key ∈ places rules := by
  obtain ⟨member, dot, same, inside⟩ := placed
  refine List.mem_flatMap.mpr ⟨item.rule, member, ?_⟩
  refine List.mem_map.mpr ⟨dot, List.mem_range.mpr (Nat.lt_succ_of_le inside), ?_⟩
  rw [Item.key, same]

/-- The keys that states over the rules may have. -/
def stateKeys (rules : List Rule) : Finset (List (Int × Int)) :=
  ((places rules).sublists.map sortKeys).toFinset

theorem card_stateKeys_le (ruleset : Ruleset) :
    (stateKeys ruleset.rules).card ≤ Nat.pow 2 ruleset.dotPlaces := by
  apply Nat.le_trans (List.toFinset_card_le _)
  rw [List.length_map, List.length_sublists, length_places]
  exact Nat.le_refl _

theorem key_mem_stateKeys {rules : List Rule} {state : State}
    (placed : ∀ item ∈ state.items, item.Placed rules) : state.key ∈ stateKeys rules := by
  have same : sortKeys ((places rules).filter (· ∈ state.key)) = state.key := by
    refine (ordered_sortKeys _).eq state.ordered_key fun key => ?_
    rw [mem_sortKeys, List.mem_filter, decide_eq_true_eq]
    refine ⟨And.right, fun member => ⟨?_, member⟩⟩
    obtain ⟨item, inside, rfl⟩ := State.mem_key.mp member
    exact key_mem_places (placed item inside)
  rw [stateKeys, List.mem_toFinset, List.mem_map]
  exact ⟨_, List.mem_sublists.mpr List.filter_sublist, same⟩

end Ruleset

end GrammarWorkbench
