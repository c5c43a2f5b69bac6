import GrammarWorkbench.Breadth
import Mathlib.Data.Finset.Card

/-!
# What breadth-first layers reach

Layers reach only what a property that passes on allows.  When the keys are known
beforehand and the limit is no smaller than their number, the layers are closed: what
stands behind a value that is reached has the key of a value that is reached.
-/

namespace GrammarWorkbench.Breadth

variable {α κ : Type} {key : α → κ}

/-- The value has a key that was seen before some values or that stands among them. -/
def Covered (key : α → κ) (seen : List κ) (values : List α) (value : α) : Prop :=
  key value ∈ seen ∨ key value ∈ values.map key

theorem Covered.append {seen : List κ} {layer : List α} {value : α}
    (covered : Covered key seen layer value) (rest : List α) :
    Covered key seen (layer ++ rest) value := by
  cases covered with
  | inl before => exact .inl before
  | inr here => exact .inr (List.map_append ▸ List.mem_append_left _ here)

theorem Covered.behind_layer {seen : List κ} {layer rest : List α} {value : α}
    (covered : Covered key (layer.map key ++ seen) rest value) :
    Covered key seen (layer ++ rest) value := by
  cases covered with
  | inl before =>
      cases List.mem_append.mp before with
      | inl here => exact .inr (List.map_append ▸ List.mem_append_left _ here)
      | inr earlier => exact .inl earlier
  | inr later => exact .inr (List.map_append ▸ List.mem_append_right _ later)

variable [DecidableEq κ] {behind : List α → List α} {P : α → Prop} {Next : α → α → Prop}

theorem of_mem_layersFrom (step : ∀ layer, (∀ value ∈ layer, P value) →
      ∀ value ∈ behind layer, P value)
    {limit : Nat} {seen : List κ} {candidates : List α} (start : ∀ value ∈ candidates, P value) :
    ∀ value ∈ (layersFrom key behind limit seen candidates).flatten, P value := by
  induction limit generalizing seen candidates with
  | zero => simp [layersFrom]
  | succ limit ih =>
      have layer : ∀ value ∈ fresh key seen candidates, P value := fun value member =>
        start value (subset_of_mem_fresh member).1
      unfold layersFrom
      dsimp only
      split
      · simp
      · intro value member
        cases List.mem_append.mp (List.flatten_cons ▸ member) with
        | inl here => exact layer value here
        | inr later => exact ih (step _ layer) value later

/-- What is reached has each property that the first values have and that passes on. -/
theorem of_mem_reached (step : ∀ layer, (∀ value ∈ layer, P value) →
      ∀ value ∈ behind layer, P value)
    {limit : Nat} {values : List α} (start : ∀ value ∈ values, P value) :
    ∀ value ∈ reached key behind limit values, P value :=
  of_mem_layersFrom step start

/-- No layer is empty. -/
theorem ne_nil_of_mem_layersFrom {limit : Nat} {seen : List κ} {candidates layer : List α}
    (member : layer ∈ layersFrom key behind limit seen candidates) : layer ≠ [] := by
  induction limit generalizing seen candidates with
  | zero => cases member
  | succ limit ih =>
      unfold layersFrom at member
      dsimp only at member
      split at member
      · cases member
      · rename_i filled
        rcases List.mem_cons.mp member with rfl | later
        · exact fun empty => filled (List.isEmpty_iff.mpr empty)
        · exact ih later

theorem covered_fresh (seen : List κ) {candidates : List α} {value : α}
    (member : value ∈ candidates) : Covered key seen (fresh key seen candidates) value := by
  by_cases known : key value ∈ seen
  · exact .inl known
  · exact .inr ((mem_keys_fresh _).mpr ⟨List.mem_map_of_mem member, known⟩)

/-- A layer that is not empty leaves fewer of the known keys unseen. -/
theorem card_unseen_lt {known : Finset κ} {seen : List κ} {candidates : List α}
    (inside : ∀ value ∈ candidates, key value ∈ known)
    (nonempty : fresh key seen candidates ≠ []) :
    (known.filter (· ∉ (fresh key seen candidates).map key ++ seen)).card <
      (known.filter (· ∉ seen)).card := by
  obtain ⟨value, member⟩ := List.exists_mem_of_ne_nil _ nonempty
  obtain ⟨candidate, unseen⟩ := subset_of_mem_fresh member
  have fewer : known.filter (· ∉ (fresh key seen candidates).map key ++ seen) ⊆
      known.filter (· ∉ seen) := by
    intro other
    simp only [Finset.mem_filter, List.mem_append, not_or]
    rintro ⟨isKnown, _, notSeen⟩
    exact ⟨isKnown, notSeen⟩
  refine Finset.card_lt_card ((Finset.ssubset_iff_of_subset fewer).mpr ⟨key value, ?_, ?_⟩)
  · exact Finset.mem_filter.mpr ⟨inside value candidate, unseen⟩
  · simp only [Finset.mem_filter, List.mem_append, not_and, not_not]
    exact fun _ => .inl (List.mem_map_of_mem member)

/-- Layers within a limit that bounds the unseen keys leave nothing behind. -/
theorem covered_of_unseen_le {known : Finset κ}
    (complete : ∀ layer, ∀ value ∈ layer, ∀ next, Next value next → next ∈ behind layer)
    (step : ∀ layer, (∀ value ∈ layer, P value) → ∀ value ∈ behind layer, P value)
    (inside : ∀ value, P value → key value ∈ known)
    {limit : Nat} {seen : List κ} {candidates : List α} (start : ∀ value ∈ candidates, P value)
    (enough : (known.filter (· ∉ seen)).card ≤ limit) :
    (∀ value ∈ candidates,
      Covered key seen (layersFrom key behind limit seen candidates).flatten value) ∧
      ∀ value ∈ (layersFrom key behind limit seen candidates).flatten, ∀ next,
        Next value next →
          Covered key seen (layersFrom key behind limit seen candidates).flatten next := by
  have candidatesKnown : ∀ value ∈ candidates, key value ∈ known := fun value member =>
    inside value (start value member)
  induction limit generalizing seen candidates with
  | zero =>
      have none : known.filter (· ∉ seen) = ∅ := Finset.card_eq_zero.mp (Nat.le_zero.mp enough)
      refine ⟨fun value member => .inl ?_, by simp [layersFrom]⟩
      by_contra unseen
      have left : key value ∈ known.filter (· ∉ seen) :=
        Finset.mem_filter.mpr ⟨candidatesKnown value member, unseen⟩
      simp [none] at left
  | succ limit ih =>
      have here : ∀ value ∈ candidates, Covered key seen (fresh key seen candidates) value :=
        fun _ member => covered_fresh seen member
      unfold layersFrom
      dsimp only
      split
      · rename_i empty
        have none : fresh key seen candidates = [] := List.isEmpty_iff.mp empty
        rw [none] at here
        exact ⟨here, fun _ member => absurd member List.not_mem_nil⟩
      · rename_i full
        have nonempty : fresh key seen candidates ≠ [] := fun none =>
          full (List.isEmpty_iff.mpr none)
        have layerHolds : ∀ value ∈ fresh key seen candidates, P value := fun value member =>
          start value (subset_of_mem_fresh member).1
        have behindHolds := step _ layerHolds
        have fewer := card_unseen_lt candidatesKnown nonempty
        obtain ⟨behindCovered, closed⟩ := ih behindHolds
          (Nat.le_of_lt_succ (Nat.lt_of_lt_of_le fewer enough))
          fun value member => inside value (behindHolds value member)
        rw [List.flatten_cons]
        refine ⟨fun value member => (here value member).append _, fun value member next edge => ?_⟩
        cases List.mem_append.mp member with
        | inl inLayer =>
            exact (behindCovered next (complete _ value inLayer next edge)).behind_layer
        | inr later => exact (closed value later next edge).behind_layer

/-- Layers within a limit that bounds the keys leave nothing behind. -/
theorem covered_layersFrom {known : Finset κ}
    (complete : ∀ layer, ∀ value ∈ layer, ∀ next, Next value next → next ∈ behind layer)
    (step : ∀ layer, (∀ value ∈ layer, P value) → ∀ value ∈ behind layer, P value)
    (inside : ∀ value, P value → key value ∈ known)
    {limit : Nat} (seen : List κ) {candidates : List α} (start : ∀ value ∈ candidates, P value)
    (enough : known.card ≤ limit) :
    (∀ value ∈ candidates,
      Covered key seen (layersFrom key behind limit seen candidates).flatten value) ∧
      ∀ value ∈ (layersFrom key behind limit seen candidates).flatten, ∀ next,
        Next value next →
          Covered key seen (layersFrom key behind limit seen candidates).flatten next :=
  covered_of_unseen_le complete step inside start ((Finset.card_filter_le _ _).trans enough)

/-- The first value is reached first. -/
theorem reached_singleton {limit : Nat} (positive : 0 < limit) (value : α) :
    ∃ rest, reached key behind limit [value] = value :: rest := by
  obtain ⟨limit, rfl⟩ := Nat.exists_eq_succ_of_ne_zero (Nat.ne_of_gt positive)
  unfold reached layers layersFrom
  simp [fresh]

end GrammarWorkbench.Breadth
