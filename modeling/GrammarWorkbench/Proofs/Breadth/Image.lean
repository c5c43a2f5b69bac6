import GrammarWorkbench.Proofs.Breadth.Order
import GrammarWorkbench.Proofs.Breadth

/-!
# Searches that run alike

Layers do not depend on the limit once it bounds the unseen keys, nor on the order in which
keys were seen.  A search along the images of values has the images of the layers, if the images
are told apart as the values are.
-/

namespace GrammarWorkbench.Breadth

variable {α β κ ι : Type} {key : α → κ} {other : β → ι} {image : α → β}
  {behind : List α → List α} {after : List β → List β} {P : α → Prop}

/-- The images of values are told apart as the values are. -/
def Faithful (key : α → κ) (other : β → ι) (image : α → β) (P : α → Prop) : Prop :=
  ∀ left right, P left → P right → (other (image left) = other (image right) ↔ key left = key right)

/-- The images of the values whose keys were seen are those that were seen. -/
def SeenAlike (key : α → κ) (other : β → ι) (image : α → β) (P : α → Prop) (seen : List κ)
    (marks : List ι) : Prop :=
  ∀ value, P value → (other (image value) ∈ marks ↔ key value ∈ seen)

theorem SeenAlike.grow (faithful : Faithful key other image P) {seen : List κ} {marks : List ι}
    (alike : SeenAlike key other image P seen marks) {values : List α}
    (holds : ∀ value ∈ values, P value) :
    SeenAlike key other image P (values.map key ++ seen)
      ((values.map image).map other ++ marks) := by
  intro value here
  simp only [List.mem_append, List.mem_map, alike value here]
  refine or_congr_left ⟨?_, ?_⟩
  · rintro ⟨_, ⟨found, member, rfl⟩, same⟩
    exact ⟨found, member, (faithful _ _ (holds found member) here).mp same⟩
  · rintro ⟨found, member, same⟩
    exact ⟨_, ⟨found, member, rfl⟩, (faithful _ _ (holds found member) here).mpr same⟩

variable [DecidableEq κ] [DecidableEq ι]

/-! ## Limits -/

theorem layersFrom_congr {left right : List κ} (same : ∀ found, found ∈ left ↔ found ∈ right)
    {values others : List α} (alike : fresh key left values = fresh key left others) (limit : Nat) :
    layersFrom key behind limit left values = layersFrom key behind limit right others := by
  induction limit generalizing left right values others with
  | zero => rfl
  | succ limit ih =>
      have grown : ∀ found, found ∈ (fresh key left others).map key ++ left ↔
          found ∈ (fresh key left others).map key ++ right := by
        simp [same]
      simp only [layersFrom, alike, ← fresh_congr same others, ih grown rfl]

/-- What stands behind a layer counts only for its fresh values, and only for layers that may be. -/
theorem layersFrom_congr_behind {ahead : List α → List α}
    (step : ∀ layer, (∀ value ∈ layer, P value) → (∀ value ∈ behind layer, P value) ∧
      ∀ seen, fresh key seen (behind layer) = fresh key seen (ahead layer))
    {candidates : List α} (start : ∀ value ∈ candidates, P value) (limit : Nat) (seen : List κ) :
    layersFrom key behind limit seen candidates = layersFrom key ahead limit seen candidates := by
  induction limit generalizing seen candidates with
  | zero => rfl
  | succ limit ih =>
      obtain ⟨passes, same⟩ := step (fresh key seen candidates) fun value member =>
        start value (subset_of_mem_fresh member).1
      simp only [layersFrom]
      rw [ih passes, layersFrom_congr (fun _ => Iff.rfl) (same _)]

/-- Values whose keys were seen may be left out beforehand. -/
theorem fresh_filter (key : α → κ) {earlier seen : List κ}
    (subset : ∀ found ∈ earlier, found ∈ seen) (values : List α) :
    fresh key seen (values.filter (key · ∉ earlier)) = fresh key seen values := by
  induction values generalizing seen with
  | nil => rfl
  | cons first rest ih =>
      have grown : ∀ found ∈ earlier, found ∈ key first :: seen :=
        fun found member => List.mem_cons_of_mem _ (subset found member)
      by_cases known : key first ∈ earlier
      · rw [List.filter_cons_of_neg (by simpa using known)]
        simp only [fresh, subset _ known, if_true, ih subset]
      · rw [List.filter_cons_of_pos (by simpa using known)]
        simp only [fresh, ih subset, ih grown]

theorem layersFrom_of_fresh_eq_nil {limit : Nat} {seen : List κ} {candidates : List α}
    (none : fresh key seen candidates = []) :
    layersFrom key behind limit seen candidates = [] := by
  cases limit with
  | zero => rfl
  | succ limit => simp [layersFrom, none]

theorem layersFrom_succ {limit : Nat} {seen : List κ} {candidates : List α}
    (some : fresh key seen candidates ≠ []) :
    layersFrom key behind (limit + 1) seen candidates = fresh key seen candidates ::
      layersFrom key behind limit ((fresh key seen candidates).map key ++ seen)
        (behind (fresh key seen candidates)) := by
  simp [layersFrom, some]

theorem layersFrom_unseen_limit (known : Finset κ) (inside : ∀ value, P value → key value ∈ known)
    (step : ∀ layer, (∀ value ∈ layer, P value) → ∀ value ∈ behind layer, P value)
    {left right : Nat} {seen : List κ} {candidates : List α}
    (start : ∀ value ∈ candidates, P value)
    (enough : (known.filter (· ∉ seen)).card ≤ left)
    (also : (known.filter (· ∉ seen)).card ≤ right) :
    layersFrom key behind left seen candidates = layersFrom key behind right seen candidates := by
  induction left generalizing right seen candidates with
  | zero =>
      by_cases none : fresh key seen candidates = []
      · rw [layersFrom_of_fresh_eq_nil none, layersFrom_of_fresh_eq_nil none]
      · have fewer := card_unseen_lt (fun value member => inside value (start value member)) none
        omega
  | succ left ih =>
      by_cases none : fresh key seen candidates = []
      · rw [layersFrom_of_fresh_eq_nil none, layersFrom_of_fresh_eq_nil none]
      · have fewer := card_unseen_lt (fun value member => inside value (start value member)) none
        obtain ⟨right, rfl⟩ := Nat.exists_eq_succ_of_ne_zero (show right ≠ 0 by omega)
        have layer : ∀ value ∈ fresh key seen candidates, P value :=
          fun value member => start value (subset_of_mem_fresh member).1
        rw [layersFrom_succ none, layersFrom_succ none]
        exact congrArg _ (ih (step _ layer) (by omega) (by omega))

/-- Limits that bound the keys give the same layers. -/
theorem layersFrom_limit (known : Finset κ) (inside : ∀ value, P value → key value ∈ known)
    (step : ∀ layer, (∀ value ∈ layer, P value) → ∀ value ∈ behind layer, P value)
    {left right : Nat} {seen : List κ} {candidates : List α}
    (start : ∀ value ∈ candidates, P value) (enough : known.card ≤ left)
    (also : known.card ≤ right) :
    layersFrom key behind left seen candidates = layersFrom key behind right seen candidates :=
  layersFrom_unseen_limit known inside step start ((Finset.card_filter_le _ _).trans enough)
    ((Finset.card_filter_le _ _).trans also)

/-! ## Closed values -/

theorem fresh_eq_nil {seen : List κ} {values : List α}
    (known : ∀ value ∈ values, key value ∈ seen) : fresh key seen values = [] := by
  refine List.eq_nil_iff_forall_not_mem.mpr fun value member => ?_
  obtain ⟨inside, new⟩ := subset_of_mem_fresh member
  exact new (known value inside)

theorem fresh_eq_self {seen : List κ} {values : List α} (nodup : (values.map key).Nodup)
    (new : ∀ value ∈ values, key value ∉ seen) : fresh key seen values = values := by
  induction values generalizing seen with
  | nil => rfl
  | cons first rest ih =>
      rw [List.map_cons] at nodup
      obtain ⟨apart, tail⟩ := List.nodup_cons.mp nodup
      obtain ⟨here, later⟩ := List.forall_mem_cons.mp new
      have grown : ∀ value ∈ rest, key value ∉ key first :: seen := by
        intro value member known
        rcases List.mem_cons.mp known with same | before
        · exact apart (same ▸ List.mem_map_of_mem member)
        · exact later value member before
      simp only [fresh, here, if_false, ih tail grown]

/-- A search that begins with closed values reaches no others. -/
theorem reached_eq_self {limit : Nat} {values : List α} (positive : 0 < limit)
    (nodup : (values.map key).Nodup)
    (closed : ∀ value ∈ behind values, key value ∈ values.map key) :
    reached key behind limit values = values := by
  obtain ⟨limit, rfl⟩ := Nat.exists_eq_succ_of_ne_zero (Nat.ne_of_gt positive)
  have first : fresh key [] values = values :=
    fresh_eq_self nodup fun _ _ => List.not_mem_nil
  unfold reached layers
  by_cases none : values = []
  · rw [none, layersFrom_of_fresh_eq_nil rfl, List.flatten_nil]
  · have behindKnown : fresh key (values.map key ++ []) (behind values) = [] :=
      fresh_eq_nil fun value member => List.mem_append_left _ (closed value member)
    rw [layersFrom_succ (first.symm ▸ none), first, layersFrom_of_fresh_eq_nil behindKnown,
      List.flatten_singleton]

/-! ## Repeated parts -/

/-- What comes from a mark that was met earlier adds nothing. -/
theorem fresh_flatMap_fresh (parts : ι → List α) {earlier : List ι} {seen : List κ}
    (known : ∀ mark ∈ earlier, ∀ part ∈ parts mark, key part ∈ seen) (marks : List ι) :
    fresh key seen ((fresh id earlier marks).flatMap parts) =
      fresh key seen (marks.flatMap parts) := by
  induction marks generalizing earlier seen with
  | nil => rfl
  | cons mark rest ih =>
      by_cases before : mark ∈ earlier
      · have none : fresh key seen (parts mark) = [] := fresh_eq_nil (known mark before)
        simp only [fresh, id, before, if_true, List.flatMap_cons, fresh_append, none,
          List.map_nil, List.nil_append, ih known]
      · have grown : ∀ other ∈ mark :: earlier, ∀ part ∈ parts other,
            key part ∈ (fresh key seen (parts mark)).map key ++ seen := by
          intro other member part inside
          cases List.mem_cons.mp member with
          | inl same => exact List.mem_append.mpr (covered_fresh seen (same ▸ inside)).symm
          | inr later => exact List.mem_append_right _ (known other later part inside)
        simp only [fresh, id, before, if_false, List.flatMap_cons, fresh_append, ih grown]

theorem fresh_flatMap_eraseDups (parts : ι → List α) (seen : List κ) (marks : List ι) :
    fresh key seen (marks.eraseDups.flatMap parts) = fresh key seen (marks.flatMap parts) := by
  rw [eraseDups_eq_fresh]
  exact fresh_flatMap_fresh parts (fun _ member => absurd member List.not_mem_nil) marks

/-! ## Images -/

theorem fresh_map (faithful : Faithful key other image P) {seen : List κ} {marks : List ι}
    (alike : SeenAlike key other image P seen marks) {values : List α}
    (holds : ∀ value ∈ values, P value) :
    fresh other marks (values.map image) = (fresh key seen values).map image := by
  induction values generalizing seen marks with
  | nil => rfl
  | cons first rest ih =>
      obtain ⟨here, later⟩ := List.forall_mem_cons.mp holds
      have grown := alike.grow faithful (List.forall_mem_singleton.mpr here)
      by_cases known : key first ∈ seen
      · simp only [List.map_cons, fresh, known, (alike first here).mpr known, if_true,
          ih alike later]
      · simp only [List.map_cons, fresh, known, mt (alike first here).mp known, if_false]
        exact congrArg _ (ih grown later)

/-- Layers of images are images of layers. -/
theorem layersFrom_map (faithful : Faithful key other image P) {limit : Nat} {seen : List κ}
    {marks : List ι} (alike : SeenAlike key other image P seen marks) {candidates : List α}
    (start : ∀ value ∈ candidates, P value)
    (step : ∀ layer ∈ layersFrom key behind limit seen candidates,
      (∀ value ∈ behind layer, P value) ∧ after (layer.map image) = (behind layer).map image) :
    layersFrom other after limit marks (candidates.map image) =
      (layersFrom key behind limit seen candidates).map (List.map image) := by
  induction limit generalizing seen marks candidates with
  | zero => rfl
  | succ limit ih =>
      have layer := fresh_map faithful alike start
      by_cases none : fresh key seen candidates = []
      · rw [none, List.map_nil] at layer
        rw [layersFrom_of_fresh_eq_nil none, layersFrom_of_fresh_eq_nil layer, List.map_nil]
      · have some : fresh other marks (candidates.map image) ≠ [] := by
          rw [layer]
          exact fun empty => none (List.map_eq_nil_iff.mp empty)
        rw [layersFrom_succ none] at step
        obtain ⟨⟨passes, behindImage⟩, later⟩ := List.forall_mem_cons.mp step
        have holds : ∀ value ∈ fresh key seen candidates, P value :=
          fun value member => start value (subset_of_mem_fresh member).1
        rw [layersFrom_succ none, layersFrom_succ some, List.map_cons, layer, behindImage,
          ih (alike.grow faithful holds) passes later]

end GrammarWorkbench.Breadth
