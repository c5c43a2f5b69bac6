import GrammarWorkbench.Breadth

/-!
# The order in which values are reached

The values that are reached stand in the order of their first appearance among the first
values and those behind what is reached, so a search that leaves nothing behind is a
solution of one equation.  Each value but the first ones stands behind an earlier one.
-/

namespace GrammarWorkbench.Breadth

variable {α κ : Type} [DecidableEq κ] {key : α → κ}

theorem fresh_congr {left right : List κ} (same : ∀ found, found ∈ left ↔ found ∈ right)
    (values : List α) : fresh key left values = fresh key right values := by
  induction values generalizing left right with
  | nil => rfl
  | cons first rest ih =>
      have grown : ∀ found, found ∈ key first :: left ↔ found ∈ key first :: right := by
        simp [same]
      simp only [fresh, same, ih same, ih grown]

theorem fresh_append (seen : List κ) (earlier later : List α) :
    fresh key seen (earlier ++ later) =
      fresh key seen earlier ++ fresh key ((fresh key seen earlier).map key ++ seen) later := by
  induction earlier generalizing seen with
  | nil => rfl
  | cons first rest ih =>
      by_cases known : key first ∈ seen
      · simp only [List.cons_append, fresh, known, if_true, ih]
      · simp only [List.cons_append, fresh, known, if_false, ih, List.map_cons]
        have grown : ∀ found,
            found ∈ (fresh key (key first :: seen) rest).map key ++ key first :: seen ↔
              found ∈ key first :: (fresh key (key first :: seen) rest).map key ++ seen := by
          simp [or_left_comm]
        rw [fresh_congr grown, List.cons_append]

theorem ne_key_of_mem_fresh {seen : List κ} {values : List α} {value : α} {found : κ}
    (known : found ∈ seen) (member : value ∈ fresh key seen values) : found ≠ key value :=
  fun same => (subset_of_mem_fresh member).2 (same ▸ known)

/-- The first appearances of the keys come in the order of the fresh values. -/
theorem pairwise_findIdx_fresh (key : α → κ) (seen : List κ) (values : List α) :
    (fresh key seen values).Pairwise fun left right =>
      values.findIdx (key · = key left) < values.findIdx (key · = key right) := by
  induction values generalizing seen with
  | nil => exact List.Pairwise.nil
  | cons first rest ih =>
      have shifted : ∀ known : List κ, key first ∈ known → (fresh key known rest).Pairwise
          fun left right => (first :: rest).findIdx (key · = key left) <
            (first :: rest).findIdx (key · = key right) := by
        intro known inside
        refine (ih known).imp_of_mem fun leftMember rightMember less => ?_
        have leftNew := ne_key_of_mem_fresh inside leftMember
        have rightNew := ne_key_of_mem_fresh inside rightMember
        simpa [List.findIdx_cons, leftNew, rightNew] using less
      unfold fresh
      split
      · rename_i known
        exact shifted seen known
      · refine List.pairwise_cons.mpr ⟨fun later member => ?_, shifted _ List.mem_cons_self⟩
        have new := ne_key_of_mem_fresh List.mem_cons_self member
        simp [List.findIdx_cons, new]

theorem find?_of_mem_fresh {seen : List κ} {values : List α} {value : α}
    (member : value ∈ fresh key seen values) : values.find? (key · = key value) = some value := by
  induction values generalizing seen with
  | nil => cases member
  | cons first rest ih =>
      have shifted : ∀ known : List κ, key first ∈ known → value ∈ fresh key known rest →
          (first :: rest).find? (key · = key value) = some value := by
        intro known inside later
        have differs := ne_key_of_mem_fresh inside later
        rw [List.find?_cons_of_neg (by simpa using differs)]
        exact ih later
      unfold fresh at member
      split at member
      · rename_i known
        exact shifted seen known member
      · rcases List.mem_cons.mp member with rfl | later
        · exact List.find?_cons_of_pos (decide_eq_true rfl)
        · exact shifted _ List.mem_cons_self later

/-- The first of the values for each key, in the order in which the keys come. -/
structure FirstSeen (key : α → κ) (values firsts : List α) : Prop where
  covers : ∀ value ∈ values, key value ∈ firsts.map key
  first : ∀ value ∈ firsts, values.find? (key · = key value) = some value
  ordered : firsts.Pairwise fun left right =>
    values.findIdx (key · = key left) < values.findIdx (key · = key right)

theorem firstSeen_fresh (key : α → κ) (values : List α) :
    FirstSeen key values (fresh key [] values) where
  covers := fun _ member =>
    (mem_keys_fresh _).mpr ⟨List.mem_map_of_mem member, List.not_mem_nil⟩
  first := fun _ => find?_of_mem_fresh
  ordered := pairwise_findIdx_fresh key [] values

/-- What a list holds, each once, are its fresh values. -/
theorem eraseDups_eq_fresh (keys : List κ) : keys.eraseDups = fresh id [] keys := by
  have filtered : ∀ seen : List κ, fresh id seen keys = (keys.filter (· ∉ seen)).eraseDups := by
    induction keys with
    | nil => exact fun _ => rfl
    | cons first rest ih =>
        intro seen
        by_cases known : first ∈ seen
        · simp [fresh, known, ih]
        · have differs : ∀ other : κ, (other == first) = decide (other = first) :=
            fun _ => rfl
          simp [fresh, known, ih, List.eraseDups_cons, List.filter_filter, differs]
  rw [filtered [], List.filter_eq_self.mpr fun _ _ => by simp]

theorem nodup_eraseDups (keys : List κ) : keys.eraseDups.Nodup := by
  have nodup := nodup_keys_fresh id [] keys
  rwa [List.map_id, ← eraseDups_eq_fresh] at nodup

variable {next : α → List α}

/-- Layers begin the list of all that stands behind them. -/
theorem layersFrom_prefix_fresh (limit : Nat) (seen : List κ) (candidates : List α) :
    (layersFrom key (·.flatMap next) limit seen candidates).flatten <+:
      fresh key seen (candidates ++
        (layersFrom key (·.flatMap next) limit seen candidates).flatten.flatMap next) := by
  induction limit generalizing seen candidates with
  | zero => exact List.nil_prefix
  | succ limit ih =>
      unfold layersFrom
      dsimp only
      split
      · exact List.nil_prefix
      · rw [fresh_append, List.flatten_cons, List.flatMap_append]
        exact (List.prefix_append_right_inj _).mpr (ih _ _)

/-- A search that leaves nothing behind reaches the first of the values behind it for each key. -/
theorem reached_eq_fresh {limit : Nat} {start : List α}
    (closed : ∀ value ∈ start ++ (reached key (·.flatMap next) limit start).flatMap next,
      key value ∈ (reached key (·.flatMap next) limit start).map key) :
    reached key (·.flatMap next) limit start =
      fresh key [] (start ++ (reached key (·.flatMap next) limit start).flatMap next) := by
  obtain ⟨rest, split⟩ : reached key (·.flatMap next) limit start <+:
      fresh key [] (start ++ (reached key (·.flatMap next) limit start).flatMap next) :=
    layersFrom_prefix_fresh limit [] start
  have nodup := nodup_keys_fresh key [] (start ++
    (reached key (·.flatMap next) limit start).flatMap next)
  rw [← split, List.map_append] at nodup
  have none : rest = [] := by
    refine List.eq_nil_iff_forall_not_mem.mpr fun value member => ?_
    have inside := (subset_of_mem_fresh (split ▸ List.mem_append_right _ member)).1
    exact (List.nodup_append.mp nodup).2.2 _ (closed value inside) _
      (List.mem_map_of_mem member) rfl
  rw [← split, none, List.append_nil]

/-- What is reached is a candidate or stands right behind a value that is reached before it. -/
theorem exists_earlier_of_layersFrom {limit : Nat} {seen : List κ} {candidates : List α}
    {position : Nat} {value : α}
    (found : (layersFrom key (·.flatMap next) limit seen candidates).flatten[position]? =
      some value) :
    value ∈ candidates ∨ ∃ earlier before, earlier < position ∧
      (layersFrom key (·.flatMap next) limit seen candidates).flatten[earlier]? = some before ∧
      value ∈ next before := by
  induction limit generalizing seen candidates position with
  | zero => simp [layersFrom] at found
  | succ limit ih =>
      unfold layersFrom at found ⊢
      dsimp only at found ⊢
      split at found
      · simp at found
      · rename_i nonempty
        rw [if_neg nonempty, List.flatten_cons]
        rw [List.flatten_cons] at found
        by_cases here : position < (fresh key seen candidates).length
        · rw [List.getElem?_append_left here] at found
          exact .inl (subset_of_mem_fresh (List.mem_of_getElem? found)).1
        · have behind : (fresh key seen candidates).length ≤ position := Nat.le_of_not_lt here
          rw [List.getElem?_append_right behind] at found
          cases ih found with
          | inl fromLayer =>
              obtain ⟨before, member, follows⟩ := List.mem_flatMap.mp fromLayer
              obtain ⟨earlier, there⟩ := List.mem_iff_getElem?.mp member
              have inLayer := (List.getElem?_eq_some_iff.mp there).1
              refine .inr ⟨earlier, before, Nat.lt_of_lt_of_le inLayer behind, ?_, follows⟩
              rw [List.getElem?_append_left inLayer, there]
          | inr fromRest =>
              obtain ⟨earlier, before, less, there, follows⟩ := fromRest
              refine .inr ⟨(fresh key seen candidates).length + earlier, before, by omega, ?_,
                follows⟩
              rw [List.getElem?_append_right (Nat.le_add_right _ _), Nat.add_sub_cancel_left, there]

end GrammarWorkbench.Breadth
