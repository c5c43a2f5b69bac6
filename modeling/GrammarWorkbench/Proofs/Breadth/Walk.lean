import GrammarWorkbench.Proofs.Breadth.Order

/-!
# Layers by a growing list

A walk goes through a list that grows while it is walked: what stands behind each value joins
the end of the list, if its key is new.  When layers leave nothing behind, the walk comes upon
each value that they reach exactly once and in their order, and then it has come to its end.
-/

namespace GrammarWorkbench

/-- The values that were found, and the place of the one to be expanded next. -/
structure Walk (α : Type) where
  found : List α
  place : Nat

namespace Walk

open Breadth

variable {α κ : Type} [DecidableEq κ] {key : α → κ} {next : α → List α} {start values : List α}

/-- Expand one value, if there is one at the place. -/
def step? (key : α → κ) (next : α → List α) (walk : Walk α) : Option (Walk α) :=
  walk.found[walk.place]?.map fun value =>
    ⟨walk.found ++ fresh key (walk.found.map key) (next value), walk.place + 1⟩

/-- A walk with the places that are expanded, one after the other, until it comes to its end. -/
inductive Ends (key : α → κ) (next : α → List α) : Walk α → List Nat → Walk α → Prop
  | stop {walk : Walk α} (done : walk.step? key next = none) : Ends key next walk [] walk
  | step {walk middle final : Walk α} {places : List Nat}
      (expands : walk.step? key next = some middle) (rest : Ends key next middle places final) :
      Ends key next walk (walk.place :: places) final

/-- The values in the order in which a search finds them that leaves nothing behind. -/
structure Discovered (key : α → κ) (next : α → List α) (start values : List α) : Prop where
  eq_fresh : values = fresh key [] (start ++ values.flatMap next)
  found_earlier : ∀ (place : Nat) (value : α), values[place]? = some value → value ∈ start ∨
    ∃ (earlier : Nat) (before : α), earlier < place ∧ values[earlier]? = some before ∧
      value ∈ next before

theorem discovered_reached {limit : Nat}
    (closed : ∀ value ∈ start ++ (reached key (·.flatMap next) limit start).flatMap next,
      key value ∈ (reached key (·.flatMap next) limit start).map key) :
    Discovered key next start (reached key (·.flatMap next) limit start) :=
  ⟨reached_eq_fresh closed, fun _ _ there => exists_earlier_of_layersFrom there⟩

theorem Discovered.nodup (discovered : Discovered key next start values) :
    (values.map key).Nodup :=
  discovered.eq_fresh ▸ nodup_keys_fresh key [] _

/-- What is found when the values before a place have been expanded. -/
def foundAt (key : α → κ) (next : α → List α) (start values : List α) (place : Nat) : List α :=
  fresh key [] (start ++ (values.take place).flatMap next)

theorem foundAt_prefix (discovered : Discovered key next start values) (place : Nat) :
    foundAt key next start values place <+: values := by
  have split : values.flatMap next =
      (values.take place).flatMap next ++ (values.drop place).flatMap next := by
    rw [← List.flatMap_append, List.take_append_drop]
  have whole := discovered.eq_fresh
  rw [split, ← List.append_assoc, fresh_append] at whole
  exact ⟨_, whole.symm⟩

/-- A value is found before it is expanded. -/
theorem getElem?_foundAt (discovered : Discovered key next start values) {place : Nat} {value : α}
    (there : values[place]? = some value) :
    (foundAt key next start values place)[place]? = some value := by
  have known : key value ∈ (foundAt key next start values place).map key := by
    refine (mem_keys_fresh _).mpr ⟨List.mem_map_of_mem (List.mem_append.mpr ?_), List.not_mem_nil⟩
    refine (discovered.found_earlier place value there).imp id ?_
    rintro ⟨earlier, before, less, found, follows⟩
    refine List.mem_flatMap.mpr ⟨before, List.mem_iff_getElem?.mpr ⟨earlier, ?_⟩, follows⟩
    rw [List.getElem?_take_of_lt less]
    exact found
  -- No other place has this key, so the values that were found go beyond the place.
  obtain ⟨other, otherKey⟩ := List.mem_iff_getElem?.mp known
  rw [List.getElem?_map] at otherKey
  obtain ⟨twin, twinThere, same⟩ := Option.map_eq_some_iff.mp otherKey
  obtain ⟨rest, whole⟩ := foundAt_prefix discovered place
  have inValues : values[other]? = some twin := by
    rw [← whole, List.getElem?_append_left (List.getElem?_eq_some_iff.mp twinThere).1]
    exact twinThere
  have inside : other < (values.map key).length :=
    (List.length_map key).symm ▸ (List.getElem?_eq_some_iff.mp inValues).1
  have here : other = place := by
    refine (List.getElem?_inj inside discovered.nodup).mp ?_
    rw [List.getElem?_map, List.getElem?_map, inValues, there, Option.map_some, Option.map_some,
      same]
  subst here
  rw [twinThere, ← inValues, there]

theorem foundAt_succ {place : Nat} {value : α} (there : values[place]? = some value) :
    foundAt key next start values (place + 1) = foundAt key next start values place ++
      fresh key ((foundAt key next start values place).map key) (next value) := by
  unfold foundAt
  rw [List.take_add_one, there, Option.toList_some, List.flatMap_append, List.flatMap_singleton,
    ← List.append_assoc, fresh_append, List.append_nil]

theorem step?_foundAt (discovered : Discovered key next start values) {place : Nat} {value : α}
    (there : values[place]? = some value) :
    step? key next ⟨foundAt key next start values place, place⟩ =
      some ⟨foundAt key next start values (place + 1), place + 1⟩ := by
  simp only [step?, getElem?_foundAt discovered there, Option.map_some, foundAt_succ there]

theorem ends_foundAt (discovered : Discovered key next start values) {place remaining : Nat}
    (whole : place + remaining = values.length) :
    Ends key next ⟨foundAt key next start values place, place⟩ (List.range' place remaining)
      ⟨values, values.length⟩ := by
  induction remaining generalizing place with
  | zero =>
      obtain rfl : place = values.length := whole
      have all : foundAt key next start values values.length = values := by
        unfold foundAt
        rw [List.take_length]
        exact discovered.eq_fresh.symm
      rw [all]
      exact .stop (by simp [step?])
  | succ remaining ih =>
      have there := List.getElem?_eq_getElem (show place < values.length by omega)
      exact .step (step?_foundAt discovered there) (ih (by omega))

/-- A walk expands each place once, in order, and comes to its end with all values. -/
theorem Discovered.ends (discovered : Discovered key next start values) :
    Ends key next ⟨fresh key [] start, 0⟩ (List.range values.length) ⟨values, values.length⟩ := by
  have begin : foundAt key next start values 0 = fresh key [] start := by
    simp [foundAt]
  rw [List.range_eq_range', ← begin]
  exact ends_foundAt discovered (Nat.zero_add _)

end Walk

end GrammarWorkbench
