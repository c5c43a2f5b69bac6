/-!
# Breadth-first layers

Values are reached layer by layer from a first list.  Values with one key count as
one, and the first of them to be reached stands for all.
-/

namespace GrammarWorkbench.Breadth

variable {α κ : Type} [DecidableEq κ]

/-- The values with a key that is new, the first one for each key. -/
def fresh (key : α → κ) : List κ → List α → List α
  | _, [] => []
  | seen, first :: rest =>
      if key first ∈ seen then fresh key seen rest
      else first :: fresh key (key first :: seen) rest

theorem subset_of_mem_fresh {key : α → κ} {seen : List κ} {values : List α} {value : α}
    (member : value ∈ fresh key seen values) : value ∈ values ∧ key value ∉ seen := by
  induction values generalizing seen with
  | nil => cases member
  | cons first rest ih =>
      unfold fresh at member
      split at member
      · exact ⟨List.mem_cons_of_mem _ (ih member).1, (ih member).2⟩
      · rename_i unseen
        rcases List.mem_cons.mp member with same | later
        · subst same
          exact ⟨List.mem_cons_self, unseen⟩
        · obtain ⟨inRest, notSeen⟩ := ih later
          exact ⟨List.mem_cons_of_mem _ inRest,
            fun inSeen => notSeen (List.mem_cons_of_mem _ inSeen)⟩

/-- Every key that is not new has a value among the fresh ones. -/
theorem mem_keys_fresh {key : α → κ} {seen : List κ} {values : List α} (found : κ) :
    found ∈ (fresh key seen values).map key ↔ found ∈ values.map key ∧ found ∉ seen := by
  induction values generalizing seen with
  | nil => simp [fresh]
  | cons first rest ih =>
      unfold fresh
      split
      · rename_i known
        rw [ih]
        constructor
        · exact fun ⟨member, unseen⟩ => ⟨List.mem_cons_of_mem _ member, unseen⟩
        · rintro ⟨member, unseen⟩
          rcases List.mem_cons.mp member with same | later
          · exact absurd (same ▸ known) unseen
          · exact ⟨later, unseen⟩
      · rename_i new
        rw [List.map_cons, List.mem_cons, ih, List.map_cons, List.mem_cons, List.mem_cons]
        by_cases same : found = key first
        · subst same
          simp [new]
        · simp [same]

theorem nodup_keys_fresh (key : α → κ) (seen : List κ) (values : List α) :
    ((fresh key seen values).map key).Nodup := by
  induction values generalizing seen with
  | nil => exact List.nodup_nil
  | cons first rest ih =>
      unfold fresh
      split
      · exact ih seen
      · refine List.nodup_cons.mpr ⟨fun member => ?_, ih _⟩
        exact ((mem_keys_fresh (key first)).mp member).2 List.mem_cons_self

/-- At most `limit` layers; the values behind a layer are the candidates for the next one. -/
def layersFrom (key : α → κ) (behind : List α → List α) :
    Nat → List κ → List α → List (List α)
  | 0, _, _ => []
  | limit + 1, seen, candidates =>
      let layer := fresh key seen candidates
      if layer.isEmpty then []
      else layer :: layersFrom key behind limit (layer.map key ++ seen) (behind layer)

/-- The layers of values that are reached from a first list. -/
def layers (key : α → κ) (behind : List α → List α) (limit : Nat) (start : List α) :
    List (List α) :=
  layersFrom key behind limit [] start

/-- The values that are reached, in the order in which they are. -/
def reached (key : α → κ) (behind : List α → List α) (limit : Nat) (start : List α) : List α :=
  (layers key behind limit start).flatten

theorem keys_layersFrom (key : α → κ) (behind : List α → List α) (limit : Nat)
    (seen : List κ) (candidates : List α) :
    ((layersFrom key behind limit seen candidates).flatten.map key).Nodup ∧
      ∀ found ∈ (layersFrom key behind limit seen candidates).flatten.map key,
        found ∉ seen := by
  induction limit generalizing seen candidates with
  | zero => simp [layersFrom]
  | succ limit ih =>
      unfold layersFrom
      dsimp only
      split
      · simp
      · obtain ⟨nodup, unseen⟩ := ih ((fresh key seen candidates).map key ++ seen)
          (behind (fresh key seen candidates))
        constructor
        · rw [List.flatten_cons, List.map_append]
          refine List.nodup_append.mpr ⟨nodup_keys_fresh key seen candidates, nodup, ?_⟩
          intro left inLayer right later same
          subst same
          exact unseen left later (List.mem_append_left _ inLayer)
        · intro found member
          rw [List.flatten_cons, List.map_append] at member
          rcases List.mem_append.mp member with inLayer | later
          · exact ((mem_keys_fresh found).mp inLayer).2
          · exact fun inSeen => unseen found later (List.mem_append_right _ inSeen)

/-- No key is reached twice. -/
theorem nodup_keys_reached (key : α → κ) (behind : List α → List α) (limit : Nat)
    (start : List α) : ((reached key behind limit start).map key).Nodup :=
  (keys_layersFrom key behind limit [] start).1

end GrammarWorkbench.Breadth
