/-!
# Joined texts

Texts that are joined with something between each two hold what the parts hold, in their order, and
fall apart again where the parts have none of what was put between them.
-/

namespace GrammarWorkbench.Text

theorem intercalate_cons (between first : String) (rest : List String) :
    between.intercalate (first :: rest) = first ++ String.join (rest.map (between ++ ·)) := by
  induction rest generalizing first with
  | nil => simp
  | cons second rest ih =>
      rw [String.intercalate_cons_cons, ih, List.map_cons, String.join_cons]
      simp only [String.append_assoc]

theorem intercalate_cons_flatMap {α : Type} (between first : List α) (rest : List (List α)) :
    between.intercalate (first :: rest) = first ++ rest.flatMap (between ++ ·) := by
  induction rest generalizing first with
  | nil => simp
  | cons second rest ih =>
      rw [List.intercalate_cons_cons, ih, List.flatMap_cons]
      simp only [List.append_assoc]

variable {between : Char}

theorem not_mem_intercalate {char : Char} (other : char ≠ between) {parts : List (List Char)}
    (absent : ∀ part ∈ parts, char ∉ part) : char ∉ [between].intercalate parts := by
  induction parts with
  | nil => exact List.not_mem_nil
  | cons part rest ih =>
      obtain ⟨here, later⟩ := List.forall_mem_cons.mp absent
      cases rest with
      | nil => rwa [List.intercalate_singleton]
      | cons next rest =>
          rw [List.intercalate_cons_cons]
          simp [here, other, ih later]

theorem flatten_sublist_intercalate (between : List Char) (parts : List (List Char)) :
    parts.flatten.Sublist (between.intercalate parts) := by
  induction parts with
  | nil => exact .refl _
  | cons part rest ih =>
      cases rest with
      | nil => simp
      | cons next rest =>
          rw [List.intercalate_cons_cons, List.flatten_cons, List.append_assoc]
          exact (List.Sublist.refl part).append (ih.trans (List.sublist_append_right _ _))

/-- Joined lines are the lines of the whole. -/
theorem splitOn_lines {lines : List String} (some : lines ≠ [])
    (noEnd : ∀ line ∈ lines, '\n' ∉ line.toList) :
    ("\n".intercalate lines).toList.splitOn '\n' = lines.map String.toList := by
  have joined : ("\n".intercalate lines).toList = ['\n'].intercalate (lines.map String.toList) :=
    String.toList_intercalate
  rw [joined]
  exact List.splitOn_intercalate '\n' (List.forall_mem_map.mpr noEnd) (by simpa using some)

end GrammarWorkbench.Text
