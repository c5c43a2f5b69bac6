import GrammarWorkbench.Text.Blank
import Mathlib.Data.List.Chain

/-!
# Marks of two characters

A mark of two characters stands in a text where the one comes right before the other.  A third
character that is in no way part of the mark parts a text into two, of which each can be looked
at alone.
-/

namespace GrammarWorkbench.Text

/-- The one character does not come right before the other anywhere in the text. -/
def Apart (first second : Char) (text : List Char) : Prop :=
  text.IsChain fun left right => ¬ (left = first ∧ right = second)

instance (first second : Char) (text : List Char) : Decidable (Apart first second text) :=
  inferInstanceAs (Decidable (text.IsChain _))

variable {first second between : Char} {text left right : List Char}

theorem apart_iff : Apart first second text ↔ ¬ [first, second] <:+: text := by
  rw [Apart, List.isChain_iff_forall_rel_of_append_cons_cons]
  constructor
  · rintro apart ⟨before, after, rfl⟩
    exact apart (by simp; rfl) ⟨rfl, rfl⟩
  · rintro none one other before after rfl ⟨rfl, rfl⟩
    exact none ⟨before, after, by simp⟩

theorem Apart.of_isInfix (apart : Apart first second text) (inside : left <:+: text) :
    Apart first second left :=
  List.IsChain.infix apart inside

/-- A character that does not begin the mark may come first. -/
theorem apart_cons_of_ne (begins : between ≠ first) :
    Apart first second (between :: right) ↔ Apart first second right := by
  simp [Apart, List.isChain_cons, begins]

theorem apart_append_cons_of_ne (begins : between ≠ first) (ends : between ≠ second) :
    Apart first second (left ++ between :: right) ↔
      Apart first second left ∧ Apart first second right := by
  have parts : Apart first second (left ++ between :: right) ↔
      Apart first second left ∧ Apart first second (between :: right) ∧
        ∀ last ∈ left.getLast?, ∀ next ∈ (between :: right).head?,
          ¬ (last = first ∧ next = second) :=
    List.isChain_append
  rw [parts, apart_cons_of_ne begins]
  simp [ends]

/-- No mark is made where parts of a text meet at such a character. -/
theorem apart_intercalate (begins : between ≠ first) (ends : between ≠ second)
    {parts : List (List Char)} (apart : ∀ part ∈ parts, Apart first second part) :
    Apart first second ([between].intercalate parts) := by
  induction parts with
  | nil => exact .nil
  | cons part rest ih =>
      obtain ⟨here, later⟩ := List.forall_mem_cons.mp apart
      cases rest with
      | nil => rwa [List.intercalate_singleton]
      | cons next rest =>
          rw [List.intercalate_cons_cons, List.append_assoc, List.singleton_append,
            apart_append_cons_of_ne begins ends]
          exact ⟨here, ih later⟩

end GrammarWorkbench.Text
