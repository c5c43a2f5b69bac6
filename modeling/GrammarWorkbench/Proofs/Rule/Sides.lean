import GrammarWorkbench.Proofs.Rule.Augmented
import GrammarWorkbench.Proofs.Text.Apart

/-!
# Arrows in a line

A text without an arrow is its own only side, and the first arrow of a text sets its first side
apart from the others.  An arrow has no blank in it, so it stands in a text exactly if it stands
on one side of a blank.
-/

namespace GrammarWorkbench.Rule

/-- No character of the text and the one behind it make up an arrow. -/
def Arrowless (text : List Char) : Prop :=
  text.IsChain fun left right => ¬ (left = '-' ∧ right = '>')

variable {text left right rest : List Char} {first : Char}

theorem arrowless_iff : Arrowless text ↔ ¬ arrow.toList <:+: text :=
  Text.apart_iff

/-! ## Sides -/

theorem sides_cons (apart : ∀ next ∈ rest.head?, ¬ (first = '-' ∧ next = '>')) :
    sides (first :: rest) = (sides rest).modifyHead (first :: ·) := by
  refine sides.eq_2 first rest fun behind dash tip => ?_
  exact apart '>' (by rw [tip]; rfl) ⟨dash, rfl⟩

/-- The first arrow of a text sets its first side apart. -/
theorem sides_append (arrowless : Arrowless left) (right : List Char) :
    sides (left ++ '-' :: '>' :: right) = left :: sides right := by
  induction left with
  | nil => rfl
  | cons first rest ih =>
      obtain ⟨apart, arrowless⟩ := List.isChain_cons.mp arrowless
      have still : ∀ next ∈ (rest ++ '-' :: '>' :: right).head?,
          ¬ (first = '-' ∧ next = '>') := by
        cases rest with
        | nil => simp
        | cons second _ => exact apart
      rw [List.cons_append, sides_cons still, ih arrowless, List.modifyHead_cons]

theorem sides_of_arrowless (arrowless : Arrowless text) : sides text = [text] := by
  induction text with
  | nil => rfl
  | cons first rest ih =>
      obtain ⟨apart, arrowless⟩ := List.isChain_cons.mp arrowless
      rw [sides_cons apart, ih arrowless, List.modifyHead_cons]

/-- A text has no arrow, or a first one. -/
theorem arrowless_or_exists_arrow (text : List Char) :
    Arrowless text ∨ ∃ left right, text = left ++ '-' :: '>' :: right ∧ Arrowless left := by
  induction text with
  | nil => exact .inl .nil
  | cons first rest ih =>
      by_cases apart : ∀ next ∈ rest.head?, ¬ (first = '-' ∧ next = '>')
      · obtain arrowless | ⟨left, right, rfl, arrowless⟩ := ih
        · exact .inl (List.isChain_cons.mpr ⟨apart, arrowless⟩)
        · refine .inr ⟨first :: left, right, rfl, List.isChain_cons.mpr ⟨?_, arrowless⟩⟩
          cases left with
          | nil => simp
          | cons second _ => exact apart
      · push Not at apart
        obtain ⟨next, here, rfl, rfl⟩ := apart
        obtain ⟨right, rfl⟩ := List.head?_eq_some_iff.mp here
        exact .inr ⟨[], right, rfl, .nil⟩

/-- A line has one side exactly if it has no arrow. -/
theorem arrowless_of_sides {side : List Char} (single : sides text = [side]) :
    Arrowless text := by
  obtain arrowless | ⟨left, right, rfl, arrowless⟩ := arrowless_or_exists_arrow text
  · exact arrowless
  · rw [sides_append arrowless] at single
    exact absurd (List.cons.inj single).2 (sides_ne_nil right)

theorem arrowless_of_mem_sides {side : List Char} (member : side ∈ sides text) :
    Arrowless side := by
  -- What stands behind the first arrow is shorter than the whole text.
  induction count : text.length using Nat.strongRecOn generalizing text with
  | ind count ih =>
      obtain arrowless | ⟨left, right, rfl, arrowless⟩ := arrowless_or_exists_arrow text
      · rw [sides_of_arrowless arrowless, List.mem_singleton] at member
        exact member ▸ arrowless
      · rw [sides_append arrowless, List.mem_cons] at member
        cases member with
        | inl same => exact same ▸ arrowless
        | inr later =>
            refine ih right.length ?_ later rfl
            simp only [List.length_append, List.length_cons] at count
            omega

/-! ## Blanks -/

open Text (isBlank)

theorem ne_of_isBlank {blank : Char} (isSpace : isBlank blank = true) :
    blank ≠ '-' ∧ blank ≠ '>' := by
  constructor
  · rintro rfl
    cases isSpace
  · rintro rfl
    cases isSpace

theorem arrowless_cons_of_isBlank (isSpace : isBlank first = true) :
    Arrowless (first :: rest) ↔ Arrowless rest :=
  Text.apart_cons_of_ne (ne_of_isBlank isSpace).1

theorem arrowless_append_of_isBlank (isSpace : isBlank first = true) :
    Arrowless (left ++ first :: right) ↔ Arrowless left ∧ Arrowless right :=
  Text.apart_append_cons_of_ne (ne_of_isBlank isSpace).1 (ne_of_isBlank isSpace).2

/-- Blanks at the end of a text have no part in an arrow. -/
theorem arrowless_rdropWhile : Arrowless (text.rdropWhile isBlank) ↔ Arrowless text := by
  induction text using List.reverseRecOn with
  | nil => rfl
  | append_singleton text last ih =>
      rw [List.rdropWhile_concat]
      split
      · rename_i isSpace
        rw [ih, arrowless_append_of_isBlank isSpace]
        exact (and_iff_left .nil).symm
      · rfl

theorem arrowless_trim : Arrowless (Text.trim text) ↔ Arrowless text := by
  show Arrowless ((text.dropWhile isBlank).rdropWhile isBlank) ↔ _
  rw [arrowless_rdropWhile]
  induction text with
  | nil => rfl
  | cons first rest ih =>
      rw [List.dropWhile_cons]
      split
      · rename_i isSpace
        rw [ih, arrowless_cons_of_isBlank isSpace]
      · rfl

end GrammarWorkbench.Rule
