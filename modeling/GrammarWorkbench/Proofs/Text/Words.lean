import GrammarWorkbench.Text.Blank
import Mathlib.Data.List.DropRight

/-!
# Words of a text

A blank parts a text into two that have their words each for itself.  A word is a part of its text
with a character and without a blank, so words with a blank between each two read back, and a text
with one word is that word between blanks.
-/

namespace GrammarWorkbench.Text

/-- The text has a character, and no blank. -/
structure Solid (text : List Char) : Prop where
  ne_nil : text ≠ []
  not_blank : ∀ char ∈ text, isBlank char = false

variable {text word left right : List Char} {between : Char}

/-- A text has no blank, or a first one. -/
theorem not_blank_or_exists_blank (text : List Char) :
    (∀ char ∈ text, isBlank char = false) ∨ ∃ left between right,
      text = left ++ between :: right ∧ isBlank between = true ∧
        ∀ char ∈ left, isBlank char = false := by
  induction text with
  | nil => exact .inl nofun
  | cons first rest ih =>
      cases kind : isBlank first with
      | true => exact .inr ⟨[], first, rest, rfl, kind, nofun⟩
      | false =>
          obtain unbroken | ⟨left, between, right, rfl, blank, unbroken⟩ := ih
          · exact .inl (List.forall_mem_cons.mpr ⟨kind, unbroken⟩)
          · exact .inr ⟨first :: left, between, right, rfl, blank,
              List.forall_mem_cons.mpr ⟨kind, unbroken⟩⟩

/-! ## The words on both sides of a blank -/

@[simp] theorem words_nil : words [] = [] := by
  simp [words]

theorem words_append_cons (blank : isBlank between = true) (left right : List Char) :
    words (left ++ between :: right) = words left ++ words right := by
  rw [words, List.splitOnP_append_cons left right blank, List.filter_append]
  rfl

theorem words_cons (blank : isBlank between = true) (right : List Char) :
    words (between :: right) = words right :=
  words_append_cons blank [] right

theorem Solid.words_eq (solid : Solid text) : words text = [text] := by
  rw [words, List.splitOnP_eq_singleton solid.not_blank]
  simp [solid.ne_nil]

theorem solid_singleton {char : Char} (unbroken : isBlank char = false) : Solid [char] :=
  ⟨List.cons_ne_nil _ _, List.forall_mem_singleton.mpr unbroken⟩

theorem Solid.not_mem_of_isBlank (solid : Solid text) (blank : isBlank between = true) :
    between ∉ text := fun member =>
  Bool.false_ne_true ((solid.not_blank between member).symm.trans blank)

theorem words_of_not_blank (unbroken : ∀ char ∈ text, isBlank char = false) (filled : text ≠ []) :
    words text = [text] :=
  Solid.words_eq ⟨filled, unbroken⟩

/-- A text is empty or one word, or it goes on behind its first blank. -/
@[elab_as_elim] theorem blank_induction {motive : List Char → Prop} (nil : motive [])
    (blank : ∀ between right, isBlank between = true → motive right → motive (between :: right))
    (word : ∀ word, Solid word → motive word)
    (split : ∀ word between right, Solid word → isBlank between = true → motive right →
      motive (word ++ between :: right))
    (text : List Char) : motive text := by
  induction count : text.length using Nat.strongRecOn generalizing text with
  | ind count ih =>
      obtain unbroken | ⟨left, between, right, rfl, isSpace, unbroken⟩ :=
        not_blank_or_exists_blank text
      · by_cases empty : text = []
        · exact empty ▸ nil
        · exact word text ⟨empty, unbroken⟩
      · have later : motive right := ih right.length (by simp [← count]; omega) right rfl
        by_cases empty : left = []
        · subst empty
          exact blank between right isSpace later
        · exact split left between right ⟨empty, unbroken⟩ isSpace later

/-- A word of a text is a part of it, and solid. -/
theorem solid_of_mem_words (member : word ∈ words text) : Solid word ∧ word <:+: text := by
  induction text using blank_induction with
  | nil => simp at member
  | blank between right isSpace ih =>
      rw [words_cons isSpace] at member
      obtain ⟨solid, inside⟩ := ih member
      exact ⟨solid, inside.trans (List.suffix_cons between right).isInfix⟩
  | word text solid =>
      rw [solid.words_eq, List.mem_singleton] at member
      exact ⟨member ▸ solid, member ▸ List.infix_rfl⟩
  | split left between right solid isSpace ih =>
      rw [words_append_cons isSpace, solid.words_eq, List.singleton_append, List.mem_cons] at member
      cases member with
      | inl same => exact ⟨same ▸ solid, same ▸ List.infix_append' [] left _⟩
      | inr later =>
          obtain ⟨solid, inside⟩ := ih later
          exact ⟨solid, inside.trans ⟨left ++ [between], [], by simp⟩⟩

theorem Solid.not_all_blank (solid : Solid text) : ¬ ∀ char ∈ text, isBlank char = true := by
  obtain ⟨char, member⟩ := List.exists_mem_of_ne_nil text solid.ne_nil
  intro all
  exact Bool.false_ne_true ((solid.not_blank char member).symm.trans (all char member))

theorem words_eq_nil_iff : words text = [] ↔ ∀ char ∈ text, isBlank char = true := by
  induction text using blank_induction with
  | nil => simp
  | blank between right isSpace ih =>
      rw [words_cons isSpace, ih, List.forall_mem_cons]
      exact (and_iff_right isSpace).symm
  | word text solid =>
      rw [solid.words_eq]
      exact iff_of_false (List.cons_ne_nil _ _) solid.not_all_blank
  | split left between right solid isSpace _ =>
      rw [words_append_cons isSpace, solid.words_eq]
      refine iff_of_false (List.cons_ne_nil _ _) fun all => ?_
      exact solid.not_all_blank fun char member => all char (List.mem_append_left _ member)

/-- The words of a text stand in it in their order. -/
theorem flatten_words_sublist (text : List Char) : (words text).flatten.Sublist text := by
  induction text using blank_induction with
  | nil => simp
  | blank between right isSpace ih =>
      rw [words_cons isSpace]
      exact ih.cons between
  | word text solid => rw [solid.words_eq, List.flatten_singleton]
  | split left between right solid isSpace ih =>
      rw [words_append_cons isSpace, solid.words_eq, List.flatten_append, List.flatten_singleton]
      exact (List.Sublist.refl left).append (ih.cons between)

/-- The words of a text, one after the other, with blanks between them and on both sides. -/
inductive Worded : List Char → List (List Char) → Prop where
  | nil : Worded [] []
  | blank {between : Char} {right : List Char} {parts : List (List Char)}
      (isSpace : isBlank between = true) (rest : Worded right parts) :
      Worded (between :: right) parts
  | last {word : List Char} (solid : Solid word) : Worded word [word]
  | word {word right : List Char} {between : Char} {parts : List (List Char)}
      (solid : Solid word) (isSpace : isBlank between = true) (rest : Worded right parts) :
      Worded (word ++ between :: right) (word :: parts)

theorem worded_words (text : List Char) : Worded text (words text) := by
  induction text using blank_induction with
  | nil => exact words_nil ▸ .nil
  | blank between right isSpace ih => exact words_cons isSpace right ▸ .blank isSpace ih
  | word word solid => exact solid.words_eq ▸ .last solid
  | split word between right solid isSpace ih =>
      rw [words_append_cons isSpace, solid.words_eq]
      exact .word solid isSpace ih

theorem worded_iff {parts : List (List Char)} : Worded text parts ↔ words text = parts := by
  constructor
  · intro worded
    induction worded with
    | nil => exact words_nil
    | blank isSpace _ ih => rw [words_cons isSpace, ih]
    | last solid => exact solid.words_eq
    | word solid isSpace _ ih =>
        rw [words_append_cons isSpace, solid.words_eq, ih, List.singleton_append]
  · rintro rfl
    exact worded_words text

/-- Solid words with a blank between each two read back. -/
theorem words_intercalate {parts : List (List Char)} (solid : ∀ part ∈ parts, Solid part) :
    words ([' '].intercalate parts) = parts := by
  induction parts with
  | nil => rfl
  | cons first rest ih =>
      obtain ⟨here, later⟩ := List.forall_mem_cons.mp solid
      cases rest with
      | nil => rw [List.intercalate_singleton, here.words_eq]
      | cons second rest =>
          rw [List.intercalate_cons_cons, List.append_assoc, List.singleton_append,
            words_append_cons isBlank_space, here.words_eq, ih later]
          rfl

theorem intercalate_ne_nil {parts : List (List Char)} (solid : ∀ part ∈ parts, Solid part)
    (some : parts ≠ []) : [' '].intercalate parts ≠ [] := by
  intro empty
  have none := words_intercalate solid
  rw [empty, words_nil] at none
  exact some none.symm

/-- Such words end with a character that is no blank. -/
theorem not_blank_of_mem_getLast?_intercalate {parts : List (List Char)}
    (solid : ∀ part ∈ parts, Solid part) :
    ∀ char ∈ ([' '].intercalate parts).getLast?, isBlank char = false := by
  induction parts with
  | nil => exact nofun
  | cons first rest ih =>
      obtain ⟨here, later⟩ := List.forall_mem_cons.mp solid
      cases rest with
      | nil =>
          rw [List.intercalate_singleton]
          exact fun char back => here.not_blank char (List.mem_of_getLast? back)
      | cons second rest =>
          have filled := intercalate_ne_nil later (List.cons_ne_nil second rest)
          rw [List.intercalate_cons_cons, List.getLast?_append_of_ne_nil _ filled]
          exact ih later

/-! ## Trimmed texts -/

theorem trim_isInfix (text : List Char) : trim text <:+: text :=
  (List.rdropWhile_prefix isBlank (text.dropWhile isBlank)).isInfix.trans
    (List.dropWhile_suffix isBlank).isInfix

theorem words_trim (text : List Char) : words (trim text) = words text := by
  show words ((text.dropWhile isBlank).rdropWhile isBlank) = words text
  have front : ∀ text, words (text.dropWhile isBlank) = words text := by
    intro text
    induction text with
    | nil => rfl
    | cons first rest ih =>
        rw [List.dropWhile_cons]
        split
        · rename_i blank
          rw [ih, words_cons blank]
        · rfl
  have back : ∀ text, words (text.rdropWhile isBlank) = words text := by
    intro text
    induction text using List.reverseRecOn with
    | nil => rfl
    | append_singleton text last ih =>
        rw [List.rdropWhile_concat]
        split
        · rename_i blank
          rw [ih, words_append_cons blank, words_nil, List.append_nil]
        · rfl
  rw [back, front]

theorem not_blank_of_mem_head?_trim (text : List Char) :
    ∀ char ∈ (trim text).head?, isBlank char = false := by
  intro char front
  obtain ⟨rest, split⟩ : trim text <+: text.dropWhile isBlank := List.rdropWhile_prefix ..
  have same : (text.dropWhile isBlank).head? = some char := by
    obtain ⟨behind, shape⟩ := List.head?_eq_some_iff.mp front
    rw [← split, shape]
    rfl
  have stopped := List.head?_dropWhile_not isBlank text
  rw [same] at stopped
  simpa using stopped

theorem not_blank_of_mem_getLast?_trim (text : List Char) :
    ∀ char ∈ (trim text).getLast?, isBlank char = false := by
  intro char back
  obtain ⟨filled, last⟩ := List.mem_getLast?_eq_getLast back
  have stopped : ¬ isBlank ((trim text).getLast filled) = true :=
    List.rdropWhile_last_not isBlank (text.dropWhile isBlank) filled
  rwa [last, ← Bool.not_eq_true]

theorem trim_eq_self (front : ∀ char ∈ text.head?, isBlank char = false)
    (back : ∀ char ∈ text.getLast?, isBlank char = false) : trim text = text := by
  have kept : text.dropWhile isBlank = text := by
    rw [List.dropWhile_eq_self_iff]
    intro filled
    simp [front text[0] (by simp [List.head?_eq_getElem?])]
  show (text.dropWhile isBlank).rdropWhile isBlank = text
  rw [kept, List.rdropWhile_eq_self_iff]
  intro filled
  simp [back _ (List.getLast?_eq_some_getLast filled)]

/-- A text with one word has blanks only besides. -/
theorem trim_eq_of_words (single : words text = [word]) : trim text = word := by
  rw [← words_trim] at single
  obtain unbroken | ⟨left, between, right, split, blank, unbroken⟩ :=
    not_blank_or_exists_blank (trim text)
  · by_cases empty : trim text = []
    · simp [empty] at single
    · rw [words_of_not_blank unbroken empty] at single
      exact (List.cons.inj single).1
  · have begun : left ≠ [] := by
      rintro rfl
      have solid := not_blank_of_mem_head?_trim text between (by rw [split]; rfl)
      exact Bool.false_ne_true (solid.symm.trans blank)
    rw [split, words_append_cons blank, words_of_not_blank unbroken begun] at single
    have behind : ∀ char ∈ between :: right, isBlank char = true :=
      List.forall_mem_cons.mpr ⟨blank, words_eq_nil_iff.mp (List.cons.inj single).2⟩
    have last : (trim text).getLast? =
        some ((between :: right).getLast (List.cons_ne_nil _ _)) := by
      rw [split, List.getLast?_append_of_ne_nil _ (List.cons_ne_nil between right)]
      exact List.getLast?_eq_some_getLast _
    have solid := not_blank_of_mem_getLast?_trim text _ last
    exact absurd (solid.symm.trans (behind _ (List.getLast_mem _))) Bool.false_ne_true

end GrammarWorkbench.Text
