import GrammarWorkbench.Proofs.Rule.Printed
import GrammarWorkbench.Proofs.Rule.Source

/-!
# Reading the printed rules again

The rules of some lines are printed as lines that are plain again, and these read as the same
rules.  Only the text that they make together may come to hold a block comment.  The comment
takes its marks away, so the rules that are read then are others: no rule is printed with more
characters than its line has.
-/

namespace GrammarWorkbench.Rule

open Text (Apart Solid isBlank words)

variable {line : String} {index : Int} {epsilon : Symbol} {rule : Rule} {rules : List Rule}
  {lines : List String}

/-! ## Printed rules as lines -/

/-- A printed rule holds no blanks but spaces. -/
theorem Printable.not_mem_text (printable : rule.Printable) {blank : Char}
    (isSpace : isBlank blank = true) (other : blank ≠ ' ') : blank ∉ rule.text.toList := by
  have dash := (ne_of_isBlank isSpace).1
  have tip := (ne_of_isBlank isSpace).2
  have front := printable.lhs.solid.not_mem_of_isBlank isSpace
  have behind := Text.not_mem_intercalate other fun part member =>
    (printable.solid_parts part member).not_mem_of_isBlank isSpace
  rw [toList_text]
  simp [front, behind, dash, tip, other]

theorem Printable.trimmed_text (printable : rule.Printable) : trimmed rule.text = rule.text := by
  obtain ⟨first, rest, front⟩ := List.exists_cons_of_ne_nil printable.lhs.solid.ne_nil
  have kept : Text.trim rule.text.toList = rule.text.toList := by
    refine Text.trim_eq_self ?_ ?_
    · rw [toList_text, front]
      rintro char ⟨⟩
      exact printable.lhs.solid.not_blank first (front ▸ List.mem_cons_self)
    · have filled := Text.intercalate_ne_nil printable.solid_parts
        (by simpa using rule.shown_ne_nil)
      have split : rule.text.toList = (rule.lhs.toList ++ " -> ".toList) ++
          [' '].intercalate (rule.shown.map String.toList) := by
        rw [toList_text]
        simp
      rw [split, List.getLast?_append_of_ne_nil _ filled]
      exact Text.not_blank_of_mem_getLast?_intercalate printable.solid_parts
  rw [trimmed, kept, String.ofList_toList]

theorem uncommented_text (front : Apart '/' '/' rule.lhs.toList)
    (behind : ∀ symbol ∈ rule.shown, Apart '/' '/' symbol.toList) :
    Apart '/' '/' rule.text.toList := by
  rw [toList_text, Text.apart_append_cons_of_ne (by decide) (by decide),
    Text.apart_append_cons_of_ne (by decide) (by decide), Text.apart_cons_of_ne (by decide),
    Text.apart_cons_of_ne (by decide)]
  refine ⟨⟨front, .nil⟩, ?_⟩
  exact Text.apart_intercalate (by decide) (by decide) (List.forall_mem_map.mpr behind)

/-- A rule that was read from a line without a comment mark is printed as a plain line. -/
theorem plain_text_of_read (done : read line index epsilon = .ok rule)
    (uncommented : Apart '/' '/' line.toList) : Plain rule.text := by
  have printable := printable_of_read done
  obtain ⟨left, right, split, _, _, single, shown⟩ := shown_sublist_of_read done
  have front : left <:+: line.toList := ⟨[], '-' :: '>' :: right, by rw [split]; rfl⟩
  have behind : right <:+: line.toList := ⟨left ++ ['-', '>'], [], by rw [split]; simp⟩
  have apart : ∀ {text : List Char} {symbol : Symbol}, text <:+: line.toList →
      symbol.toList ∈ words text → Apart '/' '/' symbol.toList := by
    intro text symbol inside member
    exact uncommented.of_isInfix ((Text.solid_of_mem_words member).2.trans inside)
  refine ⟨⟨?_, ?_⟩, ?_, printable.trimmed_text, ?_⟩
  · exact printable.not_mem_text Text.isBlank_newline (by decide)
  · exact printable.not_mem_text (by decide) (by decide)
  · refine uncommented_text (apart front (single ▸ List.mem_cons_self)) fun symbol member => ?_
    exact apart behind (shown.subset (List.mem_map_of_mem member))
  · intro empty
    have none := rule.toList_text
    rw [empty] at none
    simp at none

/-! ## Printed rules read again -/

theorem read_text_of_read (done : read line index epsilon = .ok rule) :
    read rule.text index epsilon = .ok rule := by
  have again := (printable_of_read done).read_text index
  obtain ⟨_, _, _, _, _, _, _, _, rfl⟩ := read_eq_ok_iff.mp done
  exact again

theorem readFrom_map_text (done : readFrom epsilon index lines = .ok rules) :
    readFrom epsilon index (rules.map text) = .ok rules := by
  induction lines generalizing index rules with
  | nil =>
      cases done
      rfl
  | cons line lines ih =>
      obtain ⟨first, rest, firstRead, restRead, rfl⟩ := readFrom_cons_ok done
      rw [List.map_cons, readFrom, (printable_of_read firstRead).trimmed_text,
        read_text_of_read firstRead, ih restRead]
      rfl

theorem readAll_map_text (done : readAll lines epsilon = .ok rules) :
    readAll (rules.map text) epsilon = .ok rules := by
  have some := (listed_of_readAll done).ne_nil
  unfold readAll at done ⊢
  split at done
  · cases done
  · rw [if_neg (by simpa using some)]
    exact readFrom_map_text done

/-! ## What printing keeps -/

/-- How many characters of a text are no blanks. -/
def inked (text : List Char) : Nat :=
  text.countP fun char => !isBlank char

theorem inked_append (left right : List Char) : inked (left ++ right) = inked left + inked right :=
  List.countP_append

theorem inked_le_of_sublist {part text : List Char} (inside : part.Sublist text) :
    inked part ≤ inked text :=
  inside.countP_le

theorem inked_intercalate {between : Char} (blank : isBlank between = true)
    (parts : List (List Char)) : inked ([between].intercalate parts) = inked parts.flatten := by
  induction parts with
  | nil => rfl
  | cons part rest ih =>
      cases rest with
      | nil => simp
      | cons next rest =>
          have gap : inked [between] = 0 := by simp [inked, blank]
          rw [List.intercalate_cons_cons, List.flatten_cons, inked_append, inked_append,
            inked_append, ih, gap, Nat.add_zero]

/-- No rule is printed with more characters than its line has. -/
theorem inked_text_le (done : read line index epsilon = .ok rule) :
    inked rule.text.toList ≤ inked line.toList := by
  obtain ⟨left, right, split, _, _, single, shown⟩ := shown_sublist_of_read done
  have front : inked rule.lhs.toList ≤ inked left := by
    have word := Text.flatten_words_sublist left
    rw [single, List.flatten_singleton] at word
    exact inked_le_of_sublist word
  have behind : inked (rule.shown.map String.toList).flatten ≤ inked right :=
    inked_le_of_sublist (shown.flatten.trans (Text.flatten_words_sublist right))
  have spaced : ∀ text, inked (' ' :: text) = inked text := fun text => by
    simp [inked, Text.isBlank_space]
  have arrows : ∀ text, inked ('-' :: '>' :: text) = inked text + 2 := fun text => by
    simp [inked, show isBlank '-' = false from rfl, show isBlank '>' = false from rfl]
  rw [toList_text, split, inked_append, inked_append, inked_append, arrows, arrows, spaced, spaced,
    inked_intercalate Text.isBlank_space]
  simp only [inked, List.countP_nil] at *
  omega

theorem inked_map_text_le (done : readFrom epsilon index lines = .ok rules) :
    inked (rules.map fun rule => rule.text.toList).flatten ≤
      inked (lines.map String.toList).flatten := by
  induction lines generalizing index rules with
  | nil =>
      cases done
      exact Nat.le_refl _
  | cons line lines ih =>
      obtain ⟨first, rest, firstRead, restRead, rfl⟩ := readFrom_cons_ok done
      have here : inked first.text.toList ≤ inked line.toList := by
        have trimmed := inked_text_le firstRead
        rw [Rule.trimmed, String.toList_ofList] at trimmed
        exact Nat.le_trans trimmed (inked_le_of_sublist (Text.trim_isInfix _).sublist)
      rw [List.map_cons, List.map_cons, List.flatten_cons, List.flatten_cons, inked_append,
        inked_append]
      exact Nat.add_le_add here (ih restRead)

/-! ## The printed rules as one text -/

/-- The rules as one text, each on a line of its own. -/
def listing (rules : List Rule) : String :=
  "\n".intercalate (rules.map text)

theorem toList_listing (rules : List Rule) :
    (listing rules).toList = ['\n'].intercalate (rules.map fun rule => rule.text.toList) := by
  rw [listing, String.toList_intercalate, List.map_map]
  rfl

theorem exists_read_of_mem (done : readFrom epsilon index lines = .ok rules) :
    ∀ rule ∈ rules, ∃ line ∈ lines, ∃ index, read (trimmed line) index epsilon = .ok rule := by
  induction lines generalizing index rules with
  | nil =>
      cases done
      exact nofun
  | cons line lines ih =>
      obtain ⟨first, rest, firstRead, restRead, rfl⟩ := readFrom_cons_ok done
      refine List.forall_mem_cons.mpr ⟨⟨line, List.mem_cons_self, index, firstRead⟩, ?_⟩
      intro rule member
      obtain ⟨other, inside, found⟩ := ih restRead rule member
      exact ⟨other, List.mem_cons_of_mem _ inside, found⟩

theorem printable_of_readFrom (done : readFrom epsilon index lines = .ok rules) :
    ∀ rule ∈ rules, rule.Printable := by
  intro rule member
  obtain ⟨_, _, _, found⟩ := exists_read_of_mem done rule member
  exact printable_of_read found

theorem readFrom_of_readAll (done : readAll lines epsilon = .ok rules) :
    readFrom epsilon 0 lines = .ok rules := by
  unfold readAll at done
  split at done
  · cases done
  · exact done

variable {source : String}

/-- The lines of a listing are the printed rules, unless they make a block comment together. -/
theorem sourceLines_listing (done : readAll (sourceLines source) epsilon = .ok rules)
    (noBlock : ¬ Text.HasBlock (listing rules).toList) :
    sourceLines (listing rules) = rules.map text := by
  refine sourceLines_intercalate (by simpa using (listed_of_readAll done).ne_nil) ?_ noBlock
  refine List.forall_mem_map.mpr fun rule inside => ?_
  obtain ⟨line, source, index, found⟩ := exists_read_of_mem (readFrom_of_readAll done) rule inside
  rw [trimmed_of_mem_sourceLines source] at found
  exact plain_text_of_read found (uncommented_of_mem_sourceLines source)

theorem unifyLineEnds_listing (done : readFrom epsilon index lines = .ok rules) :
    Text.unifyLineEnds (listing rules).toList = (listing rules).toList := by
  refine Text.unifyLineEnds_of_not_mem ?_
  rw [toList_listing]
  refine Text.not_mem_intercalate (by decide) (List.forall_mem_map.mpr fun rule inside => ?_)
  exact (printable_of_readFrom done rule inside).not_mem_text (by decide) (by decide)

/-- A listing that reads as the rules that it lists holds no block comment. -/
theorem not_hasBlock_listing (done : readAll (sourceLines (listing rules)) epsilon = .ok rules) :
    ¬ Text.HasBlock (listing rules).toList := by
  intro block
  have read := readFrom_of_readAll done
  have printed := inked_map_text_le read
  rw [map_toList_sourceLines, unifyLineEnds_listing read,
    ← inked_intercalate Text.isBlank_newline, ← toList_listing] at printed
  have left := inked_le_of_sublist
    (flatten_linesOf_sublist (Text.dropBlocks false (listing rules).toList))
  have fewer := Text.countP_dropBlocks_lt (fun char => !isBlank char) rfl block
  exact absurd (Nat.le_trans printed left) (Nat.not_le_of_lt fewer)

/-- The rules of a text read back from their listing exactly if it holds no block comment. -/
theorem readAll_listing_iff (done : readAll (sourceLines source) epsilon = .ok rules) :
    readAll (sourceLines (listing rules)) epsilon = .ok rules ↔
      ¬ Text.HasBlock (listing rules).toList := by
  refine ⟨not_hasBlock_listing, fun noBlock => ?_⟩
  rw [sourceLines_listing done noBlock]
  exact readAll_map_text done

end GrammarWorkbench.Rule
