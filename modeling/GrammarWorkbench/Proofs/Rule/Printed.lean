import GrammarWorkbench.Proofs.Rule.Accepted
import GrammarWorkbench.Proofs.Text.Apart
import GrammarWorkbench.Proofs.Text.Words

/-!
# Reading printed rules

A line is a rule exactly if its only arrow has one word before it and some words behind it.  The
words of a rule that was read are its symbols, or the word for the empty right side, so the rule
is printed as a line that is read as the same rule.
-/

namespace GrammarWorkbench.Rule

open Text (Apart Solid isBlank words)

variable {line : String} {index : Int} {epsilon : Symbol} {rule : Rule}
  {text left right : List Char}

/-! ## What is read as a rule -/

theorem sides_eq_pair_iff : sides text = [left, right] ↔
    text = left ++ '-' :: '>' :: right ∧ Arrowless left ∧ Arrowless right := by
  constructor
  · intro pair
    obtain arrowless | ⟨front, back, rfl, arrowless⟩ := arrowless_or_exists_arrow text
    · simp [sides_of_arrowless arrowless] at pair
    · rw [sides_append arrowless] at pair
      obtain ⟨rfl, single⟩ := List.cons.inj pair
      have behind := arrowless_of_sides single
      rw [sides_of_arrowless behind] at single
      obtain ⟨rfl, _⟩ := List.cons.inj single
      exact ⟨rfl, arrowless, behind⟩
  · rintro ⟨rfl, before, behind⟩
    rw [sides_append before, sides_of_arrowless behind]

theorem words_eq_nil_iff_trim : words text = [] ↔ Text.trim text = [] := by
  rw [Text.words_eq_nil_iff, Text.trim_eq_nil_iff]

/-- A line is a rule exactly if its only arrow has one word before it and a word behind it. -/
theorem read_eq_ok_iff : read line index epsilon = .ok rule ↔
    ∃ left right lhs, line.toList = left ++ '-' :: '>' :: right ∧
      Arrowless left ∧ Arrowless right ∧ words left = [lhs.toList] ∧ words right ≠ [] ∧
      rule = ⟨index, lhs, readSymbols epsilon right, epsilon⟩ := by
  constructor
  · intro done
    unfold read at done
    split at done
    · rename_i left right pair
      split at done
      · cases done
      · rename_i filled
        simp only [Bool.or_eq_true, List.isEmpty_iff, not_or, ← words_eq_nil_iff_trim] at filled
        split at done
        · cases done
        · rename_i single
          rw [not_ne_iff, List.length_eq_one_iff] at single
          obtain ⟨word, single⟩ := single
          obtain ⟨split, before, behind⟩ := sides_eq_pair_iff.mp pair
          refine ⟨left, right, String.ofList word, split, before, behind, ?_, filled.2, ?_⟩
          · rw [single, String.toList_ofList]
          · rw [← Except.ok.inj done, Text.trim_eq_of_words single]
    · cases done
    · cases done
  · rintro ⟨left, right, lhs, split, before, behind, single, filled, rfl⟩
    have pair := sides_eq_pair_iff.mpr ⟨split, before, behind⟩
    have some : Text.trim right ≠ [] := fun empty => filled (words_eq_nil_iff_trim.mpr empty)
    have front : lhs.toList ≠ [] :=
      (Text.solid_of_mem_words (single ▸ List.mem_cons_self)).1.ne_nil
    unfold read
    rw [pair]
    simp [Text.trim_eq_of_words single, single, some, front]

theorem readSymbols_eq {symbols : List Symbol} (parts : words text = symbols.map String.toList) :
    readSymbols epsilon text = symbols.filter (· ≠ epsilon) := by
  have same : String.ofList ∘ String.toList = id := funext fun _ => String.ofList_toList
  rw [readSymbols, parts, List.map_map, same, List.map_id]

/-! ## Printed rules -/

/-- The symbol is one word and has no arrow in it. -/
structure Token (symbol : Symbol) : Prop where
  solid : Solid symbol.toList
  arrowless : Arrowless symbol.toList

/-- The words that stand for the right side. -/
def shown (rule : Rule) : List Symbol :=
  if rule.rhs.isEmpty then [rule.epsilon] else rule.rhs

theorem toList_text (rule : Rule) : rule.text.toList =
    (rule.lhs.toList ++ [' ']) ++ '-' :: '>' ::
      (' ' :: [' '].intercalate (rule.shown.map String.toList)) := by
  have tail : (if rule.rhs.isEmpty then rule.epsilon else " ".intercalate rule.rhs) =
      " ".intercalate rule.shown := by
    unfold shown
    split
    · exact String.intercalate_singleton.symm
    · rfl
  rw [text, tail]
  simp [arrow, String.toList_intercalate]

/-- The rule can be printed: its words are tokens, and the one for the empty side is no symbol. -/
structure Printable (rule : Rule) : Prop where
  lhs : Token rule.lhs
  shown : ∀ symbol ∈ rule.shown, Token symbol
  epsilon_not_mem : rule.epsilon ∉ rule.rhs

theorem Printable.filter_shown (printable : rule.Printable) :
    rule.shown.filter (· ≠ rule.epsilon) = rule.rhs := by
  have notMem := printable.epsilon_not_mem
  unfold Rule.shown
  split
  · rename_i empty
    simp [List.isEmpty_iff.mp empty]
  · rw [List.filter_eq_self]
    intro symbol member
    exact decide_eq_true fun same => notMem (same ▸ member)

theorem shown_ne_nil (rule : Rule) : rule.shown ≠ [] := by
  unfold shown
  split
  · exact List.cons_ne_nil _ _
  · rename_i filled
    exact fun empty => filled (List.isEmpty_iff.mpr empty)

theorem Printable.solid_parts (printable : rule.Printable) :
    ∀ part ∈ rule.shown.map String.toList, Solid part :=
  List.forall_mem_map.mpr fun symbol inside => (printable.shown symbol inside).solid

/-- A printed rule is read as the same rule. -/
theorem Printable.read_text (printable : rule.Printable) (index : Int) :
    read rule.text index rule.epsilon = .ok { rule with index } := by
  have arrowless : ∀ part ∈ rule.shown.map String.toList, Arrowless part :=
    List.forall_mem_map.mpr fun symbol inside => (printable.shown symbol inside).arrowless
  have behind : words (' ' :: [' '].intercalate (rule.shown.map String.toList)) =
      rule.shown.map String.toList := by
    rw [Text.words_cons Text.isBlank_space, Text.words_intercalate printable.solid_parts]
  refine read_eq_ok_iff.mpr ⟨_, _, rule.lhs, rule.toList_text, ?_, ?_, ?_, ?_, ?_⟩
  · exact (arrowless_append_of_isBlank Text.isBlank_space).mpr ⟨printable.lhs.arrowless, .nil⟩
  · rw [arrowless_cons_of_isBlank Text.isBlank_space]
    exact Text.apart_intercalate (by decide) (by decide) arrowless
  · rw [Text.words_append_cons Text.isBlank_space, printable.lhs.solid.words_eq, Text.words_nil,
      List.append_nil]
  · rw [behind, ne_eq, List.map_eq_nil_iff]
    exact rule.shown_ne_nil
  · rw [readSymbols_eq behind, printable.filter_shown]

/-- The words of a rule that was read stand in its line, in their order. -/
theorem shown_sublist_of_read (done : read line index epsilon = .ok rule) :
    ∃ left right, line.toList = left ++ '-' :: '>' :: right ∧ Arrowless left ∧ Arrowless right ∧
      words left = [rule.lhs.toList] ∧ (rule.shown.map String.toList).Sublist (words right) := by
  obtain ⟨left, right, lhs, split, before, behind, single, filled, rfl⟩ := read_eq_ok_iff.mp done
  refine ⟨left, right, split, before, behind, single, ?_⟩
  unfold shown
  split
  · -- All words behind the arrow stand for the empty side, and there is one.
    rename_i empty
    have none : readSymbols epsilon right = [] := List.isEmpty_iff.mp empty
    obtain ⟨word, inside⟩ := List.exists_mem_of_ne_nil _ filled
    have same : String.ofList word = epsilon := by
      have dropped := List.filter_eq_nil_iff.mp none _ (List.mem_map_of_mem inside)
      simpa using dropped
    rw [List.map_singleton, List.singleton_sublist, ← same, String.toList_ofList]
    exact inside
  · have kept : (readSymbols epsilon right).Sublist ((words right).map String.ofList) :=
      List.filter_sublist
    simpa using kept.map String.toList

theorem printable_of_read (done : read line index epsilon = .ok rule) : rule.Printable := by
  obtain ⟨left, right, _, before, behind, single, shown⟩ := shown_sublist_of_read done
  have token : ∀ {text : List Char} {symbol : Symbol}, Arrowless text →
      symbol.toList ∈ words text → Token symbol := by
    intro text symbol arrowless member
    obtain ⟨solid, inside⟩ := Text.solid_of_mem_words member
    exact ⟨solid, Apart.of_isInfix arrowless inside⟩
  refine ⟨token before (single ▸ List.mem_cons_self), fun symbol member => ?_, ?_⟩
  · exact token behind (shown.subset (List.mem_map_of_mem member))
  · obtain ⟨_, _, _, _, _, _, _, _, rfl⟩ := read_eq_ok_iff.mp done
    exact epsilon_not_mem_readSymbols epsilon _

end GrammarWorkbench.Rule
