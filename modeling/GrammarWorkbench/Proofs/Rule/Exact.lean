import GrammarWorkbench.Proofs.Rule.Flawed
import GrammarWorkbench.Proofs.Rule.Printed

/-!
# What a line denotes

A line denotes a rule if the arrow stands once in it, with one word before it and some words behind
it.  Reading gives exactly the rule that the line denotes, and blames each line that denotes none.
Printing the rule gives another line that denotes it.
-/

namespace GrammarWorkbench.Rule

open Text (Worded words)

/-- The arrow stands once in the text, between the two sides. -/
structure Parted (text left right : List Char) : Prop where
  split : text = left ++ arrow.toList ++ right
  once : ∀ before after, text = before ++ arrow.toList ++ after → before = left ∧ after = right

/-- The line has one arrow, the left side before it, and the right side behind it in words. -/
def Denotes (epsilon : Symbol) (line : String) (lhs : Symbol) (rhs : List Symbol) : Prop :=
  ∃ (left right : List Char) (symbols : List Symbol), Parted line.toList left right ∧
    Worded left [lhs.toList] ∧ Worded right (symbols.map String.toList) ∧ symbols ≠ [] ∧
    rhs = symbols.filter (· ≠ epsilon)

/-- Reading the line gives what it denotes, or blames it, and what it gives can be read again. -/
structure ReadsExactly (line : String) (index : Int) (epsilon : Symbol) : Prop where
  ok_iff : ∀ rule, read line index epsilon = .ok rule ↔
    rule.index = index ∧ rule.epsilon = epsilon ∧ Denotes epsilon line rule.lhs rule.rhs
  error_iff : (∃ flaw, read line index epsilon = .error (.malformed line flaw)) ↔
    ¬ ∃ lhs rhs, Denotes epsilon line lhs rhs
  again : ∀ rule, read line index epsilon = .ok rule → ∀ other,
    read rule.text other epsilon = .ok { rule with index := other }

variable {line : String} {epsilon lhs : Symbol} {rhs : List Symbol} {text left right : List Char}

/-! ## The only arrow -/

theorem append_arrow (left right : List Char) :
    left ++ arrow.toList ++ right = left ++ '-' :: '>' :: right := by
  simp [arrow]

theorem length_append_arrow (left right : List Char) :
    (left ++ arrow.toList ++ right).length = left.length + 2 + right.length := by
  rw [List.length_append, List.length_append]
  rfl

/-- The sides of the only arrow have none. -/
theorem Parted.arrowless (parted : Parted text left right) : Arrowless left ∧ Arrowless right := by
  rw [arrowless_iff, arrowless_iff]
  constructor
  · rintro ⟨before, after, split⟩
    have other : text = before ++ arrow.toList ++ (after ++ arrow.toList ++ right) := by
      rw [parted.split, ← split]
      simp
    obtain ⟨same, _⟩ := parted.once _ _ other
    have longer := congrArg List.length split
    rw [length_append_arrow, same] at longer
    omega
  · rintro ⟨before, after, split⟩
    have other : text = (left ++ arrow.toList ++ before) ++ arrow.toList ++ after := by
      rw [parted.split, ← split]
      simp
    obtain ⟨_, same⟩ := parted.once _ _ other
    have longer := congrArg List.length split
    rw [length_append_arrow, same] at longer
    omega

theorem parted_iff : Parted text left right ↔
    text = left ++ '-' :: '>' :: right ∧ Arrowless left ∧ Arrowless right := by
  constructor
  · exact fun parted => ⟨parted.split.trans (append_arrow left right), parted.arrowless⟩
  · rintro ⟨split, arrowless⟩
    refine ⟨split.trans (append_arrow left right).symm, fun before after other => ?_⟩
    rw [append_arrow] at other
    have pair := sides_eq_pair_iff.mpr ⟨split, arrowless⟩
    rw [other] at pair
    -- The arrow is the first one, since what stands behind the first one has none.
    rcases arrowless_or_exists_arrow before with first | ⟨front, back, rfl, first⟩
    · rw [sides_append first] at pair
      obtain ⟨same, single⟩ := List.cons.inj pair
      rw [sides_of_arrowless (arrowless_of_sides single)] at single
      exact ⟨same, (List.cons.inj single).1⟩
    · rw [List.append_assoc, List.cons_append, List.cons_append, sides_append first] at pair
      have behind := arrowless_iff.mp (arrowless_of_sides (List.cons.inj pair).2)
      exact absurd ⟨back, after, append_arrow back after⟩ behind

/-! ## Reading -/

theorem denotes_iff : Denotes epsilon line lhs rhs ↔
    ∃ left right, line.toList = left ++ '-' :: '>' :: right ∧ Arrowless left ∧ Arrowless right ∧
      words left = [lhs.toList] ∧ words right ≠ [] ∧ rhs = readSymbols epsilon right := by
  constructor
  · rintro ⟨left, right, symbols, parted, front, back, filled, rfl⟩
    obtain ⟨split, before, behind⟩ := parted_iff.mp parted
    have parts := Text.worded_iff.mp back
    refine ⟨left, right, split, before, behind, Text.worded_iff.mp front, ?_, ?_⟩
    · simpa [parts] using filled
    · exact (readSymbols_eq parts).symm
  · rintro ⟨left, right, split, before, behind, front, filled, rfl⟩
    refine ⟨left, right, (words right).map String.ofList,
      parted_iff.mpr ⟨split, before, behind⟩, Text.worded_iff.mpr front, ?_, ?_, rfl⟩
    · have same : String.toList ∘ String.ofList = id := funext fun _ => String.toList_ofList
      rw [List.map_map, same, List.map_id]
      exact Text.worded_words right
    · simpa using filled

theorem read_eq_ok_iff_denotes {index : Int} {rule : Rule} : read line index epsilon = .ok rule ↔
    rule.index = index ∧ rule.epsilon = epsilon ∧ Denotes epsilon line rule.lhs rule.rhs := by
  rw [read_eq_ok_iff, denotes_iff]
  constructor
  · rintro ⟨left, right, lhs, split, before, behind, front, filled, rfl⟩
    exact ⟨rfl, rfl, left, right, split, before, behind, front, filled, rfl⟩
  · rintro ⟨rfl, rfl, left, right, split, before, behind, front, filled, same⟩
    exact ⟨left, right, rule.lhs, split, before, behind, front, filled, same ▸ rfl⟩

/--
A line is read as a rule exactly if it denotes one, and as the rule that it denotes; each other
line is blamed as it is.  The printed rule is read as the same rule, with any index.
-/
theorem readsExactly (line : String) (index : Int) (epsilon : Symbol) :
    ReadsExactly line index epsilon where
  ok_iff := fun _ => read_eq_ok_iff_denotes
  error_iff := by
    constructor
    · rintro ⟨flaw, failed⟩ ⟨lhs, rhs, denotes⟩
      have done : read line index epsilon = .ok ⟨index, lhs, rhs, epsilon⟩ :=
        read_eq_ok_iff_denotes.mpr ⟨rfl, rfl, denotes⟩
      rw [failed] at done
      cases done
    · intro silent
      cases outcome : read line index epsilon with
      | error error =>
          obtain ⟨flaw, rfl⟩ := exists_flaw_of_read outcome
          exact ⟨flaw, rfl⟩
      | ok rule => exact absurd ⟨_, _, (read_eq_ok_iff_denotes.mp outcome).2.2⟩ silent
  again := by
    intro rule done other
    obtain ⟨_, rfl, _⟩ := read_eq_ok_iff_denotes.mp done
    exact (printable_of_read done).read_text other

/-- Parts of an arrow may stand right beside it, and stand apart from it once they are printed. -/
theorem readsExactly_fragments : ∃ rule, read "-->>\u2003ε" 3 "ε" = .ok rule ∧
    Denotes "ε" "-->>\u2003ε" "-" [">"] ∧ rule.text = "- -> >" ∧
    read "- -> >" 0 "ε" = .ok { rule with index := 0 } := by
  have exactly := readsExactly "-->>\u2003ε" 3 "ε"
  have done : read "-->>\u2003ε" 3 "ε" = .ok ⟨3, "-", [">"], "ε"⟩ := by decide
  obtain ⟨_, _, denotes⟩ := (exactly.ok_iff _).mp done
  exact ⟨_, done, denotes, rfl, exactly.again _ done 0⟩

end GrammarWorkbench.Rule
