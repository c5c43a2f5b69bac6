import GrammarWorkbench.Proofs.Rule.Sides

/-!
# Reading the accept rule

The accept line has an arrow of its own before the start symbol and the end marker.  A start
symbol that is the left side of a rule is no blank text and brings no arrow, so the line is a rule
exactly if the end marker brings none either.
-/

namespace GrammarWorkbench

open Text (isBlank)

theorem Text.trim_eq_nil_iff {text : List Char} :
    trim text = [] ↔ ∀ char ∈ text, isBlank char = true := by
  show (text.dropWhile isBlank).rdropWhile isBlank = [] ↔ _
  rw [List.rdropWhile_eq_nil_iff]
  induction text with
  | nil => simp
  | cons first rest ih =>
      rw [List.dropWhile_cons]
      split
      · rename_i isSpace
        rw [ih]
        simp [isSpace]
      · rfl

namespace Rule

/-- The symbol is no blank text and has no arrow in it. -/
structure Writable (symbol : Symbol) : Prop where
  filled : ∃ char ∈ symbol.toList, ¬ isBlank char = true
  arrowless : Arrowless symbol.toList

variable {start marker epsilon : Symbol}

/-- The left side of a rule that was read can be written into another rule. -/
theorem writable_lhs_of_read {line : String} {index : Int} {rule : Rule}
    (done : read line index epsilon = .ok rule) : Writable rule.lhs := by
  unfold read at done
  split at done
  · rename_i left right sides_eq
    have member : left ∈ sides line.toList := sides_eq ▸ List.mem_cons_self
    split at done
    · cases done
    · rename_i filled
      split at done
      · cases done
      · obtain rfl := Except.ok.inj done
        simp only [Bool.or_eq_true, not_or, List.isEmpty_iff] at filled
        refine ⟨?_, ?_⟩
        · rw [String.toList_ofList]
          by_contra none
          push Not at none
          exact filled.1 ((Text.trim_trim left).symm.trans (Text.trim_eq_nil_iff.mpr none))
        · rw [String.toList_ofList, arrowless_trim]
          exact arrowless_of_mem_sides member
  · cases done
  · cases done

theorem writable_lhs_of_readFrom {index : Int} {lines : List String} {rules : List Rule}
    (done : readFrom epsilon index lines = .ok rules) : ∀ rule ∈ rules, Writable rule.lhs := by
  induction lines generalizing index rules with
  | nil =>
      cases done
      exact nofun
  | cons line lines ih =>
      obtain ⟨first, rest, firstRead, restRead, rfl⟩ := readFrom_cons_ok done
      exact List.forall_mem_cons.mpr ⟨writable_lhs_of_read firstRead, ih restRead⟩

theorem writable_lhs_of_readAll {lines : List String} {rules : List Rule}
    (done : readAll lines epsilon = .ok rules) : ∀ rule ∈ rules, Writable rule.lhs := by
  unfold readAll at done
  split at done
  · cases done
  · exact writable_lhs_of_readFrom done

/-! ## The accept line -/

/-- What the accept line has behind its arrow, without the blanks at the end. -/
def wrapped (start marker : Symbol) : List Char :=
  (' ' :: start.toList ++ ' ' :: marker.toList).rdropWhile isBlank

theorem rdropWhile_append_of_not_blank {front back : List Char} {char : Char}
    (member : char ∈ back) (solid : ¬ isBlank char = true) :
    (front ++ back).rdropWhile isBlank = front ++ back.rdropWhile isBlank := by
  have stays : (back.reverse.dropWhile isBlank).isEmpty = false := by
    rw [List.isEmpty_eq_false_iff, ne_eq, List.dropWhile_eq_nil_iff]
    exact fun blank => solid (blank char (List.mem_reverse.mpr member))
  simp only [List.rdropWhile, List.reverse_append, List.dropWhile_append, stays]
  simp

theorem toList_trimmed_acceptLine (writable : Writable start) :
    (trimmed (acceptLine start marker)).toList =
      "$accept ".toList ++ '-' :: '>' :: wrapped start marker := by
  obtain ⟨char, member, solid⟩ := writable.filled
  have line : (acceptLine start marker).toList =
      "$accept ->".toList ++ (' ' :: start.toList ++ ' ' :: marker.toList) := by
    simp [acceptLine, acceptSymbol, arrow]
  have inside : char ∈ ' ' :: start.toList ++ ' ' :: marker.toList :=
    List.mem_append_left _ (List.mem_cons_of_mem _ member)
  have begun : ∀ rest, ("$accept ->".toList ++ rest).dropWhile isBlank =
      "$accept ->".toList ++ rest := fun _ => rfl
  rw [trimmed, String.toList_ofList, line]
  show (List.dropWhile isBlank _).rdropWhile isBlank = _
  rw [begun]
  exact rdropWhile_append_of_not_blank inside solid

theorem arrowless_wrapped (writable : Writable start) :
    Arrowless (wrapped start marker) ↔ Arrowless marker.toList := by
  rw [wrapped, arrowless_rdropWhile, arrowless_append_of_isBlank Text.isBlank_space,
    arrowless_cons_of_isBlank Text.isBlank_space]
  exact and_iff_right writable.arrowless

theorem trim_wrapped_ne_nil (writable : Writable start) (marker : Symbol) :
    Text.trim (wrapped start marker) ≠ [] := by
  obtain ⟨char, member, solid⟩ := writable.filled
  intro blank
  rw [Text.trim_eq_nil_iff, ← List.rdropWhile_eq_nil_iff, wrapped, List.rdropWhile_idempotent,
    List.rdropWhile_eq_nil_iff] at blank
  exact solid (blank char (List.mem_append_left _ (List.mem_cons_of_mem _ member)))

/-- The accept line has its own arrow first, and what it wraps follows. -/
theorem sides_acceptLine (writable : Writable start) :
    sides (trimmed (acceptLine start marker)).toList =
      "$accept ".toList :: sides (wrapped start marker) := by
  have front : Arrowless "$accept ".toList := by
    unfold Arrowless
    decide
  rw [toList_trimmed_acceptLine writable, sides_append front]

/-- With an end marker that has no arrow, the accept line is a rule. -/
theorem read_acceptLine (writable : Writable start) (arrowless : Arrowless marker.toList)
    (epsilon : Symbol) : read (trimmed (acceptLine start marker)) 0 epsilon =
      .ok ⟨0, acceptSymbol, readSymbols epsilon (wrapped start marker), epsilon⟩ := by
  have only := sides_of_arrowless ((arrowless_wrapped writable).mpr arrowless)
  have left : Text.trim "$accept ".toList = acceptSymbol.toList := by decide
  have word : (Text.words "$accept ".toList).length = 1 := by decide
  have right := trim_wrapped_ne_nil writable marker
  rw [read, sides_acceptLine writable, only]
  simp only [left, word]
  simp [right, acceptSymbol]

end Rule

end GrammarWorkbench
