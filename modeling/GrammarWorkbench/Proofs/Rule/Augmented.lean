import GrammarWorkbench.Proofs.Rule.Listed
import GrammarWorkbench.Rule.Source
import Mathlib.Data.List.DropRight

/-!
# Rules behind an accept rule

How a line is read does not depend on its index, so lines behind an accept rule are read as
they are without it, with each index one higher.  The lines of a text are trimmed, and the
start symbol that goes into the accept rule by default is the left side of the first rule.
-/

namespace GrammarWorkbench

/-! ## Trimmed lines -/

theorem Text.trim_trim (text : List Char) : trim (trim text) = trim text := by
  show ((text.dropWhile isBlank).rdropWhile isBlank |>.dropWhile isBlank).rdropWhile isBlank =
    (text.dropWhile isBlank).rdropWhile isBlank
  have front : ((text.dropWhile isBlank).rdropWhile isBlank).dropWhile isBlank =
      (text.dropWhile isBlank).rdropWhile isBlank := by
    rw [List.dropWhile_eq_self_iff]
    intro nonempty
    have kept := List.rdropWhile_prefix isBlank (text.dropWhile isBlank)
    rw [kept.getElem nonempty]
    exact List.dropWhile_get_zero_not isBlank text (Nat.lt_of_lt_of_le nonempty kept.length_le)
  rw [front, List.rdropWhile_idempotent]

namespace Rule

theorem trimmed_of_mem_sourceLines {text line : String} (member : line ∈ sourceLines text) :
    trimmed line = line := by
  obtain ⟨kept, inside, rfl⟩ := List.mem_map.mp member
  obtain ⟨raw, _, rfl⟩ := List.mem_map.mp (List.mem_filter.mp inside).1
  rw [trimmed, String.toList_ofList, Text.trim_trim]

/-! ## Indices -/

/-- The rule with an index that is so much higher. -/
def shifted (offset : Int) (rule : Rule) : Rule :=
  { rule with index := rule.index + offset }

theorem read_shifted (line : String) (index offset : Int) (epsilon : Symbol) :
    read line (index + offset) epsilon = (read line index epsilon).map (shifted offset) := by
  unfold read
  split
  · split
    · rfl
    · split
      · rfl
      · rfl
  · rfl
  · rfl

theorem readFrom_shifted (epsilon : Symbol) (offset index : Int) (lines : List String) :
    readFrom epsilon (index + offset) lines =
      (readFrom epsilon index lines).map (List.map (shifted offset)) := by
  induction lines generalizing index with
  | nil => rfl
  | cons line lines ih =>
      have next : index + offset + 1 = index + 1 + offset := by omega
      rw [readFrom, readFrom, read_shifted, next, ih]
      cases read (trimmed line) index epsilon with
      | error error => rfl
      | ok rule =>
          cases readFrom epsilon (index + 1) lines with
          | error error => rfl
          | ok rest => rfl

/-- Lines behind another one are read as they are without it, with indices one higher. -/
theorem readAll_cons {lines : List String} (nonempty : lines ≠ []) (line : String)
    (epsilon : Symbol) :
    readAll (line :: lines) epsilon = (read (trimmed line) 0 epsilon).bind fun first =>
      (readAll lines epsilon).map fun rest => first :: rest.map (shifted 1) := by
  have shift := readFrom_shifted epsilon 1 0 lines
  rw [readAll, readAll, if_neg (by simp), if_neg (by simpa using nonempty), readFrom, shift]
  cases read (trimmed line) 0 epsilon with
  | error error => rfl
  | ok first =>
      cases readFrom epsilon 0 lines with
      | error error => rfl
      | ok rest => rfl

theorem ne_nil_of_readAll {lines : List String} {epsilon : Symbol} {rules : List Rule}
    (done : readAll lines epsilon = .ok rules) : lines ≠ [] := by
  rintro rfl
  cases done

/-! ## The start symbol by default -/

/-- The left side of a rule stands before the only arrow of its line. -/
theorem leadingSymbol?_of_read {line : String} {index : Int} {epsilon : Symbol} {rule : Rule}
    (done : read line index epsilon = .ok rule) : leadingSymbol? line = some rule.lhs := by
  unfold read at done
  unfold leadingSymbol?
  split at done
  · rename_i left right sides_eq
    split at done
    · cases done
    · rename_i filled
      split at done
      · cases done
      · cases done
        simp only [Bool.or_eq_true, not_or, Bool.not_eq_true] at filled
        simp [sides_eq, filled.1]
  · cases done
  · cases done

/-- By default the accept rule wraps the left side of the first rule. -/
theorem augment_none {lines : List String} {epsilon : Symbol} {first : Rule} {rest : List Rule}
    (trim : ∀ line ∈ lines, trimmed line = line)
    (done : readAll lines epsilon = .ok (first :: rest)) (endMarker : String) :
    augment lines none endMarker = augment lines (some first.lhs) endMarker := by
  cases lines with
  | nil => cases done
  | cons line lines =>
      rw [readAll, if_neg (by simp)] at done
      obtain ⟨rule, others, firstRead, _, same⟩ := readFrom_cons_ok done
      obtain ⟨rfl, rfl⟩ := List.cons.inj same
      rw [trim line List.mem_cons_self] at firstRead
      simp only [augment, leadingSymbol?_of_read firstRead]

end Rule

end GrammarWorkbench
