import GrammarWorkbench.Proofs.Rule.Augmented

/-!
# The first flawed line

Lines are read as rules one by one, and each is trimmed before.  Reading fails exactly if there
is no line at all, or at the first line that is no rule, whatever stands behind it.
-/

namespace GrammarWorkbench.Rule

/-- The line is a rule, once the blanks at its ends are gone. -/
def Reads (epsilon : Symbol) (line : String) : Prop :=
  ∃ rule, read (trimmed line) 0 epsilon = .ok rule

/-- The error blames the first line that is no rule, or says that there is none to read. -/
inductive Blames (epsilon : Symbol) : List String → RuleError → Prop where
  | empty : Blames epsilon [] .noRules
  | line {before after : List String} {line : String} {flaw : Flaw}
      (sound : ∀ earlier ∈ before, Reads epsilon earlier)
      (flawed : read (trimmed line) 0 epsilon = .error (.malformed (trimmed line) flaw)) :
      Blames epsilon (before ++ line :: after) (.malformed (trimmed line) flaw)

variable {epsilon : Symbol} {index : Int} {line : String} {lines : List String}

theorem Blames.eq_nil {notice : String} (blames : Blames epsilon lines (.empty notice)) :
    lines = [] := by
  cases blames
  rfl

/-- A line that is no rule is blamed as it is. -/
theorem exists_flaw_of_read {error : RuleError} (failed : read line index epsilon = .error error) :
    ∃ flaw, error = .malformed line flaw := by
  unfold read at failed
  split at failed
  · split at failed
    · exact ⟨_, (Except.error.inj failed).symm⟩
    · split at failed
      · exact ⟨_, (Except.error.inj failed).symm⟩
      · cases failed
  · exact ⟨_, (Except.error.inj failed).symm⟩
  · exact ⟨_, (Except.error.inj failed).symm⟩

theorem read_index (line : String) (index : Int) (epsilon : Symbol) :
    read line index epsilon = (read line 0 epsilon).map (shifted index) := by
  rw [← read_shifted, Int.zero_add]

/-! ## From the first line on -/

theorem readFrom_cons_eq_error_iff {error : RuleError} :
    readFrom epsilon index (line :: lines) = .error error ↔
      read (trimmed line) 0 epsilon = .error error ∨
        Reads epsilon line ∧ readFrom epsilon (index + 1) lines = .error error := by
  rw [readFrom, read_index, Reads]
  cases read (trimmed line) 0 epsilon with
  | error failure => simp [Except.map]
  | ok rule =>
      cases readFrom epsilon (index + 1) lines with
      | error failure => simp [Except.map]
      | ok rest => simp [Except.map]

theorem readFrom_eq_error_iff {error : RuleError} :
    readFrom epsilon index lines = .error error ↔
      ∃ before line after flaw, lines = before ++ line :: after ∧
        (∀ earlier ∈ before, Reads epsilon earlier) ∧
        read (trimmed line) 0 epsilon = .error (.malformed (trimmed line) flaw) ∧
        error = .malformed (trimmed line) flaw := by
  induction lines generalizing index with
  | nil => simp [readFrom]
  | cons line lines ih =>
      rw [readFrom_cons_eq_error_iff, ih]
      constructor
      · rintro (here | ⟨reads, before, other, after, flaw, rfl, sound, flawed, same⟩)
        · obtain ⟨flaw, rfl⟩ := exists_flaw_of_read here
          exact ⟨[], line, lines, flaw, rfl, List.forall_mem_nil _, here, rfl⟩
        · exact ⟨line :: before, other, after, flaw, rfl,
            List.forall_mem_cons.mpr ⟨reads, sound⟩, flawed, same⟩
      · rintro ⟨before, other, after, flaw, split, sound, flawed, same⟩
        cases before with
        | nil =>
            obtain ⟨rfl, rfl⟩ := List.cons.inj split
            exact .inl (same ▸ flawed)
        | cons earlier before =>
            obtain ⟨rfl, rfl⟩ := List.cons.inj split
            obtain ⟨reads, sound⟩ := List.forall_mem_cons.mp sound
            exact .inr ⟨reads, before, other, after, flaw, rfl, sound, flawed, same⟩

/-- Reading fails with the error that blames the first flawed line, and with no other. -/
theorem readAll_eq_error_iff {error : RuleError} :
    readAll lines epsilon = .error error ↔ Blames epsilon lines error := by
  cases lines with
  | nil =>
      constructor
      · intro failed
        exact Except.error.inj failed ▸ .empty
      · rintro blames
        generalize none : ([] : List String) = lines at blames
        cases blames with
        | empty => rfl
        | line sound flawed => simp at none
  | cons line lines =>
      rw [readAll, if_neg (by simp), readFrom_eq_error_iff]
      constructor
      · rintro ⟨before, other, after, flaw, split, sound, flawed, rfl⟩
        exact split ▸ .line sound flawed
      · intro blames
        generalize same : line :: lines = all at blames
        cases blames with
        | empty => cases same
        | line sound flawed => exact ⟨_, _, _, _, rfl, sound, flawed, rfl⟩

example : readAll ["A -> b", " A ", "-> C"] "ε" = .error (.malformed "A" .noArrow) := by
  decide +kernel

end GrammarWorkbench.Rule
