import GrammarWorkbench.Proofs.Text.Comment
import GrammarWorkbench.Proofs.Text.Joined
import GrammarWorkbench.Proofs.Text.Words
import GrammarWorkbench.Rule.Source
import Mathlib.Data.List.Flatten

/-!
# Rule lines around a line comment

A line comment ends with its line, and the lines of a text are those before the comment and those
behind it.  What it says decides on the lines behind it in one way only: it may open a block that
is closed there, and then everything up to the closing mark is lost.
-/

namespace GrammarWorkbench.Rule

open Text (unifyLineEnds dropBlocks dropLineComment closesBlock endsInBlock behindLine Apart)

/-- The lines that may hold rules in a text without block comments. -/
def linesOf (text : List Char) : List (List Char) :=
  ((text.splitOn '\n').map fun line => Text.trim (dropLineComment line)).filter
    fun line => !line.isEmpty

theorem sourceLines_eq (text : String) :
    sourceLines text = (linesOf (dropBlocks false (unifyLineEnds text.toList))).map String.ofList :=
  rfl

theorem map_toList_sourceLines (text : String) : (sourceLines text).map String.toList =
    linesOf (dropBlocks false (unifyLineEnds text.toList)) := by
  rw [sourceLines_eq, List.map_map]
  exact List.map_id'' (fun line => String.toList_ofList) _

variable {front rest kept : List Char}

theorem linesOf_append_newline (front rest : List Char) :
    linesOf (front ++ '\n' :: rest) = linesOf front ++ linesOf rest := by
  rw [linesOf, List.splitOn_append_cons_self, List.map_append, List.filter_append]
  rfl

/-- The text behind the first line. -/
def afterLine (text : List Char) : List Char :=
  (text.dropWhile (· != '\n')).tail

theorem afterLine_append (line : '\n' ∉ kept) (rest : List Char) :
    afterLine (kept ++ rest) = afterLine rest := by
  rw [afterLine, List.dropWhile_append_of_pos, afterLine]
  intro char inside
  exact bne_iff_ne.mpr fun same => line (same ▸ inside)

/-- What a line comment says on its line has no part in the lines. -/
theorem linesOf_append_line (line : '\n' ∉ kept) (front : List Char) :
    linesOf (front ++ '/' :: '/' :: kept) = linesOf (front ++ ['/', '/']) := by
  -- The comment is on the last line, and the lines before it are the same.
  induction count : front.length using Nat.strongRecOn generalizing front with
  | ind count ih =>
      by_cases inside : '\n' ∈ front
      · obtain ⟨before, later, rfl, _⟩ := List.eq_append_cons_of_mem inside
        simp only [List.append_assoc, List.cons_append, linesOf_append_newline]
        rw [ih later.length (by simp [← count]; omega) later rfl]
      · have single : '\n' ∉ front ++ '/' :: '/' :: kept := by simp [inside, line]
        have plain : '\n' ∉ front ++ ['/', '/'] := by simp [inside]
        rw [linesOf, linesOf, List.splitOn_eq_singleton single, List.splitOn_eq_singleton plain,
          List.map_singleton, List.map_singleton, Text.dropLineComment_append_comment]

/-- A line comment ends with its line. -/
theorem linesOf_append_comment (front rest : List Char) :
    linesOf (front ++ '/' :: '/' :: rest) =
      linesOf (front ++ ['/', '/']) ++ linesOf (afterLine rest) := by
  by_cases inside : '\n' ∈ rest
  · obtain ⟨comment, behind, rfl, line⟩ := List.eq_append_cons_of_mem inside
    have split : front ++ '/' :: '/' :: (comment ++ '\n' :: behind) =
        (front ++ '/' :: '/' :: comment) ++ '\n' :: behind := by simp
    rw [split, linesOf_append_newline, linesOf_append_line line, afterLine_append line]
    rfl
  · rw [linesOf_append_line inside, ← List.append_nil rest, afterLine_append inside]
    exact (List.append_nil _).symm

/-! ## Lines that read back -/

/-- The text is part of one line. -/
def OneLine (text : String) : Prop :=
  '\n' ∉ text.toList ∧ '\r' ∉ text.toList

instance (text : String) : Decidable (OneLine text) :=
  inferInstanceAs (Decidable (_ ∧ _))

/-- The text is what is left of a line: it is trimmed, and no comment is marked in it. -/
structure Plain (line : String) : Prop where
  oneLine : OneLine line
  uncommented : Apart '/' '/' line.toList
  trimmed : Rule.trimmed line = line
  filled : line ≠ ""

theorem Plain.trim_eq {line : String} (plain : Plain line) :
    Text.trim (dropLineComment line.toList) = line.toList := by
  rw [Text.dropLineComment_of_apart plain.uncommented, ← String.toList_ofList (l := Text.trim _)]
  exact congrArg String.toList plain.trimmed

/-- What is left of lines reads back unless the lines make a block comment together. -/
theorem sourceLines_intercalate {lines : List String} (some : lines ≠ [])
    (plain : ∀ line ∈ lines, Plain line)
    (noBlock : ¬ Text.HasBlock ("\n".intercalate lines).toList) :
    sourceLines ("\n".intercalate lines) = lines := by
  have noReturn : '\r' ∉ ("\n".intercalate lines).toList := by
    rw [String.toList_intercalate]
    refine Text.not_mem_intercalate (by decide) (List.forall_mem_map.mpr fun line inside => ?_)
    exact (plain line inside).oneLine.2
  have split := Text.splitOn_lines some fun line inside => (plain line inside).oneLine.1
  have kept : (lines.map String.toList).map (fun line => Text.trim (dropLineComment line)) =
      lines.map String.toList := by
    rw [List.map_map]
    exact List.map_congr_left fun line inside => (plain line inside).trim_eq
  have all : (lines.map String.toList).filter (fun line => !line.isEmpty) =
      lines.map String.toList := by
    rw [List.filter_eq_self]
    refine List.forall_mem_map.mpr fun line inside => ?_
    simpa using (plain line inside).filled
  rw [sourceLines_eq, Text.unifyLineEnds_of_not_mem noReturn,
    Text.dropBlocks_of_not_hasBlock noBlock, linesOf, split, kept, all, List.map_map]
  exact List.map_id'' (fun line => String.ofList_toList) lines

theorem uncommented_of_mem_sourceLines {text line : String} (member : line ∈ sourceLines text) :
    Apart '/' '/' line.toList := by
  obtain ⟨kept, inside, rfl⟩ := List.mem_map.mp member
  obtain ⟨raw, _, rfl⟩ := List.mem_map.mp (List.mem_filter.mp inside).1
  rw [String.toList_ofList]
  exact (Text.apart_dropLineComment raw).of_isInfix (Text.trim_isInfix _)

/-- What the lines hold stands in their text. -/
theorem flatten_linesOf_sublist (text : List Char) : (linesOf text).flatten.Sublist text := by
  have short : ∀ lines : List (List Char),
      (lines.map fun line => Text.trim (dropLineComment line)).flatten.Sublist lines.flatten := by
    intro lines
    induction lines with
    | nil => exact .refl _
    | cons line rest ih =>
        have kept : (Text.trim (dropLineComment line)).Sublist line :=
          (Text.trim_isInfix _).sublist.trans (Text.dropLineComment_prefix line).sublist
        exact kept.append ih
  have whole := Text.flatten_sublist_intercalate ['\n'] (text.splitOn '\n')
  rw [List.intercalate_splitOn] at whole
  exact (List.Sublist.flatten List.filter_sublist).trans ((short _).trans whole)

/-! ## What a comment decides -/

/-- The comment opens a block that is closed in the text behind its line. -/
def OpensInto (comment after : String) : Prop :=
  endsInBlock false comment.toList = true ∧ "*/".toList <:+: after.toList

/-- The rule lines behind the line of a comment. -/
def linesBehind (comment after : String) : List String :=
  (linesOf (afterLine (behindLine (endsInBlock false comment.toList)
    (unifyLineEnds after.toList)))).map String.ofList

theorem linesBehind_of_not_opensInto {comment after : String} (closed : ¬ OpensInto comment after) :
    linesBehind comment after = sourceLines after := by
  have outside : (endsInBlock false comment.toList && closesBlock (unifyLineEnds after.toList)) =
      false := by
    rw [Bool.and_eq_false_iff]
    by_cases inside : endsInBlock false comment.toList = true
    · have apart : Apart '*' '/' after.toList :=
        Text.apart_iff.mpr fun closes => closed ⟨inside, closes⟩
      exact .inr (Text.closesBlock_eq_false_iff.mpr (apart.unifyLineEnds (by decide) (by decide)))
    · exact .inl (Bool.not_eq_true _ ▸ inside)
  rw [linesBehind, behindLine, outside]
  rfl

variable {before comment after : String}

theorem dropBlocks_unifyLineEnds_append (noBlock : ¬ "/*".toList <:+: before.toList)
    (line : '\r' ∉ comment.toList) (apart : comment.toList.head? ≠ some '*') (rest : List Char) :
    dropBlocks false
        (unifyLineEnds (before.toList ++ '/' :: '/' :: (comment.toList ++ '\n' :: rest))) =
      unifyLineEnds before.toList ++ '/' :: '/' ::
        dropBlocks false (comment.toList ++ '\n' :: unifyLineEnds rest) := by
  have mark : Apart '/' '*' (unifyLineEnds before.toList) :=
    (Text.apart_iff.mpr noBlock).unifyLineEnds (by decide) (by decide)
  have solid : '\r' ∉ '/' :: '/' :: comment.toList := by simp [line]
  have unified : unifyLineEnds ('/' :: '/' :: (comment.toList ++ '\n' :: rest)) =
      '/' :: '/' :: (comment.toList ++ '\n' :: unifyLineEnds rest) :=
    Text.unifyLineEnds_append_newline solid
  rw [Text.unifyLineEnds_append_cons (by decide), unified, Text.dropBlocks_append_slash mark,
    Text.dropBlocks_cons (by simp), Text.dropBlocks_cons]
  rintro next inFront ⟨-, rfl⟩
  cases body : comment.toList with
  | nil => simp [body] at inFront
  | cons first others => simp_all

/-- The lines of a text are those before a line comment and those behind its line. -/
theorem sourceLines_comment (noBlock : ¬ "/*".toList <:+: before.toList) (line : OneLine comment)
    (apart : comment.toList.head? ≠ some '*') (after : String) :
    sourceLines (before ++ "//" ++ comment ++ "\n" ++ after) =
      sourceLines (before ++ "//") ++ linesBehind comment after := by
  have whole : (before ++ "//" ++ comment ++ "\n" ++ after).toList =
      before.toList ++ '/' :: '/' :: (comment.toList ++ '\n' :: after.toList) := by simp
  have start : (before ++ "//").toList = before.toList ++ ['/', '/'] := by simp
  have mark : Apart '/' '*' (unifyLineEnds before.toList) :=
    (Text.apart_iff.mpr noBlock).unifyLineEnds (by decide) (by decide)
  have front : dropBlocks false (unifyLineEnds (before.toList ++ ['/', '/'])) =
      unifyLineEnds before.toList ++ ['/', '/'] := by
    rw [Text.unifyLineEnds_append_cons (by decide)]
    exact Text.dropBlocks_append_slash mark
  obtain ⟨kept, onLine, left⟩ :=
    Text.exists_dropBlocks_line line.1 (unifyLineEnds after.toList) false nofun
  rw [sourceLines_eq, sourceLines_eq, whole, start, front,
    dropBlocks_unifyLineEnds_append noBlock line.2 apart, left, linesOf_append_comment,
    afterLine_append onLine, List.map_append]
  rfl

/--
Two comments are the same to a text exactly if the lines behind them are.  The lines behind a
comment are those of the text there, unless the comment opens a block that is closed in it.
-/
theorem sourceLines_eq_iff_of_comments (before first second after : String)
    (noBlock : ¬ "/*".toList <:+: before.toList) (firstLine : OneLine first)
    (secondLine : OneLine second) (firstApart : first.toList.head? ≠ some '*')
    (secondApart : second.toList.head? ≠ some '*') :
    (sourceLines (before ++ "//" ++ first ++ "\n" ++ after) =
        sourceLines (before ++ "//" ++ second ++ "\n" ++ after) ↔
      linesBehind first after = linesBehind second after) ∧
    (¬ OpensInto first after → ¬ OpensInto second after →
      sourceLines (before ++ "//" ++ first ++ "\n" ++ after) =
          sourceLines (before ++ "//") ++ sourceLines after ∧
        sourceLines (before ++ "//" ++ second ++ "\n" ++ after) =
          sourceLines (before ++ "//") ++ sourceLines after) := by
  rw [sourceLines_comment noBlock firstLine firstApart,
    sourceLines_comment noBlock secondLine secondApart]
  refine ⟨List.append_right_inj _, fun firstEnds secondEnds => ?_⟩
  rw [linesBehind_of_not_opensInto firstEnds, linesBehind_of_not_opensInto secondEnds]
  exact ⟨rfl, rfl⟩

/-- A block that a comment opens and closes, and one that is never closed, decide nothing. -/
theorem sourceLines_eq_iff_of_comments_closed :
    sourceLines ("S -> A B " ++ "//" ++ " one /* two */ three" ++ "\n" ++ "A -> b /* c") =
        ["S -> A B", "A -> b /* c"] ∧
      sourceLines ("S -> A B " ++ "//" ++ " four /* five" ++ "\n" ++ "A -> b /* c") =
        ["S -> A B", "A -> b /* c"] := by
  have equal := sourceLines_eq_iff_of_comments "S -> A B " " one /* two */ three" " four /* five"
    "A -> b /* c" (Text.apart_iff.mp (by decide)) (by decide) (by decide) (by decide) (by decide)
  obtain ⟨one, other⟩ := equal.2 (fun opens => absurd opens.1 (by decide))
    (fun opens => absurd opens.2 (Text.apart_iff.mp (by decide)))
  exact ⟨one.trans (by decide), other.trans (by decide)⟩

/-- A comment that opens a block takes the rules behind its line away, up to the closing mark. -/
theorem exists_rules_lost_to_comment :
    ∃ before first second after : String,
      ¬ "//".toList <:+: before.toList ∧ ¬ "/*".toList <:+: before.toList ∧
      OneLine first ∧ OneLine second ∧
      sourceLines (before ++ "//" ++ first ++ "\n" ++ after) = ["S -> A B"] ∧
      sourceLines (before ++ "//" ++ second ++ "\n" ++ after) =
        ["S -> A B", "A -> b", "B -> c"] := by
  refine ⟨"S -> A B ", " see /* below", " see below", "A -> b\nB -> c /* last */", ?_⟩
  have noLine := Text.apart_iff.mp (by decide : Apart '/' '/' "S -> A B ".toList)
  have noBlock := Text.apart_iff.mp (by decide : Apart '/' '*' "S -> A B ".toList)
  exact ⟨noLine, noBlock, by decide, by decide, by decide, by decide⟩

/-- A star behind the slashes makes a block mark with the second one. -/
example : sourceLines ("S -> a " ++ "//" ++ "* b */ c" ++ "\n" ++ "") = ["S -> a / c"] := by
  decide

end GrammarWorkbench.Rule
