import GrammarWorkbench.Rule.Basic
import GrammarWorkbench.Rule.Error
import GrammarWorkbench.Text.Blank

/-!
# Reading rules

A line is a rule when one arrow stands between a single word and at least one
word.  The words after the arrow are the right side, without the word that stands
for the empty one.
-/

namespace GrammarWorkbench.Rule

/-- The pieces of a line between its arrows, from left to right. -/
def sides : List Char → List (List Char)
  | '-' :: '>' :: rest => [] :: sides rest
  | first :: rest => (sides rest).modifyHead (first :: ·)
  | [] => [[]]

theorem sides_ne_nil (line : List Char) : sides line ≠ [] := by
  fun_induction sides line with
  | case1 rest ih => simp
  | case2 first rest _ ih =>
      cases pieces : sides rest with
      | nil => exact absurd pieces ih
      | cons head tail => simp
  | case3 => simp

/-- The words of a right side, as symbols, less the word for the empty one. -/
def readSymbols (epsilon : Symbol) (text : List Char) : List Symbol :=
  ((Text.words text).map String.ofList).filter (· ≠ epsilon)

/-- Read one line as the rule with the given index. -/
def read (line : String) (index : Int) (epsilon : Symbol) : Except RuleError Rule :=
  match sides line.toList with
  | [left, right] =>
      if (Text.trim left).isEmpty || (Text.trim right).isEmpty then
        .error (.malformed line .emptySide)
      else if (Text.words left).length ≠ 1 then
        .error (.malformed line .wideLeftSide)
      else
        .ok ⟨index, String.ofList (Text.trim left), readSymbols epsilon right, epsilon⟩
  | _ :: _ :: _ => .error (.malformed line .severalArrows)
  | _ => .error (.malformed line .noArrow)

/-- The line without blanks at its ends. -/
def trimmed (line : String) : String :=
  String.ofList (Text.trim line.toList)

/-- Read trimmed lines as rules with consecutive indices, up to the first flaw. -/
def readFrom (epsilon : Symbol) : Int → List String → Except RuleError (List Rule)
  | _, [] => .ok []
  | index, line :: rest =>
      match read (trimmed line) index epsilon with
      | .error error => .error error
      | .ok rule => (readFrom epsilon (index + 1) rest).map (rule :: ·)

/-- Read the lines of a grammar, which has at least one. -/
def readAll (lines : List String) (epsilon : Symbol) : Except RuleError (List Rule) :=
  if lines.isEmpty then .error .noRules else readFrom epsilon 0 lines

end GrammarWorkbench.Rule
