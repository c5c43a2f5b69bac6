import GrammarWorkbench.Text.UpperCase

/-!
# Rule errors

A line that is no rule has a flaw, and a grammar without lines has none to read.
-/

namespace GrammarWorkbench

/-- Why a line is no rule. -/
inductive Flaw where
  | format
  | noArrow
  | severalArrows
  | emptySide
  | wideLeftSide
  | other (reason : String)
  deriving DecidableEq, Repr

/-- Why no grammar can be read. -/
inductive RuleError where
  | malformed (line : String) (flaw : Flaw)
  | empty (notice : String)
  deriving DecidableEq, Repr

def Flaw.reason : Flaw → String
  | .format => "expected format \"A -> B C\""
  | .noArrow => "missing '->' separator"
  | .severalArrows => "expected a single '->' separator"
  | .emptySide => "both sides of the rule must be non-empty"
  | .wideLeftSide => "left-hand side must be a single symbol"
  | .other reason => reason

/-- What is said of a grammar without lines. -/
def emptyNotice : String := "At least one rule must be provided."

namespace RuleError

def noRules : RuleError := .empty emptyNotice

/-- The message quotes the line as it is and gives the reason as a sentence. -/
def message : RuleError → String
  | .malformed line flaw =>
      "Invalid rule format: \"" ++ line ++ "\". " ++
        String.ofList (Text.capitalize flaw.reason.toList) ++ "."
  | .empty notice => notice

end RuleError

end GrammarWorkbench
