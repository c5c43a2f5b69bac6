/-!
# Lines of commented text

Line ends are unified first, block comments go next, and line comments last, so
a block mark inside a line comment still opens a block.
-/

namespace GrammarWorkbench.Text

/-- Every line end becomes a single newline. -/
def unifyLineEnds : List Char → List Char
  | '\r' :: '\n' :: rest => '\n' :: unifyLineEnds rest
  | '\r' :: rest => '\n' :: unifyLineEnds rest
  | first :: rest => first :: unifyLineEnds rest
  | [] => []

/-- The end mark of a block comment occurs in the text. -/
def closesBlock : List Char → Bool
  | '*' :: '/' :: _ => true
  | _ :: rest => closesBlock rest
  | [] => false

/--
The text without its block comments.  The flag says that the text starts inside
a comment.  A block that is never closed is no comment.
-/
def dropBlocks : Bool → List Char → List Char
  | true, '*' :: '/' :: rest => dropBlocks false rest
  | true, _ :: rest => dropBlocks true rest
  | false, '/' :: '*' :: rest =>
      if closesBlock rest then dropBlocks true rest else '/' :: '*' :: rest
  | false, first :: rest => first :: dropBlocks false rest
  | _, [] => []

/-- A line up to its first line comment. -/
def dropLineComment : List Char → List Char
  | '/' :: '/' :: _ => []
  | first :: rest => first :: dropLineComment rest
  | [] => []

example : dropBlocks false "a/*b*/c/*d".toList = "ac/*d".toList := by decide

example : dropBlocks false "/*/x*/y".toList = ['y'] := by decide

end GrammarWorkbench.Text
