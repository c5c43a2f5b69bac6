import GrammarWorkbench.Text.Half
import GrammarWorkbench.Text.Printable

/-!
# Quoted text

A text stands between apostrophes, or between quotation marks if it holds an
apostrophe and no quotation mark.  The backslash, the mark in use, the characters
that are not printable and lone halves of pairs are escaped.
-/

namespace GrammarWorkbench.Text

/-- A digit below sixteen, in lower case. -/
def hexDigit (digit : Nat) : Char :=
  if digit < 10 then Char.ofNat (48 + digit) else Char.ofNat (87 + digit)

/-- The last `width` hexadecimal digits of a number. -/
def hexDigits : Nat → Nat → List Char
  | 0, _ => []
  | width + 1, number => hexDigits width (number / 16) ++ [hexDigit (number % 16)]

theorem hexDigits_length (width number : Nat) : (hexDigits width number).length = width := by
  induction width generalizing number with
  | zero => rfl
  | succ width ih => simp [hexDigits, ih]

/-- The mark that encloses a quoted text. -/
def quoteMark (text : List Char) : Char :=
  if text.contains '\'' && !text.contains '"' then '"' else '\''

/-- One character between marks. -/
def quotedChar (mark char : Char) : List Char :=
  if char = '\\' || char = mark then ['\\', char]
  else if char = '\n' then ['\\', 'n']
  else if char = '\r' then ['\\', 'r']
  else if char = '\t' then ['\\', 't']
  else if isPrintable char then [char]
  else if let some half := loneHalf? char then '\\' :: 'u' :: hexDigits 4 half
  else if char.toNat < 0x100 then '\\' :: 'x' :: hexDigits 2 char.toNat
  else if char.toNat < 0x10000 then '\\' :: 'u' :: hexDigits 4 char.toNat
  else '\\' :: 'U' :: hexDigits 8 char.toNat

/-- The text between its marks. -/
def quotedChars (text : List Char) : List Char :=
  quoteMark text :: text.flatMap (quotedChar (quoteMark text)) ++ [quoteMark text]

def quoted (text : String) : String :=
  String.ofList (quotedChars text.toList)

/-- Quoted texts between square brackets. -/
def quotedList (texts : List String) : String :=
  "[" ++ ", ".intercalate (texts.map quoted) ++ "]"

example : quotedChars "it's".toList = "\"it's\"".toList := by decide

example : quotedChars "\u00a0".toList = "'\\xa0'".toList := by decide

end GrammarWorkbench.Text
