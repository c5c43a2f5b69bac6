import GrammarWorkbench.Decimal.Written
import GrammarWorkbench.Json.Basic
import GrammarWorkbench.Text.Order
import GrammarWorkbench.Text.Quoted

/-!
# Writing Json

Values are written without spaces, and the members of every object are sorted by
name.  Only the quotation mark, the backslash and the controls are escaped.
-/

namespace GrammarWorkbench.Json

/-- One character inside a string. -/
def stringChar (char : Char) : List Char :=
  if char = '"' || char = '\\' then ['\\', char]
  else if char = '\n' then ['\\', 'n']
  else if char = '\r' then ['\\', 'r']
  else if char = '\t' then ['\\', 't']
  else if char = '\x08' then ['\\', 'b']
  else if char = '\x0c' then ['\\', 'f']
  else if char.toNat < 0x20 then '\\' :: 'u' :: Text.hexDigits 4 char.toNat
  else [char]

def stringText (value : String) : String :=
  "\"" ++ String.ofList (value.toList.flatMap stringChar) ++ "\""

/-- Insert a member before the first one whose name is not smaller. -/
def insertMember (member : String × String) : List (String × String) → List (String × String)
  | [] => [member]
  | first :: rest =>
      if Text.Precedes first.1 member.1 then first :: insertMember member rest
      else member :: first :: rest

/-- Members sorted by name. -/
def sortMembers (members : List (String × String)) : List (String × String) :=
  members.foldr insertMember []

/-- Written members between the marks of an object. -/
def objectText (members : List (String × String)) : String :=
  "\x7b" ++ ",".intercalate
    ((sortMembers members).map fun member => stringText member.1 ++ ":" ++ member.2) ++ "\x7d"

/-- A double, where those that are not finite have names. -/
def numberText (value : Float) : String :=
  if value.isNaN then "NaN"
  else if value.isInf then (if value < 0.0 then "-Infinity" else "Infinity")
  else Decimal.written value

mutual

/-- A value as text. -/
def text : Json → String
  | .null => "null"
  | .bool true => "true"
  | .bool false => "false"
  | .integer value => toString value
  | .number value => numberText value
  | .string value => stringText value
  | .array items => "[" ++ ",".intercalate (itemTexts items) ++ "]"
  | .object members => objectText (memberTexts members)

def itemTexts : List Json → List String
  | [] => []
  | first :: rest => text first :: itemTexts rest

def memberTexts : List (String × Json) → List (String × String)
  | [] => []
  | (name, value) :: rest => (name, text value) :: memberTexts rest

end

end GrammarWorkbench.Json
