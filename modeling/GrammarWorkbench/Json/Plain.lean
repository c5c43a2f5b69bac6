import GrammarWorkbench.Decimal.Written
import GrammarWorkbench.Json.Basic
import GrammarWorkbench.Text.Quoted

/-!
# Values in messages

A string stands for itself in a message.  Inside an array or an object a string is
quoted, and the values without content have names of their own.
-/

namespace GrammarWorkbench.Json

mutual

/-- A value inside another one. -/
def inner : Json → String
  | .null => "None"
  | .bool true => "True"
  | .bool false => "False"
  | .integer value => toString value
  | .number value => Decimal.written value
  | .string value => Text.quoted value
  | .array items => "[" ++ ", ".intercalate (innerItems items) ++ "]"
  | .object members => "\x7b" ++ ", ".intercalate (innerMembers members) ++ "\x7d"

def innerItems : List Json → List String
  | [] => []
  | first :: rest => inner first :: innerItems rest

def innerMembers : List (String × Json) → List String
  | [] => []
  | (name, value) :: rest => (Text.quoted name ++ ": " ++ inner value) :: innerMembers rest

end

/-- A value on its own. -/
def plain : Json → String
  | .string value => value
  | value => inner value

/-- A value that says nothing: no value, no truth, zero, or no content. -/
def isBlank : Json → Bool
  | .null => true
  | .bool value => !value
  | .integer value => value == 0
  | .number value => value == 0.0
  | .string value => value.isEmpty
  | .array items => items.isEmpty
  | .object members => members.isEmpty

end GrammarWorkbench.Json
