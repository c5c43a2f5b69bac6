import GrammarWorkbench.Rule.Reader
import GrammarWorkbench.Text.Comment

/-!
# Grammar text

Grammar text is cut into the lines that may hold rules.  The accept rule goes in
front of them and wraps the start symbol before the end marker.
-/

namespace GrammarWorkbench.Rule

/-- The lines of a text, without comments, blanks at the ends and empty lines. -/
def sourceLines (text : String) : List String :=
  (((Text.dropBlocks false (Text.unifyLineEnds text.toList)).splitOn '\n').map
    fun line => Text.trim (Text.dropLineComment line)).filter (fun line => !line.isEmpty)
    |>.map String.ofList

/-- The accept rule as a line. -/
def acceptLine (start endMarker : String) : String :=
  acceptSymbol ++ " " ++ arrow ++ " " ++ start ++ " " ++ endMarker

/-- The trimmed text before the first arrow of a line, if there is an arrow and some text. -/
def leadingSymbol? (line : String) : Option String :=
  match sides line.toList with
  | left :: _ :: _ =>
      if (Text.trim left).isEmpty then none else some (String.ofList (Text.trim left))
  | _ => none

/--
The lines behind the accept rule for a start symbol, by default the left side of
the first line.
-/
def augment (lines : List String) (start? : Option String) (endMarker : String) :
    Except RuleError (List String) :=
  match lines, start? with
  | [], _ => .error .noRules
  | _, some start => .ok (acceptLine start endMarker :: lines)
  | first :: _, none =>
      match leadingSymbol? first with
      | some start => .ok (acceptLine start endMarker :: lines)
      | none => .error (.malformed first .format)

end GrammarWorkbench.Rule
