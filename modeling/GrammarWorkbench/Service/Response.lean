import GrammarWorkbench.Json.Writer

/-!
# Responses

A response has a status and a Json body, and a log goes with it.  Its body still has to
be written, and what writes it may refuse to.
-/

namespace GrammarWorkbench

/-- The log has one entry for each remark. -/
structure Response where
  status : Nat
  body : Json
  log : List String := []

/-- The text of a body, or what is said against writing it. -/
abbrev Writer := Json → Except String String

namespace Writer

/-- The response, if its body can be written. -/
def send (write : Writer) (response : Response) : Except String Response :=
  (write response.body).map fun _ => response

/-- What is said against writing a text in UTF-8, which has no bytes for a half: the first one is
blamed, or all that stand together there. -/
def utf8Fault? (text : List Char) : Option String :=
  let position := (text.takeWhile Text.isWhole).length
  match (text.dropWhile Text.isWhole).takeWhile (!Text.isWhole ·) with
  | [] => none
  | [half] =>
      some ("'utf-8' codec can't encode character '\\u" ++
        String.ofList (Text.hexDigits 4 ((Text.loneHalf? half).getD 0)) ++ "' in position " ++
        toString position ++ ": surrogates not allowed")
  | halves =>
      some ("'utf-8' codec can't encode characters in position " ++ toString position ++ "-" ++
        toString (position + halves.length - 1) ++ ": surrogates not allowed")

/-- Writes a body as one line of text in UTF-8. -/
def utf8 : Writer := fun body =>
  let text := body.text ++ "\n"
  match utf8Fault? text.toList with
  | none => .ok text
  | some fault => .error fault

end Writer

end GrammarWorkbench
