/-!
# Markup entities

The five characters that mean something to a markup reader are written as
entities.  The apostrophe has two written forms, so a style names the one in use.
-/

namespace GrammarWorkbench.Text

/-- How an apostrophe is written. -/
inductive Apostrophe where
  | decimal
  | hexadecimal
  deriving DecidableEq, Repr

def Apostrophe.entity : Apostrophe → List Char
  | .decimal => ['&', '#', '0', '3', '9', ';']
  | .hexadecimal => ['&', '#', 'x', '2', '7', ';']

/-- One character as it may stand in markup. -/
def markupChar (style : Apostrophe) : Char → List Char
  | '&' => ['&', 'a', 'm', 'p', ';']
  | '<' => ['&', 'l', 't', ';']
  | '>' => ['&', 'g', 't', ';']
  | '"' => ['&', 'q', 'u', 'o', 't', ';']
  | '\'' => style.entity
  | char => [char]

def markupChars (style : Apostrophe) (text : List Char) : List Char :=
  text.flatMap (markupChar style)

/-- The text with its markup characters written as entities. -/
def markup (style : Apostrophe) (text : String) : String :=
  String.ofList (markupChars style text.toList)

@[simp] theorem markupChars_nil (style : Apostrophe) : markupChars style [] = [] :=
  rfl

@[simp] theorem markupChars_cons (style : Apostrophe) (first : Char) (rest : List Char) :
    markupChars style (first :: rest) = markupChar style first ++ markupChars style rest :=
  rfl

@[simp] theorem markupChars_append (style : Apostrophe) (left right : List Char) :
    markupChars style (left ++ right) = markupChars style left ++ markupChars style right := by
  simp [markupChars]

end GrammarWorkbench.Text
