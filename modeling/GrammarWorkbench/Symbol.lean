/-!
# Grammar symbols

A symbol is a word of text.  A grammar gives three words a fixed part: the left
side of the accept rule, the marker that ends every input, and the word that
stands for an empty right side.
-/

namespace GrammarWorkbench

abbrev Symbol := String

/-- The left side of the accept rule. -/
def acceptSymbol : Symbol := "$accept"

/-- The terminal that ends the input unless another one is chosen. -/
def defaultEndMarker : Symbol := "$"

/-- The word for an empty right side unless another one is chosen. -/
def defaultEpsilon : Symbol := "ε"

/-- The mark between the two sides of a rule line. -/
def arrow : String := "->"

end GrammarWorkbench
