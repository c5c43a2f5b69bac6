/-!
# The order of texts

Texts are ordered by the code points of their characters, and a text stands before
those that continue it.  The relation is named here once, so that no other order on
texts can take its place.
-/

namespace GrammarWorkbench.Text

/-- The first text stands before the second. -/
def Precedes (left right : String) : Prop :=
  @LT.lt String String.instLT left right

instance (left right : String) : Decidable (Precedes left right) :=
  String.decidableLT left right

theorem Precedes.irrefl (text : String) : ¬ Precedes text text :=
  String.lt_irrefl text

theorem Precedes.trans {left middle right : String} (lower : Precedes left middle)
    (upper : Precedes middle right) : Precedes left right :=
  String.lt_trans lower upper

/-- Texts are equal when neither stands before the other. -/
theorem eq_of_not_precedes {left right : String} (notBefore : ¬ Precedes left right)
    (notBehind : ¬ Precedes right left) : left = right :=
  String.le_antisymm (String.not_lt.mp notBehind) (String.not_lt.mp notBefore)

example : Precedes "a" "ab" := by decide

example : Precedes "\uffff" "😀" := by decide

end GrammarWorkbench.Text
