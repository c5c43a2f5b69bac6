/-!
# Halves of pairs

In sixteen-bit units a character beyond the first 65536 is a pair.  A half of a pair is no
character, but a text that is put together from escapes may hold one on its own.
-/

namespace GrammarWorkbench.Text

/-- A half on its own, shown by the character at its place in the fifth plane, where none is
assigned. -/
def loneHalf (unit : Nat) : Char :=
  Char.ofNat (0x50000 + unit)

/-- The half that a character shows. -/
def loneHalf? (char : Char) : Option Nat :=
  if 0x5D800 ≤ char.toNat ∧ char.toNat < 0x5E000 then some (char.toNat - 0x50000) else none

/-- The character stands for itself. -/
def isWhole (char : Char) : Bool :=
  (loneHalf? char).isNone

theorem isWhole_of_ascii {char : Char} (ascii : char.toNat < 0x80) : isWhole char = true := by
  have below : ¬ 0x5D800 ≤ char.toNat := by omega
  simp [isWhole, loneHalf?, below]

end GrammarWorkbench.Text
