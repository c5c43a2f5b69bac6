/-!
# Reading decimals

A decimal numeral stands for the nearest double.  Magnitudes beyond all doubles
are settled by the place of the first digit, so that no power of ten grows large.
-/

namespace GrammarWorkbench.Decimal

/-- The number that a list of decimal digits stands for. -/
def digitsValue (digits : List Char) : Nat :=
  digits.foldl (fun value digit => value * 10 + (digit.toNat - 48)) 0

/-- The double nearest to `digits * 10 ^ ten`. -/
def nearest (digits : List Char) (ten : Int) : Float :=
  let significant := digits.dropWhile (· == '0')
  let place := (significant.length : Int) + ten
  if significant.isEmpty || place < -400 then 0.0
  else if 400 < place then 1.0 / 0.0
  else Float.ofScientific (digitsValue significant) (ten < 0) ten.natAbs

example : digitsValue ['0', '4', '2'] = 42 := by decide

end GrammarWorkbench.Decimal
