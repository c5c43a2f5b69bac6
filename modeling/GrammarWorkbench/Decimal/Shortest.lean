import GrammarWorkbench.Decimal.Binary

/-!
# Shortest decimals

Of the decimals that round to a binary fraction the shortest is taken, and of
several the nearest.  Only the two neighbours of the value on each decimal grid
need a test, because a grid with a point in the interval has one of them in it.
-/

namespace GrammarWorkbench.Decimal

/-- A decimal number: its digits, and the power of ten of the first of them. -/
structure Digits where
  digits : List Char
  leading : Int
  deriving DecidableEq, Repr

namespace Binary

/-- The power of ten just above a value other than zero. -/
def scale (value : Binary) : Int :=
  let estimate := ((Nat.log2 value.mantissa : Int) + value.exponent) * 30103 / 100000
  ([estimate, estimate + 1].find? fun ten =>
    compareScaled 1 ten value.mantissa value.exponent == .gt).getD (estimate + 2)

/-- The greatest multiple of a power of ten that is not above the value. -/
def floorOn (value : Binary) (ten : Int) : Nat :=
  raise 10 (-ten) (raise 2 value.exponent value.mantissa) /
    raise 10 ten (raise 2 (-value.exponent) 1)

/-- The nearer of two neighbouring multiples, the even one if both are as near. -/
def nearer (value : Binary) (below : Nat) (ten : Int) : Nat :=
  match compareScaled (2 * below + 1) ten (2 * value.mantissa) value.exponent with
  | .gt => below
  | .lt => below + 1
  | .eq => if below % 2 = 0 then below else below + 1

/-- The multiple of a power of ten that rounds to the value and is nearest to it. -/
def onGrid? (value : Binary) (ten : Int) : Option Nat :=
  let below := value.floorOn ten
  match value.readsBack below ten, value.readsBack (below + 1) ten with
  | true, true => some (value.nearer below ten)
  | true, false => some below
  | false, true => some (below + 1)
  | false, false => none

/-- The grids of one to seventeen digits, from the coarsest. -/
def grids (value : Binary) : List Int :=
  (List.range 17).map fun (count : Nat) => value.scale - 1 - count

/-- The fewest digits that round to the value, or all of them if seventeen do not. -/
def shortest (value : Binary) : Nat × Int :=
  match value.grids.findSome? fun ten => (value.onGrid? ten).map (·, ten) with
  | some found => found
  | none =>
      (raise 5 (-value.exponent) (raise 2 value.exponent value.mantissa), min value.exponent 0)

/-- The digits of the shortest decimal, without zeros at their end. -/
def digits (value : Binary) : Digits :=
  let (number, ten) := value.shortest
  let written := Nat.toDigits 10 number
  ⟨(written.reverse.dropWhile (· == '0')).reverse, ten + written.length - 1⟩

end Binary

example : (Binary.ofBits (0.3 : Float).toBits).digits = ⟨['3'], -1⟩ := by decide +kernel

example : (Binary.ofBits (1e23 : Float).toBits).digits = ⟨['1'], 23⟩ := by decide +kernel

end GrammarWorkbench.Decimal
