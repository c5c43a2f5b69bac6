/-!
# Binary fractions

A finite double is a whole number times a power of two.  The reals that round to
it form an interval around it, whose lower half is narrower just above a power of
two, and whose ends belong to it when the whole number is even.
-/

namespace GrammarWorkbench.Decimal

/-- The magnitude of a finite double, `mantissa * 2 ^ exponent`. -/
structure Binary where
  mantissa : Nat
  exponent : Int
  narrow : Bool
  deriving DecidableEq, Repr

/-- The magnitude that the bits of a finite double stand for. -/
def Binary.ofBits (bits : UInt64) : Binary :=
  let biased := ((bits >>> 52) &&& 0x7FF).toNat
  let fraction := (bits &&& 0xFFFFFFFFFFFFF).toNat
  if biased = 0 then ⟨fraction, -1074, false⟩
  else ⟨0x10000000000000 + fraction, (biased : Int) - 1075, fraction == 0 && 1 < biased⟩

/-- A number times a power of a base; a negative power leaves the number as it is. -/
def raise (base : Nat) (power : Int) (number : Nat) : Nat :=
  number * Nat.pow base power.toNat

/-- The sign of `left * 10 ^ ten` less `right * 2 ^ two`, without division. -/
def compareScaled (left : Nat) (ten : Int) (right : Nat) (two : Int) : Ordering :=
  compare (raise 2 (-two) (raise 10 ten left)) (raise 10 (-ten) (raise 2 two right))

/-- The decimal `digits * 10 ^ ten` rounds to the value, a tie going to even. -/
def Binary.readsBack (value : Binary) (digits : Nat) (ten : Int) : Bool :=
  let low := 4 * value.mantissa - if value.narrow then 1 else 2
  let high := 4 * value.mantissa + 2
  let closed := value.mantissa % 2 == 0
  let fromLow := compareScaled digits ten low (value.exponent - 2)
  let toHigh := compareScaled digits ten high (value.exponent - 2)
  (fromLow == .gt || closed && fromLow == .eq) && (toHigh == .lt || closed && toHigh == .eq)

example : (Binary.ofBits 0x3FF0000000000000).readsBack ((2 ^ 53 + 1) * 5 ^ 53) (-53) = true := by
  decide +kernel

example : (Binary.ofBits 0x3FF0000000000001).readsBack ((2 ^ 53 + 1) * 5 ^ 53) (-53) = false := by
  decide +kernel

end GrammarWorkbench.Decimal
