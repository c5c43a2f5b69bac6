import GrammarWorkbench.Decimal.Shortest

/-!
# Written decimals

A double is written with the fewest digits that read back.  Powers of ten from
-4 to 15 are written with a point among the digits, and always with one digit
behind it.  Other powers follow the digits as a signed number of two digits or more.
-/

namespace GrammarWorkbench.Decimal

/-- Digits with a point, or zeros, where the power of the first digit puts it. -/
def positional (digits : List Char) (leading : Int) : List Char :=
  if leading < 0 then
    '0' :: '.' :: List.replicate (-leading - 1).toNat '0' ++ digits
  else
    let places := leading.toNat + 1
    if digits.length ≤ places then
      digits ++ List.replicate (places - digits.length) '0' ++ ['.', '0']
    else
      digits.take places ++ '.' :: digits.drop places

/-- The power of ten behind the digits. -/
def power (leading : Int) : List Char :=
  let size := Nat.toDigits 10 leading.natAbs
  'e' :: (if leading < 0 then '-' else '+') ::
    (if size.length < 2 then '0' :: size else size)

def scientific (digits : List Char) (leading : Int) : List Char :=
  match digits with
  | [first] => first :: power leading
  | first :: rest => first :: '.' :: rest ++ power leading
  | [] => []

/-- A magnitude other than zero, written. -/
def Digits.written (number : Digits) : List Char :=
  if -4 ≤ number.leading ∧ number.leading < 16 then
    positional number.digits number.leading
  else
    scientific number.digits number.leading

/-- The sign bit is set. -/
def signed (bits : UInt64) : Bool :=
  bits >>> 63 == 1

def writtenChars (value : Float) : List Char :=
  let bits := value.toBits
  if value.isNaN then ['n', 'a', 'n']
  else
    let magnitude := Binary.ofBits bits
    (if signed bits then ['-'] else []) ++
      if value.isInf then ['i', 'n', 'f']
      else if magnitude.mantissa = 0 then ['0', '.', '0']
      else magnitude.digits.written

/-- The text of a double. -/
def written (value : Float) : String :=
  String.ofList (writtenChars value)

example : writtenChars 0.05 = "0.05".toList := by decide +kernel

example : writtenChars 5000.0 = "5000.0".toList := by decide +kernel

example : writtenChars 1e16 = "1e+16".toList := by decide +kernel

example : writtenChars 1.5e-7 = "1.5e-07".toList := by decide +kernel

end GrammarWorkbench.Decimal
