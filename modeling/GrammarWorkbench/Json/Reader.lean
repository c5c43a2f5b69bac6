import GrammarWorkbench.Decimal.Numeral
import GrammarWorkbench.Json.Basic
import GrammarWorkbench.Text.Half

/-!
# Reading Json

The reader takes the whole text or nothing.  Beyond the common syntax it knows the
names of the doubles that are not finite, and it refuses whole numbers of more
than 4300 digits.  A half of a pair of units may stand alone.
-/

namespace GrammarWorkbench.Json

def skipSpace : List Char → List Char :=
  List.dropWhile fun char => char == ' ' || char == '\t' || char == '\n' || char == '\r'

/-- The value of a hexadecimal digit in either case. -/
def hexValue? (char : Char) : Option Nat :=
  let code := char.toNat
  if 48 ≤ code ∧ code ≤ 57 then some (code - 48)
  else if 97 ≤ code ∧ code ≤ 102 then some (code - 87)
  else if 65 ≤ code ∧ code ≤ 70 then some (code - 55)
  else none

/-- The sixteen-bit unit that four hexadecimal digits spell. -/
def unit? (a b c d : Char) : Option Nat := do
  return (((← hexValue? a) * 16 + (← hexValue? b)) * 16 + (← hexValue? c)) * 16 + (← hexValue? d)

/-- The character that a letter behind a backslash stands for. -/
def escaped? : Char → Option Char
  | '"' => some '"'
  | '\\' => some '\\'
  | '/' => some '/'
  | 'b' => some '\x08'
  | 'f' => some '\x0c'
  | 'n' => some '\n'
  | 'r' => some '\r'
  | 't' => some '\t'
  | _ => none

/-- The code points and units of a string up to its closing mark, and the text behind it. -/
def readUnits : List Char → Option (List Nat × List Char)
  | '"' :: rest => some ([], rest)
  | '\\' :: 'u' :: a :: b :: c :: d :: rest => do
      let unit ← unit? a b c d
      let (units, behind) ← readUnits rest
      return (unit :: units, behind)
  | '\\' :: letter :: rest => do
      let char ← escaped? letter
      let (units, behind) ← readUnits rest
      return (char.toNat :: units, behind)
  | char :: rest =>
      if char.toNat < 0x20 || char = '\\' then none
      else do
        let (units, behind) ← readUnits rest
        return (char.toNat :: units, behind)
  | [] => none

/-- The characters of code points and units, where two halves make one character. -/
def joinUnits : List Nat → List Char
  | high :: low :: rest =>
      if 0xD800 ≤ high ∧ high < 0xDC00 ∧ 0xDC00 ≤ low ∧ low < 0xE000 then
        Char.ofNat (0x10000 + (high - 0xD800) * 0x400 + (low - 0xDC00)) :: joinUnits rest
      else
        single high :: joinUnits (low :: rest)
  | [last] => [single last]
  | [] => []
where
  single (unit : Nat) : Char :=
    if 0xD800 ≤ unit ∧ unit < 0xE000 then Text.loneHalf unit else Char.ofNat unit

def readString (text : List Char) : Option (String × List Char) :=
  (readUnits text).map fun (units, rest) => (String.ofList (joinUnits units), rest)

def wholeDigits : Nat := 4300

/-- The digits in front of a text, and the rest. -/
def spanDigits (text : List Char) : List Char × List Char :=
  text.span Char.isDigit

/-- The digits behind a point, if there are any. -/
def readFraction : List Char → Option (List Char × List Char)
  | '.' :: rest =>
      match spanDigits rest with
      | ([], _) => none
      | found => some found
  | _ => none

/-- The power of ten behind its mark, if there is one. -/
def readPower : List Char → Option (Int × List Char)
  | mark :: rest =>
      if mark = 'e' || mark = 'E' then
        let (negative, digits) := match rest with
          | '+' :: digits => (false, digits)
          | '-' :: digits => (true, digits)
          | digits => (false, digits)
        match spanDigits digits with
        | ([], _) => none
        | (found, behind) =>
            let size : Int := Decimal.digitsValue found
            some (if negative then -size else size, behind)
      else none
  | [] => none

/-- The digits of a whole number: a zero, or a digit other than zero and more. -/
def readWhole : List Char → Option (List Char × List Char)
  | '0' :: rest => some (['0'], rest)
  | text =>
      match spanDigits text with
      | ([], _) => none
      | found => some found

/-- A number without its sign. -/
def readMagnitude (negative : Bool) (text : List Char) : Option (Json × List Char) :=
  match readWhole text with
  | none => none
  | some (whole, rest) =>
      let fraction := readFraction rest
      let rest := (fraction.map (·.2)).getD rest
      let power := readPower rest
      let rest := (power.map (·.2)).getD rest
      if fraction.isNone && power.isNone then
        if whole.length ≤ wholeDigits then
          let size : Int := Decimal.digitsValue whole
          some (.integer (if negative then -size else size), rest)
        else none
      else
        let behind := (fraction.map (·.1)).getD []
        let ten := (power.map (·.1)).getD 0
        let size := Decimal.nearest (whole ++ behind) (ten - behind.length)
        some (.number (if negative then -size else size), rest)

/-- A value that is neither a string nor made of values. -/
def readScalar : List Char → Option (Json × List Char)
  | 'n' :: 'u' :: 'l' :: 'l' :: rest => some (.null, rest)
  | 't' :: 'r' :: 'u' :: 'e' :: rest => some (.bool true, rest)
  | 'f' :: 'a' :: 'l' :: 's' :: 'e' :: rest => some (.bool false, rest)
  | 'N' :: 'a' :: 'N' :: rest => some (.number (0.0 / 0.0), rest)
  | 'I' :: 'n' :: 'f' :: 'i' :: 'n' :: 'i' :: 't' :: 'y' :: rest =>
      some (.number (1.0 / 0.0), rest)
  | '-' :: 'I' :: 'n' :: 'f' :: 'i' :: 'n' :: 'i' :: 't' :: 'y' :: rest =>
      some (.number (-1.0 / 0.0), rest)
  | '-' :: rest => readMagnitude true rest
  | text => readMagnitude false text

mutual

/-- A value in front of a text.  Each step takes a character, so `depth` may be the length. -/
def readValue : Nat → List Char → Option (Json × List Char)
  | 0, _ => none
  | depth + 1, text =>
      match text with
      | '"' :: rest => (readString rest).map fun (value, behind) => (.string value, behind)
      | '[' :: rest =>
          match skipSpace rest with
          | ']' :: behind => some (.array [], behind)
          | items => (readItems depth items).map fun (values, behind) => (.array values, behind)
      | '{' :: rest =>
          match skipSpace rest with
          | '}' :: behind => some (.object [], behind)
          | members =>
              (readMembers depth members).map fun (pairs, behind) => (ofMembers pairs, behind)
      | _ => readScalar text

/-- The items of an array up to its closing mark. -/
def readItems : Nat → List Char → Option (List Json × List Char)
  | 0, _ => none
  | depth + 1, text =>
      match readValue depth text with
      | none => none
      | some (value, rest) =>
          match skipSpace rest with
          | ']' :: behind => some ([value], behind)
          | ',' :: behind =>
              (readItems depth (skipSpace behind)).map fun (values, last) => (value :: values, last)
          | _ => none

/-- The members of an object up to its closing mark. -/
def readMembers : Nat → List Char → Option (List (String × Json) × List Char)
  | 0, _ => none
  | depth + 1, text =>
      match text with
      | '"' :: rest =>
          match readString rest with
          | none => none
          | some (name, rest) =>
              match skipSpace rest with
              | ':' :: rest =>
                  match readValue depth (skipSpace rest) with
                  | none => none
                  | some (value, rest) =>
                      match skipSpace rest with
                      | '}' :: behind => some ([(name, value)], behind)
                      | ',' :: behind =>
                          (readMembers depth (skipSpace behind)).map
                            fun (pairs, last) => ((name, value) :: pairs, last)
                      | _ => none
              | _ => none
      | _ => none

end

/-- Read a whole text as one value between spaces. -/
def read? (text : String) : Option Json :=
  match readValue (text.length + 1) (skipSpace text.toList) with
  | some (value, rest) => if (skipSpace rest).isEmpty then some value else none
  | none => none

end GrammarWorkbench.Json
