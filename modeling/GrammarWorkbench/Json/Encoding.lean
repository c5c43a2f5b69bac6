import GrammarWorkbench.Json.Reader

/-!
# Encodings of a body

The bytes of a Json text tell their own encoding, because its first characters are
below 128: the places of the zero bytes give the width and the order of a unit.
-/

namespace GrammarWorkbench.Json

/-- Bytes, or units of two or four bytes, of which the first or the last may be the greatest. -/
inductive Encoding where
  | bytes
  | pairs (greatestFirst : Bool)
  | quads (greatestFirst : Bool)
  deriving DecidableEq, Repr

namespace Encoding

def ofBytes : List UInt8 → Encoding
  | a :: b :: c :: d :: _ =>
      if a = 0 then (if b = 0 then .quads true else .pairs true)
      else if b = 0 then (if c = 0 ∧ d = 0 then .quads false else .pairs false)
      else .bytes
  | [a, b] => if a = 0 then .pairs true else if b = 0 then .pairs false else .bytes
  | _ => .bytes

/-- The number that some bytes stand for. -/
def unit (greatestFirst : Bool) (bytes : List UInt8) : Nat :=
  (if greatestFirst then bytes else bytes.reverse).foldl
    (fun value byte => value * 256 + byte.toNat) 0

/-- The units of two bytes, if the bytes make up whole units. -/
def readPairs (greatestFirst : Bool) : List UInt8 → Option (List Nat)
  | a :: b :: rest => (readPairs greatestFirst rest).map (unit greatestFirst [a, b] :: ·)
  | [] => some []
  | _ => none

/-- The units of four bytes, if they are whole and are code points. -/
def readQuads (greatestFirst : Bool) : List UInt8 → Option (List Nat)
  | a :: b :: c :: d :: rest =>
      if unit greatestFirst [a, b, c, d] < 0x110000 then
        (readQuads greatestFirst rest).map (unit greatestFirst [a, b, c, d] :: ·)
      else none
  | [] => some []
  | _ => none

/-- The text of a body, without the mark that may stand in front of it. -/
def decode (body : String) : Option String :=
  let bytes := body.toUTF8.toList
  match ofBytes bytes with
  | .bytes =>
      match body.toList with
      | '\ufeff' :: rest => some (String.ofList rest)
      | _ => some body
  | .pairs greatestFirst =>
      (readPairs greatestFirst bytes).map fun units => String.ofList (joinUnits units)
  | .quads greatestFirst =>
      (readQuads greatestFirst bytes).map fun units =>
        String.ofList (units.map joinUnits.single)

end Encoding

/-- The value of a body, if it can be read as one. -/
def ofBody? (body : String) : Option Json :=
  (Encoding.decode body).bind read?

end GrammarWorkbench.Json
