import Emend.Number.Binary

/-!
Decimal text read as a double, rounded once to the nearest.
-/

set_option autoImplicit false

namespace Emend.Number

/-- The double nearest to `digits * 10 ^ exponent`. -/
def ofDecimal (digits : Nat) (exponent : Int) : Float :=
  Float.ofScientific digits (exponent < 0) exponent.natAbs

def digitsValue (ds : List Char) : Nat := ds.foldl (fun n d => 10 * n + (d.toNat - 48)) 0

def readNat? (cs : List Char) : Option Nat :=
  if cs.isEmpty || !cs.all Char.isDigit then none else some (digitsValue cs)

/-- Digits after at most one sign. -/
def readInt? : List Char → Option Int
  | '-' :: rest => (readNat? rest).map fun n => -(n : Int)
  | '+' :: rest => (readNat? rest).map Int.ofNat
  | cs => (readNat? cs).map Int.ofNat

/-- An exponent mark with its integer; nothing stands for zero. -/
def readExponent? : List Char → Option Int
  | [] => some 0
  | c :: rest => if c == 'e' || c == 'E' then readInt? rest else none

/-- Digits with a point and an exponent, both optional; a point has a digit on one side. -/
def readUnsigned? (cs : List Char) : Option Float :=
  let whole := cs.takeWhile Char.isDigit
  let rest := cs.dropWhile Char.isDigit
  let (part, rest) := match rest with
    | '.' :: rest => (rest.takeWhile Char.isDigit, rest.dropWhile Char.isDigit)
    | _ => ([], rest)
  if whole.isEmpty && part.isEmpty then none
  else (readExponent? rest).map fun e => ofDecimal (digitsValue (whole ++ part)) (e - part.length)

/-- A number without a sign: digits, or one of the words for infinity and NaN in any case. -/
def readMagnitude? (cs : List Char) : Option Float :=
  match cs.map Char.toLower with
  | ['i', 'n', 'f'] | ['i', 'n', 'f', 'i', 'n', 'i', 't', 'y'] => some (1.0 / 0.0)
  | ['n', 'a', 'n'] => some (0.0 / 0.0)
  | _ => readUnsigned? cs

/-- A number of any form: digits, infinity or NaN in any case, after at most one sign. -/
def ofText? (s : String) : Option Float :=
  match s.toList with
  | '-' :: rest => (readMagnitude? rest).map Float.neg
  | '+' :: rest => readMagnitude? rest
  | cs => readMagnitude? cs

end Emend.Number
