import Emend.Number.Binary
import Emend.Number.Reading

/-!
The functions that formulas can call.
-/

set_option autoImplicit false

namespace Emend.Formula

inductive Builtin where
  | abs | sin | cos | tan | asin | acos | atan | sqrt | exp
  | floor | ceiling | trunc
  | atan2 | pow
  | isInf | isNaN
  | round | log | min | max
  /-- Conversions to one kind of value. -/
  | number | text | boolean | version
  | typeName
  | element
  deriving Repr, DecidableEq

structure Signature where
  builtin : Builtin
  name : String
  least : Nat
  most : Option Nat
  deriving Repr, DecidableEq

namespace Signature

def all : List Signature := [
  ⟨.abs, "abs", 1, some 1⟩, ⟨.sin, "sin", 1, some 1⟩, ⟨.cos, "cos", 1, some 1⟩,
  ⟨.tan, "tan", 1, some 1⟩, ⟨.asin, "asin", 1, some 1⟩, ⟨.acos, "acos", 1, some 1⟩,
  ⟨.atan, "atan", 1, some 1⟩, ⟨.atan2, "atan2", 2, some 2⟩, ⟨.pow, "pow", 2, some 2⟩,
  ⟨.sqrt, "sqrt", 1, some 1⟩, ⟨.exp, "exp", 1, some 1⟩, ⟨.floor, "floor", 1, some 1⟩,
  ⟨.ceiling, "ceiling", 1, some 1⟩, ⟨.trunc, "trunc", 1, some 1⟩,
  ⟨.isInf, "isInf", 1, some 1⟩, ⟨.isNaN, "isNaN", 1, some 1⟩,
  ⟨.round, "round", 1, some 2⟩, ⟨.log, "log", 1, some 2⟩,
  ⟨.min, "min", 1, none⟩, ⟨.max, "max", 1, none⟩,
  ⟨.number, "num", 1, some 1⟩, ⟨.text, "txt", 1, some 1⟩, ⟨.boolean, "bool", 1, some 1⟩,
  ⟨.typeName, "type", 1, some 1⟩, ⟨.version, "v", 1, some 1⟩, ⟨.element, "at", 2, some 2⟩]

/-- Functions are found in any case. -/
def find? (name : String) : Option Signature := all.find? (·.name.toLower == name.toLower)

def accepts (s : Signature) (count : Nat) : Bool := s.least ≤ count && s.most.all (count ≤ ·)

def arity (s : Signature) : String :=
  match s.most with
  | some most => if most = s.least then toString most else toString s.least ++ " to " ++ toString most
  | none => "at least " ++ toString s.least

end Signature

/-- Rounds to a number of decimals, at most fifteen, with halves away from zero. -/
def roundTo (x digits : Float) : Float :=
  if digits ≤ 0 then Number.round .halfAway x
  else
    let places := if digits < 15 then (Number.roundInt? .towardZero digits).getD 15 else 15
    let factor := Float.ofNat (Nat.pow 10 places.toNat)
    Number.round .halfAway (x * factor) / factor

/-- The greater of two numbers. A number wins over NaN, and the first of two equal ones wins. -/
def greater (x y : Float) : Float := if x.isNaN then y else if x < y then y else x

/-- The smaller of two numbers, with the same preferences. -/
def smaller (x y : Float) : Float := if x.isNaN then y else if y < x then y else x

def Builtin.ofOne? : Builtin → Option (Float → Float)
  | abs => some Float.abs
  | sin => some Float.sin
  | cos => some Float.cos
  | tan => some Float.tan
  | asin => some Float.asin
  | acos => some Float.acos
  | atan => some Float.atan
  | sqrt => some Float.sqrt
  | exp => some Float.exp
  | floor => some (Number.round .down)
  | ceiling => some (Number.round .up)
  | trunc => some (Number.round .towardZero)
  | round => some (Number.round .halfAway)
  | log => some Float.log
  | _ => none

def Builtin.ofTwo? : Builtin → Option (Float → Float → Float)
  | atan2 => some Float.atan2
  | pow => some Float.pow
  | round => some roundTo
  | log => some fun x base => x.log / base.log
  | _ => none

/-- Combines any number of numbers from the first on, where the function does that. -/
def Builtin.ofMany? : Builtin → Option (Float → Float → Float)
  | min => some smaller
  | max => some greater
  | _ => none

def Builtin.test? : Builtin → Option (Float → Bool)
  | isInf => some Float.isInf
  | isNaN => some Float.isNaN
  | _ => none

end Emend.Formula
