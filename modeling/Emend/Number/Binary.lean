/-!
Exact operations on doubles: rounding to an integer, the remainder, and the way to single
precision. Each takes the double apart into `m * 2 ^ e`, computes in `Nat`, and rounds at most
once, to the nearest double with ties to the even mantissa.
-/

set_option autoImplicit false

namespace Emend.Number
open Float.Model (UnpackedFloat)
open Float.Model.UnpackedFloat (Sign)

abbrev unpack (x : Float) : UnpackedFloat := x.toModel.unpack

/-- The double nearest to `m * 2 ^ e`, with the given sign. -/
def ofDyadic (sign : Sign) (m : Nat) (e : Int) : Float :=
  .ofModel (.pack (UnpackedFloat.round .binary64 sign m e))

def isNegative (x : Float) : Bool :=
  match unpack x with
  | .infinity .negative | .zero .negative | .finite .negative .. => true
  | _ => false

inductive Rounding where
  | down
  | up
  | towardZero
  /-- To the nearer one, from the middle away from zero. -/
  | halfAway
  deriving Repr, DecidableEq

/-- The magnitude of the integer that `m / 2 ^ k`, with the given sign, rounds to. -/
def Rounding.magnitude (rounding : Rounding) (sign : Sign) (m k : Nat) : Nat :=
  let unit := Nat.pow 2 k
  let whole := m / unit
  let part := m % unit
  let further : Bool := match rounding, sign with
    | .down, .negative | .up, .positive => part != 0
    | .halfAway, _ => unit ≤ 2 * part
    | _, _ => false
  if further then whole + 1 else whole

/-- The integer that `m * 2 ^ e`, with the given sign, rounds to. -/
def Rounding.integer (rounding : Rounding) (sign : Sign) (m : Nat) (e : Int) : Int :=
  sign.apply (if 0 ≤ e then m * Nat.pow 2 e.toNat else rounding.magnitude sign m (-e).toNat)

/-- The integer that a finite number rounds to. -/
def roundInt? (rounding : Rounding) (x : Float) : Option Int :=
  match unpack x with
  | .zero _ => some 0
  | .finite sign m e _ => some (rounding.integer sign m e)
  | _ => none

/-- Rounds to an integral number; the sign of a zero, infinities and NaN stay. -/
def round (rounding : Rounding) (x : Float) : Float :=
  match unpack x with
  | .finite sign m e _ =>
    if 0 ≤ e then x else ofDyadic sign (rounding.magnitude sign m (-e).toNat) 0
  | _ => x

def isIntegral (x : Float) : Bool :=
  match unpack x with
  | .zero _ => true
  | .finite _ m e _ => 0 ≤ e || m % Nat.pow 2 (-e).toNat == 0
  | _ => false

/-- The remainder of the division that is cut toward zero; it has the sign of `x`. -/
def remainder (x y : Float) : Float :=
  match unpack x, unpack y with
  | .zero _, .finite .. | .zero _, .infinity _ | .finite .., .infinity _ => x
  | .finite sign m e _, .finite _ n f _ =>
    let low := min e f
    let (a, b) := (m * Nat.pow 2 (e - low).toNat, n * Nat.pow 2 (f - low).toNat)
    ofDyadic sign (a % b) low
  | _, _ => 0.0 / 0.0

def toSingle (x : Float) : Float :=
  match unpack x with
  | .finite sign m e _ =>
    match UnpackedFloat.unpack .binary32 (UnpackedFloat.pack .binary32 (.round .binary32 sign m e)) with
    | .finite sign m e _ => ofDyadic sign m e
    | .zero sign => ofDyadic sign 0 0
    | .infinity sign => .ofModel (.pack (.infinity sign))
    | .notANumber => x
  | _ => x

end Emend.Number
